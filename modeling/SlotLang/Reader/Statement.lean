import SlotLang.Reader.Pattern

/-!
# Statements of Python source

Simple statements stand on one line, compound statements have suites: a suite is a simple line behind
a colon or an indented block. Suites nest, so each level of `suiteOfDepth` gets the parser of the
suites inside. `parseModule` reads a whole source, or gives the line where reading stopped.
-/

namespace SlotLang.Reader

open Parsing

/-- The operators of assignments that combine a value with the target's. -/
def augmentOperators : List (String × Operator) :=
  [("+=", .add), ("-=", .sub), ("*=", .mul), ("@=", .matMul), ("/=", .div), ("%=", .mod),
    ("&=", .bitwise), ("|=", .bitwise), ("^=", .bitwise), ("<<=", .shift), (">>=", .shift),
    ("**=", .pow), ("//=", .floorDiv)]

def augmentOperator? : Parsing (Option Operator) := do
  match ← peek with
  | .sign s => return augmentOperators.lookup s
  | _ => return none

section Simple

variable (n : Nested)

def assigned : Parsing Expr := do
  if ← atWord "yield" then yieldExpression n else testList n

def expressionStatement : Parsing Stmt := do
  let start ← here
  let (items, trailing) ← commaSeparated startsElement (testOrStar n)
  let isPlain := items.length = 1 && !trailing
  let first := if isPlain then items.headD default else .other .tuple start
  let isStarred := isPlain && first matches .other .starred _
  if isPlain && !isStarred then
    if ← acceptSign ":" then
      let _ ← n.test
      if ← acceptSign "=" then
        let _ ← assigned n
      return .other .typedAssign start
  if let some op ← augmentOperator? then
    advance
    return .augment first op (← assigned n) start
  let values ← whileKind (· = .sign "=") do
    advance
    assigned n
  match values.getLast? with
  | some value => return .assign (first :: values.dropLast) value start
  | none => return .expr first start

def dottedName : Parsing Unit := do
  let _ ← identifier
  dottedRest

def aliasName : Parsing Unit := do
  if ← acceptWord "as" then
    let _ ← identifier

def importedName : Parsing Unit := do
  let _ ← identifier
  aliasName

def isDots (k : Kind) : Bool :=
  k = .sign "." || k = .sign "..."

def importFrom : Parsing Unit := do
  let dots ← whileKind isDots advance
  unless !dots.isEmpty && (← atWord "import") do dottedName
  expectWord "import"
  if ← acceptSign "*" then return
  if ← acceptSign "(" then
    let _ ← commaSeparated (· matches .name _) importedName
    expectSign ")"
  else
    let _ ← oneOrMore importedName

def typeParameter : Parsing Unit := do
  if ← acceptSign "*" then
    let _ ← identifier
  else if ← acceptSign "**" then
    let _ ← identifier
  else
    let _ ← identifier
    if ← acceptSign ":" then
      let _ ← n.test

def typeParameters : Parsing Unit := do
  if ← acceptSign "[" then
    let starts (k : Kind) := k matches .name _ || k = .sign "*" || k = .sign "**"
    let _ ← commaSeparated starts (typeParameter n)
    expectSign "]"

def wordStatement (word : String) (start : Nat) : Parsing Stmt := do
  match word with
  | "pass" =>
    advance
    return .pass start
  | "break" =>
    advance
    return .breakLoop start
  | "continue" =>
    advance
    return .continueLoop start
  | "return" =>
    advance
    return .ret (← Parsing.optional startsElement (testList n)) start
  | "global" =>
    advance
    return .global (← oneOrMore identifier) start
  | "nonlocal" =>
    advance
    let _ ← oneOrMore identifier
    return .other .nonlocal start
  | "del" =>
    advance
    let _ ← targetList n
    return .other .delete start
  | "raise" =>
    advance
    if startsTest (← peek) then
      let _ ← n.test
      if ← acceptWord "from" then
        let _ ← n.test
    return .other .raise start
  | "assert" =>
    advance
    let _ ← n.test
    if ← acceptSign "," then
      let _ ← n.test
    return .other .assertion start
  | "import" =>
    advance
    let _ ← oneOrMore do
      dottedName
      aliasName
    return .other .importing start
  | "from" =>
    advance
    importFrom
    return .other .importing start
  | "type" =>
    advance
    let _ ← identifier
    typeParameters n
    expectSign "="
    let _ ← n.test
    return .other .unnamed start
  | "yield" => return .expr (← yieldExpression n) start
  | _ => expressionStatement n

def simpleStatement : Parsing Stmt := do
  match ← peek with
  | .word w => wordStatement n w (← here)
  | _ => expressionStatement n

def simpleLine : Parsing (List Stmt) := do
  let first ← simpleStatement n
  let (items, _) ← repeating (fun (items, ended) => do
    if ended then return none
    else if ← acceptSign ";" then
      if (← peek) = .newline then return some (items, true)
      else return some (items.push (← simpleStatement n), false)
    else return none) (#[first], false)
  expect .newline
  return items.toList

end Simple

section Compound

variable (n : Nested) (depth : Nat) (suite : Parsing (List Stmt))

def body : Parsing (List Stmt) := do
  expectSign ":"
  suite

def clause? (word : String) : Parsing (Option (List Stmt)) := do
  if ← acceptWord word then return some (← body suite) else return none

/-- A conditional. Each further condition is a conditional in the alternative of the one before. -/
def conditional (start : Nat) : Parsing Stmt := do
  expectWord "if"
  let test ← condition n
  let taken ← body suite
  let further ← whileKind (· = .word "elif") do
    let line ← here
    advance
    let test ← condition n
    return (test, ← body suite, line)
  let otherwise ← clause? suite "else"
  let orelse := further.foldr (fun (test, taken, line) orelse => [.cond test taken orelse line])
    (otherwise.getD [])
  return .cond test taken orelse start

def whileStatement (start : Nat) : Parsing Stmt := do
  expectWord "while"
  let test ← condition n
  let repeated ← body suite
  let otherwise ← clause? suite "else"
  return .whileLoop test repeated (otherwise.getD []) start

def forStatement : Parsing Unit := do
  expectWord "for"
  let _ ← targetList n
  expectWord "in"
  let _ ← testList n
  let _ ← body suite
  let _ ← clause? suite "else"

/-- One handler of exceptions. -/
def exceptClause (isGroup : Bool) : Parsing Unit := do
  expectWord "except"
  if isGroup then
    expectSign "*"
    let _ ← n.test
    aliasName
  else
    if startsTest (← peek) then
      let _ ← n.test
      aliasName
  let _ ← body suite

/-- A block with handlers of exceptions, with a final suite, or with both. -/
def tryStatement (start : Nat) : Parsing Stmt := do
  expectWord "try"
  let _ ← body suite
  if (← clause? suite "finally").isSome then return .other .tryBlock start
  unless ← atWord "except" do unexpected
  let isGroup := (← peekSecond) = .sign "*"
  let _ ← whileKind (· = .word "except") (exceptClause n suite isGroup)
  let _ ← clause? suite "else"
  let _ ← clause? suite "finally"
  return .other (if isGroup then .unnamed else .tryBlock) start

def withItem : Parsing Unit := do
  let _ ← n.test
  if ← acceptWord "as" then
    let _ ← expression n

/-- The items of a with statement and its colon. The items may stand in brackets. -/
def withItems : Parsing Unit :=
  let bracketed : Parsing Unit := do
    expectSign "("
    let _ ← commaSeparated startsTest (withItem n)
    expectSign ")"
    expectSign ":"
  let plain : Parsing Unit := do
    let _ ← oneOrMore (withItem n)
    expectSign ":"
  either bracketed plain

def withStatement : Parsing Unit := do
  expectWord "with"
  withItems n
  let _ ← suite

def matchCase : Parsing Unit := do
  expectWord "case"
  let _ ← commaSeparated startsPattern (patternOfDepth n depth)
  if ← acceptWord "if" then
    let _ ← condition n
  let _ ← body suite

def matchStatement : Parsing Unit := do
  expectWord "match"
  let _ ← commaSeparated startsElement (element n)
  expectSign ":"
  expect .newline
  expect .indent
  matchCase n depth suite
  let _ ← whileKind (· = .word "case") (matchCase n depth suite)
  expect .dedent

def returnType : Parsing Bool := do
  if ← acceptSign "->" then
    let _ ← n.test
    return true
  return false

def funcStatement (isDecorated : Bool) (start : Nat) : Parsing Stmt := do
  expectWord "def"
  let name ← identifier
  typeParameters n
  expectSign "("
  let d ← parameters n.test (testOrStar n) true ")"
  expectSign ")"
  checkDuplicates followsParameters d
  let hasReturn ← returnType n
  return .funcDef name d.params isDecorated hasReturn (← body suite) start

def classStatement (start : Nat) : Parsing Stmt := do
  expectWord "class"
  let _ ← identifier
  typeParameters n
  if ← acceptSign "(" then
    let _ ← arguments n
  let _ ← body suite
  return .other .classDef start

/-- An asynchronous function, or after no decorators an asynchronous loop or block. -/
def asyncStatement (isDecorated : Bool) (start : Nat) : Parsing Stmt := do
  expectWord "async"
  if isDecorated || (← atWord "def") then
    let _ ← funcStatement n suite isDecorated start
  else if ← atWord "for" then forStatement n suite
  else withStatement n suite
  return .other .asyncCode start

def decorator : Parsing Unit := do
  expectSign "@"
  let _ ← condition n
  expect .newline

def decorated : Parsing Stmt := do
  let _ ← whileKind (· = .sign "@") (decorator n)
  let start ← here
  if ← atWord "async" then asyncStatement n suite true start
  else if ← atWord "class" then classStatement n suite start
  else funcStatement n suite true start

def statements : Parsing (List Stmt) := do
  let start ← here
  match ← peek with
  | .sign "@" => return [← decorated n suite]
  | .word "if" => return [← conditional n suite start]
  | .word "while" => return [← whileStatement n suite start]
  | .word "for" =>
    forStatement n suite
    return [.other .forLoop start]
  | .word "try" => return [← tryStatement n suite start]
  | .word "with" =>
    withStatement n suite
    return [.other .withBlock start]
  | .word "match" =>
    matchStatement n depth suite
    return [.other .matchBlock start]
  | .word "def" => return [← funcStatement n suite false start]
  | .word "class" => return [← classStatement n suite start]
  | .word "async" => return [← asyncStatement n suite false start]
  | _ => simpleLine n

/-- A suite: an indented block, or simple statements on the same line. -/
def suiteAround : Parsing (List Stmt) := do
  if ← accept .newline then
    expect .indent
    let first ← statements n depth suite
    let rest ← whileKind (· ≠ .dedent) (statements n depth suite)
    expect .dedent
    return first ++ rest.flatten
  simpleLine n

end Compound

/-- A suite whose parts nest at most so deep. -/
def suiteOfDepth (n : Nested) : Nat → Parsing (List Stmt)
  | 0 => unexpected
  | depth + 1 => suiteAround n depth (suiteOfDepth n depth)

/-- A whole source, whose parts nest at most so deep. -/
def moduleOfDepth (depth : Nat) : Parsing (List Stmt) := do
  let n := nested depth
  let suite := suiteOfDepth n depth
  let all ← whileKind (· ≠ .eof) do
    if ← accept .newline then return []
    statements n depth suite
  return all.flatten

/-- Reads a source. Nothing nests deeper than the source is long. An error is the line where reading
stopped. -/
def parseModule (source : String) : Except Nat (List Stmt) :=
  match (moduleOfDepth (source.length + 1)).run (lexemes source.toList) with
  | .ok (body, _) => .ok body
  | .error stop => .error stop.line

end SlotLang.Reader
