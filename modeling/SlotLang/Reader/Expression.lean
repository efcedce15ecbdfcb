import SlotLang.Reader.Literal
import SlotLang.Reader.Parse
import SlotLang.Reader.Tree

/-!
# Expressions of Python source

One function per level of precedence, from atoms up to conditional expressions. Expressions nest
through brackets and operators; the parsers of what nests are handed to each level as a record, and
`nested` builds that record to any depth.

A node starts at the first lexeme of its form. A bracket around an expression does not become part
of it, so an expression in brackets starts inside them, but a form whose first part stands in
brackets starts at the opening bracket.
-/

namespace SlotLang.Reader

open Parsing

/-- The parsers of what an expression can nest. -/
structure Nested where
  /-- Any expression, but no assignment expression. -/
  test : Parsing Expr
  /-- A negation, a comparison, or anything that binds tighter. -/
  inversion : Parsing Expr
  /-- A sign in front of an operand, or anything that binds tighter. -/
  factor : Parsing Expr

/-- How an element of a display was written. -/
inductive ElementForm where
  | test
  | assignment
  | starred
  deriving DecidableEq, Repr, Inhabited

/-! ## What can come first -/

def operandWords : List String :=
  ["None", "True", "False", "await"]

def operandSigns : List String :=
  ["(", "[", "\x7b", "-", "+", "~", "..."]

def startsOperand : Kind → Bool
  | .name _ | .int _ | .float | .complex | .string .. => true
  | .word w => operandWords.contains w
  | .sign s => operandSigns.contains s
  | _ => false

def startsTest (k : Kind) : Bool :=
  startsOperand k || k = .word "not" || k = .word "lambda"

def startsElement (k : Kind) : Bool :=
  startsTest k || k = .sign "*"

def startsTarget (k : Kind) : Bool :=
  startsOperand k || k = .sign "*"

def startsArgument (k : Kind) : Bool :=
  startsElement k || k = .sign "**"

def startsIndex (k : Kind) : Bool :=
  startsElement k || k = .sign ":"

def startsLoop (k : Kind) : Bool :=
  k = .word "for" || k = .word "async"

/-! ## What can come next -/

def wordsAfterTest : List String :=
  ["for", "async", "as", "from"]

def signsAfterTest : List String :=
  [")", "]", "\x7d", ",", ":", ";", "=", "+=", "-=", "*=", "@=", "/=", "%=", "&=", "|=", "^=", "<<=",
    ">>=", "**=", "//="]

/-- Words that can stand behind an atom but not behind every expression. -/
def wordsAfterAtom : List String :=
  ["if", "else", "and", "or", "not", "in", "is"]

/-- Signs that can stand behind an atom but not behind every expression. -/
def signsAfterAtom : List String :=
  ["(", "[", ".", "**", "*", "/", "//", "%", "@", "+", "-", "<<", ">>", "&", "^", "|", "<", ">", "<=",
    ">=", "==", "!="]

/-- Whether a lexeme can follow an expression, in one place or another. -/
def followsTest : Kind → Bool
  | .word w => wordsAfterTest.contains w
  | .sign s => signsAfterTest.contains s
  | .newline => true
  | _ => false

def followsAtom (k : Kind) : Bool :=
  match k with
  | .word w => wordsAfterAtom.contains w || followsTest k
  | .sign s => signsAfterAtom.contains s || followsTest k
  | _ => followsTest k

def followsParameters (k : Kind) : Bool :=
  k = .sign "->" || k = .sign ":"

/-! ## Binary operators -/

/-- Operators of one level, which group to the left. -/
def chain (operators : List (String × Operator)) (operand : Parsing Expr) : Parsing Expr := do
  let start ← here
  let first ← operand
  repeating (fun left => do
    match ← peek with
    | .sign s =>
      match operators.lookup s with
      | some op =>
        advance
        return some (.binary op left (← operand) start)
      | none => return none
    | _ => return none) first

def joined (op : Connective) (word : String) (operand : Parsing Expr) : Parsing Expr := do
  let start ← here
  let first ← operand
  let values ← repeating (fun values => do
    if ← acceptWord word then return some (values.push (← operand)) else return none) #[first]
  if values.size = 1 then return first
  return .bool op values.toList start

/-! ## Parameters -/

/-- The parameters of a function or a lambda expression, with what has to be checked. -/
structure ParamDraft where
  params : Params := {}
  /-- Every name and its line, in order. -/
  names : List (String × Nat) := []
  /-- Whether each parameter that takes positional arguments has a default, and its line. -/
  defaults : List (Bool × Nat) := []
  /-- The line of a star that no name follows, as long as nothing else follows it either. -/
  bareStar : Option Nat := none
  /-- Whether the list may go on only with keyword parameters. -/
  afterStar : Bool := false
  /-- Whether the list is complete. -/
  afterDouble : Bool := false
  deriving DecidableEq, Repr, Inhabited

namespace ParamDraft

def takes (d : ParamDraft) (k : Kind) : Bool :=
  if d.afterDouble then false
  else match k with
    | .name _ => true
    | .sign "**" => true
    | .sign "*" => !d.afterStar
    | .sign "/" => !d.afterStar && !d.params.hasPositionalOnly && !d.params.plain.isEmpty
    | _ => false

def add (d : ParamDraft) (p : Param) (line : Nat) : ParamDraft :=
  let d := { d with names := d.names ++ [(p.name, line)] }
  if d.afterStar then
    { d with params := { d.params with hasKeywordOnly := true }, bareStar := none }
  else
    { d with
      params := { d.params with plain := d.params.plain ++ [p] }
      defaults := d.defaults ++ [(p.hasDefault, line)] }

/-- Makes all parameters so far positional only. -/
def closePositional (d : ParamDraft) : ParamDraft :=
  { d with params := { d.params with plain := [], hasPositionalOnly := true } }

def addVariadic (d : ParamDraft) (name : Option String) (line : Nat) : ParamDraft :=
  match name with
  | some id =>
    { d with names := d.names ++ [(id, line)], params := { d.params with isVariadic := true } }
  | none => d

/-- The line of the first parameter without a default behind one that has a default. -/
def missingDefault? (d : ParamDraft) : Option Nat :=
  ((d.defaults.dropWhile fun p => !p.1).dropWhile Prod.fst).head?.map Prod.snd

/-- The line of the first name that stands in the list twice. -/
def duplicate? (seen : List String) : List (String × Nat) → Option Nat
  | [] => none
  | (id, line) :: rest =>
    if seen.contains id then some line else duplicate? (id :: seen) rest

end ParamDraft

def typeHint (allowed : Bool) (type : Parsing Expr) : Parsing Bool := do
  if allowed then
    if ← acceptSign ":" then
      let _ ← type
      return true
  return false

def variadicName (allowed : Bool) (type : Parsing Expr) : Parsing (Option String) := do
  match ← peek with
  | .name id =>
    advance
    let _ ← typeHint allowed type
    return some id
  | _ => return none

/-- A star and what belongs to it: `*` with or without a name, followed by an operand. -/
def starred (operand : Parsing Expr) : Parsing Expr := do
  let start ← here
  expectSign "*"
  let _ ← operand
  return .other .starred start

def parameter (test : Parsing Expr) (unpacked : Parsing Expr) (annotated : Bool) (d : ParamDraft) :
    Parsing ParamDraft := do
  let line ← here
  if d.takes (← peek) = false then unexpected
  if ← acceptSign "/" then return d.closePositional
  if ← acceptSign "*" then
    let nameLine ← here
    let name ← variadicName annotated unpacked
    return { d.addVariadic name nameLine with
      afterStar := true, bareStar := if name.isNone then some line else none }
  if ← acceptSign "**" then
    let nameLine ← here
    let name ← variadicName annotated test
    return { d.addVariadic name nameLine with afterDouble := true, bareStar := none }
  let name ← identifier
  let hasType ← typeHint annotated test
  let hasDefault ← acceptSign "="
  if hasDefault then
    let _ ← test
  return d.add { name, hasDefault, hasType } line

/-- A list of parameters up to the sign that ends it, which is not taken. -/
def parameters (test unpacked : Parsing Expr) (annotated : Bool) (closer : String) :
    Parsing ParamDraft := do
  if ← atSign closer then return {}
  let first ← parameter test unpacked annotated {}
  let (d, _) ← repeating (fun (d, trailing) => do
    if trailing then return none
    else if ← acceptSign "," then
      if d.takes (← peek) then return some (← parameter test unpacked annotated d, false)
      else return some (d, true)
    else return none) (first, false)
  unless ← atSign closer do unexpected
  if let some line := d.bareStar then reject (· = .sign closer) line
  if let some line := d.missingDefault? then reject (· = .sign closer) line
  return d

def checkDuplicates (follows : Kind → Bool) (d : ParamDraft) : Parsing Unit := do
  if let some line := ParamDraft.duplicate? [] d.names then reject follows line

/-! ## Levels of precedence -/

section Levels

variable (n : Nested)

def namedTest : Parsing (ElementForm × Expr) := do
  match ← peek, ← peekSecond with
  | .name _, .sign ":=" =>
    let start ← here
    advance
    advance
    let _ ← n.test
    return (.assignment, .other .assignment start)
  | _, _ => return (.test, ← n.test)

/-- An assignment expression or an expression, without its form. -/
def condition : Parsing Expr := do
  return (← namedTest n).2

def term : Parsing Expr :=
  chain [("*", .mul), ("/", .div), ("//", .floorDiv), ("%", .mod), ("@", .matMul)] n.factor

/-- An operand of a comparison: sums, shifts and bitwise operations. -/
def expression : Parsing Expr :=
  let sum := chain [("+", .add), ("-", .sub)] (term n)
  let shift := chain [("<<", .shift), (">>", .shift)] sum
  let conjunction := chain [("&", .bitwise)] shift
  let exclusive := chain [("^", .bitwise)] conjunction
  chain [("|", .bitwise)] exclusive

def starExpression : Parsing Expr :=
  starred (expression n)

def comparator? : Parsing (Option Comparator) := do
  match ← peek with
  | .sign "<" => advance; return some .lt
  | .sign ">" => advance; return some .gt
  | .sign "<=" => advance; return some .le
  | .sign ">=" => advance; return some .ge
  | .sign "==" => advance; return some .eq
  | .sign "!=" => advance; return some .ne
  | .word "in" => advance; return some .membership
  | .word "not" =>
    advance
    expectWord "in"
    return some .membership
  | .word "is" =>
    advance
    let _ ← acceptWord "not"
    return some .identity
  | _ => return none

def comparison : Parsing Expr := do
  let start ← here
  let left ← expression n
  let rest ← repeating (fun rest => do
    match ← comparator? with
    | some op => return some (rest.push (op, ← expression n))
    | none => return none) #[]
  if rest.isEmpty then return left
  return .compare left rest.toList start

def inversion : Parsing Expr := do
  let start ← here
  if ← acceptWord "not" then return .unary .not (← n.inversion) start
  comparison n

def disjunction : Parsing Expr :=
  joined .or "or" (joined .and "and" (inversion n))

def lambda : Parsing Expr := do
  let start ← here
  expectWord "lambda"
  let d ← parameters n.test n.test false ":"
  expectSign ":"
  let _ ← n.test
  checkDuplicates followsTest d
  return .other .lambda start

/-- Any expression but an assignment expression. -/
def test : Parsing Expr := do
  if ← atWord "lambda" then return ← lambda n
  let start ← here
  let body ← disjunction n
  if ← acceptWord "if" then
    let _ ← disjunction n
    expectWord "else"
    let _ ← n.test
    return .other .conditional start
  return body

/-- An element of a display: an expression, an assignment expression or an unpacked operand. -/
def element : Parsing (ElementForm × Expr) := do
  if ← atSign "*" then return (.starred, ← starExpression n)
  namedTest n

def testOrStar : Parsing Expr := do
  if ← atSign "*" then return ← starExpression n
  n.test

def testList : Parsing Expr := do
  let start ← here
  let (items, trailing) ← commaSeparated startsElement (testOrStar n)
  match items, trailing with
  | [e], false => return e
  | _, _ => return .other .tuple start

def targetList : Parsing Expr := do
  let start ← here
  let target : Parsing Expr := do
    if ← atSign "*" then return ← starExpression n
    expression n
  let (items, trailing) ← commaSeparated startsTarget target
  match items, trailing with
  | [e], false => return e
  | _, _ => return .other .tuple start

def yieldExpression : Parsing Expr := do
  let start ← here
  expectWord "yield"
  if ← acceptWord "from" then
    let _ ← n.test
  else
    let _ ← Parsing.optional startsElement (testList n)
  return .other .generator start

def comprehensionLoop : Parsing Unit := do
  let _ ← acceptWord "async"
  expectWord "for"
  let _ ← targetList n
  expectWord "in"
  let _ ← disjunction n
  let _ ← whileKind (· = .word "if") do
    advance
    disjunction n

def comprehensionLoops : Parsing Unit := do
  comprehensionLoop n
  let _ ← whileKind startsLoop (comprehensionLoop n)

/-! ## Arguments and indices -/

inductive Argument where
  | positional (e : Expr)
  | unpacked (e : Expr)
  | keyword (name : String) (line : Nat)
  | keywords

def argument : Parsing Argument := do
  match ← peek, ← peekSecond with
  | .sign "*", _ =>
    let start ← here
    advance
    let _ ← n.test
    return .unpacked (.other .starred start)
  | .sign "**", _ =>
    advance
    let _ ← n.test
    return .keywords
  | .name id, .sign "=" =>
    let start ← here
    advance
    advance
    let _ ← n.test
    return .keyword id start
  | _, _ =>
    let start ← here
    let e ← condition n
    if startsLoop (← peek) then
      comprehensionLoops n
      return .positional (.other .comprehension start)
    return .positional e

/-- The arguments so far. -/
structure ArgumentScan where
  values : Array Expr := #[]
  names : List String := []
  hasKeywords : Bool := false
  hasUnpackedKeywords : Bool := false

def ArgumentScan.add (s : ArgumentScan) : Argument → Except Nat ArgumentScan
  | .positional e =>
    if s.hasKeywords then .error e.line else .ok { s with values := s.values.push e }
  | .unpacked e =>
    if s.hasUnpackedKeywords then .error e.line else .ok { s with values := s.values.push e }
  | .keyword name line =>
    if s.names.contains name then .error line
    else .ok { s with names := name :: s.names, hasKeywords := true }
  | .keywords => .ok { s with hasKeywords := true, hasUnpackedKeywords := true }

def arguments : Parsing (List Expr × Bool) := do
  let items ← Parsing.optional startsArgument (commaSeparated startsArgument (argument n))
  unless ← atSign ")" do unexpected
  match (items.elim [] Prod.fst).foldlM ArgumentScan.add {} with
  | .ok s =>
    advance
    return (s.values.toList, s.hasKeywords)
  | .error line => reject (· = .sign ")") line

/-- The part of a slice from its first colon on. -/
def sliceRest : Parsing Unit := do
  expectSign ":"
  let _ ← Parsing.optional startsTest n.test
  if ← acceptSign ":" then
    let _ ← Parsing.optional startsTest n.test

def index : Parsing Unit := do
  if ← atSign ":" then sliceRest n
  else
    let (form, _) ← element n
    if form = .test then
      if ← atSign ":" then sliceRest n

/-! ## Atoms -/

def isExpression (cs : List Char) : Bool :=
  let whole : Parsing Unit := do
    let _ ← testList n
    let _ ← whileKind (· = .newline) advance
    unless (← peek) = .eof do unexpected
  (whole.run (lexemes ('(' :: cs ++ [')']))).isOk

def stringPart? (l : Lexeme) : Option (StringStyle × List Char × Nat) :=
  match l.kind with
  | .string style content => some (style, content, l.line)
  | _ => none

def strings (follows : Kind → Bool) : Parsing Expr := do
  let start ← here
  let parts := ((← get).takeWhile fun l => (stringPart? l).isSome).filterMap stringPart?
  modify fun ls => ls.dropWhile fun l => (stringPart? l).isSome
  let byteParts := (parts.filter fun p => p.1.bytes).length
  if 0 < byteParts && byteParts < parts.length then reject follows start
  for (style, content, line) in parts do
    if let .error line := checkContent (isExpression n) style content line then
      reject follows line
  if 0 < byteParts then return .constant .bytes start
  if parts.any fun p => p.1.formatted then return .other .formatted start
  return .constant .string start

def parenthesised : Parsing Expr := do
  let start ← here
  expectSign "("
  if ← acceptSign ")" then return .other .tuple start
  if ← atWord "yield" then
    let e ← yieldExpression n
    expectSign ")"
    return e
  if ← atSign "**" then
    let line ← here
    advance
    let _ ← expression n
    expectSign ")"
    reject followsAtom line
  let (form, e) ← element n
  if form ≠ .starred && startsLoop (← peek) then
    comprehensionLoops n
    expectSign ")"
    return .other .comprehension start
  let (items, trailing) ← commaTail startsElement (element n) (form, e)
  expectSign ")"
  match items, trailing with
  | [(.starred, e)], false => reject followsAtom e.line
  | [(_, e)], false => return e
  | _, _ => return .other .tuple start

def listDisplay : Parsing Expr := do
  let start ← here
  expectSign "["
  if ← acceptSign "]" then return .other .list start
  let first ← element n
  if startsLoop (← peek) then
    comprehensionLoops n
    expectSign "]"
    return .other .comprehension start
  let _ ← commaTail startsElement (element n) first
  expectSign "]"
  return .other .list start

def dictItem : Parsing Unit := do
  if ← acceptSign "**" then
    let _ ← expression n
  else
    let _ ← n.test
    expectSign ":"
    let _ ← n.test

def dictRest (start : Nat) : Parsing Expr := do
  let starts (k : Kind) := startsTest k || k = .sign "**"
  let _ ← commaTail starts (dictItem n) ()
  expectSign "\x7d"
  return .other .dict start

def braceDisplay : Parsing Expr := do
  let start ← here
  expectSign "\x7b"
  if ← acceptSign "\x7d" then return .other .dict start
  if ← atSign "**" then
    dictItem n
    return ← dictRest n start
  let (form, e) ← element n
  if form = .test then
    if ← acceptSign ":" then
      let _ ← n.test
      if startsLoop (← peek) then
        comprehensionLoops n
        expectSign "\x7d"
        return .other .comprehension start
      return ← dictRest n start
  if form ≠ .starred && startsLoop (← peek) then
    comprehensionLoops n
    expectSign "\x7d"
    return .other .comprehension start
  let _ ← commaTail startsElement (element n) (form, e)
  expectSign "\x7d"
  return .other .set start

def literal (c : Constant) : Parsing Expr := do
  let start ← here
  advance
  return .constant c start

def atom : Parsing Expr := do
  let start ← here
  match ← peek with
  | .name id =>
    advance
    return .name id start
  | .int value => literal (.int value)
  | .float => literal .float
  | .complex => literal .complex
  | .string .. => strings n followsAtom
  | .word "None" => literal .none
  | .word "True" => literal (.bool true)
  | .word "False" => literal (.bool false)
  | .sign "..." => literal .ellipsis
  | .sign "(" => parenthesised n
  | .sign "[" => listDisplay n
  | .sign "\x7b" => braceDisplay n
  | _ => unexpected

def primary : Parsing Expr := do
  let start ← here
  let first ← atom n
  repeating (fun e => do
    match ← peek with
    | .sign "(" =>
      advance
      let (args, hasKeywords) ← arguments n
      return some (.call e args hasKeywords start)
    | .sign "[" =>
      advance
      let _ ← commaSeparated startsIndex (index n)
      expectSign "]"
      return some (.other .subscript start)
    | .sign "." =>
      advance
      let _ ← identifier
      return some (.other .attribute start)
    | _ => return none) first

def awaited : Parsing Expr := do
  let start ← here
  if ← acceptWord "await" then
    let _ ← primary n
    return .other .awaiting start
  primary n

def power : Parsing Expr := do
  let start ← here
  let base ← awaited n
  if ← acceptSign "**" then return .binary .pow base (← n.factor) start
  return base

def factor : Parsing Expr := do
  let start ← here
  if ← acceptSign "-" then return .unary .minus (← n.factor) start
  if ← acceptSign "+" then return .unary .plus (← n.factor) start
  if ← acceptSign "~" then return .unary .invert (← n.factor) start
  power n

end Levels

/-- The parsers of expressions that nest at most so deep. -/
def nested : Nat → Nested
  | 0 => ⟨unexpected, unexpected, unexpected⟩
  | depth + 1 =>
    let n := nested depth
    ⟨test n, inversion n, factor n⟩

end SlotLang.Reader
