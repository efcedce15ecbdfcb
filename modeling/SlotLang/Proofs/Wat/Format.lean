import SlotLang.Assembly.Check

/-!
# Module text and its rules

The part of the WebAssembly text format that modules of programs use, read without regard to how they
were made. Characters make tokens, tokens make nested lists, and the lists of a module are its fields.
The code of a function is one flat sequence: `block`, `loop` and `if` open a level and `end` closes the
innermost one. `Module.isValid` decides the rules: names are declared once and where they are used,
constants are in range, and every instruction finds its operands in the level that it stands in.
-/

namespace SlotLang.Assembly.Wat

/-! ## Tokens -/

inductive Token where
  | opened
  | closed
  /-- A keyword, a name or a number. -/
  | word (text : String)
  | quoted (text : String)
  deriving DecidableEq, Repr, Inhabited

/-- The characters of words. -/
def isWordChar (c : Char) : Bool :=
  c.isAlphanum || c == '$' || c == '.' || c == '_' || c == '-'

/-- What the last character belongs to. Characters of a piece are kept last one first. -/
inductive Spot where
  | between
  /-- Right behind an opening parenthesis. -/
  | opened
  | word (chars : List Char)
  | quoted (chars : List Char)
  | semicolon
  | comment
  deriving DecidableEq, Repr, Inhabited

/-- A text read up to some character: the spot there, and the tokens, last one first. -/
structure Lexer where
  spot : Spot := .between
  read : List Token := []
  deriving DecidableEq, Repr, Inhabited

namespace Lexer

/-- Takes in a character that no earlier piece goes on with. -/
def start (read : List Token) (c : Char) : Option Lexer :=
  if c = '(' then some ⟨.opened, .opened :: read⟩
  else if c = ')' then some ⟨.between, .closed :: read⟩
  else if c = '"' then some ⟨.quoted [], read⟩
  else if c = ';' then some ⟨.semicolon, read⟩
  else if c = ' ' ∨ c = '\n' then some ⟨.between, read⟩
  else if isWordChar c then some ⟨.word [c], read⟩
  else none

/-- Takes in a character. Two semicolons start a comment, which goes on up to the end of the line. -/
def step (l : Lexer) (c : Char) : Option Lexer :=
  match l.spot with
  | .between => start l.read c
  | .opened => if c = ';' then none else start l.read c
  | .word chars =>
    if isWordChar c then some ⟨.word (c :: chars), l.read⟩
    else start (.word (String.ofList chars.reverse) :: l.read) c
  | .quoted chars =>
    if c = '"' then some ⟨.between, .quoted (String.ofList chars.reverse) :: l.read⟩
    else if c = '\\' ∨ c = '\n' then none
    else some ⟨.quoted (c :: chars), l.read⟩
  | .semicolon => if c = ';' then some ⟨.comment, l.read⟩ else none
  | .comment => some ⟨if c = '\n' then .between else .comment, l.read⟩

/-- Takes in characters. -/
def run (l : Lexer) (cs : List Char) : Option Lexer :=
  cs.foldlM step l

end Lexer

/-- The tokens of a text whose lines are all ended. -/
def tokens (cs : List Char) : Option (List Token) := do
  let l ← Lexer.run {} cs
  if l.spot = .between then some l.read.reverse else none

/-! ## Nested lists -/

inductive Expr where
  | word (text : String)
  | quoted (text : String)
  | list (items : List Expr)
  deriving Inhabited

namespace Expr

/-- The open lists, innermost one first; items are kept last one first. -/
abbrev Stack := List (List Expr)

/-- Adds an item to the innermost list. -/
def push (e : Expr) : Stack → Option Stack
  | items :: outer => some ((e :: items) :: outer)
  | [] => none

/-- Takes in a token. -/
def step : Stack → Token → Option Stack
  | stack, .opened => some ([] :: stack)
  | items :: outer, .closed => push (.list items.reverse) outer
  | [], .closed => none
  | stack, .word text => push (.word text) stack
  | stack, .quoted text => push (.quoted text) stack

/-- Reads tokens as items. -/
def ofTokens (ts : List Token) : Option (List Expr) := do
  match ← ts.foldlM step [[]] with
  | [items] => some items.reverse
  | _ => none

def word? : Expr → Option String
  | word text => some text
  | _ => none

end Expr

/-! ## Code -/

/-- Instructions that only work on the stack. -/
inductive Numeric where
  | arith (op : Arith)
  | compare (op : Comparison)
  | isZero
  | widen
  | both
  | either
  deriving DecidableEq, Repr, Inhabited

/-- The types of the operands and of the result. -/
def Numeric.type : Numeric → List ValueType × ValueType
  | arith _ => ([.i64, .i64], .i64)
  | compare _ => ([.i64, .i64], .i32)
  | isZero => ([.i64], .i32)
  | widen => ([.i32], .i64)
  | both | either => ([.i32, .i32], .i32)

/-- Instructions as they stand in the text, one after the other. -/
inductive Op where
  | const (type : ValueType) (v : Int)
  | localGet (name : String)
  | localSet (name : String)
  | globalGet (name : String)
  | globalSet (name : String)
  | drop
  | numeric (op : Numeric)
  | call (name : String)
  | ret
  | br (label : String)
  /-- The last label is the one for all other values. -/
  | brTable (labels : List String)
  | block (label : String)
  | loop (label : String)
  | ifThen
  | finish
  deriving DecidableEq, Repr, Inhabited

/-- Names start with a dollar sign. -/
def isName (text : String) : Bool :=
  text.toList.head? == some '$'

/-- Keywords start with a small letter. -/
def isKeyword (text : String) : Bool :=
  text.toList.head?.any Char.isLower

/-- The integer of a numeral. -/
def number? (text : String) : Option Int :=
  if Text.isNumeral text.toList then some (Text.numeralValue text.toList) else none

def numericOps : List (String × Numeric) :=
  [("i64.add", .arith .add), ("i64.sub", .arith .sub), ("i64.mul", .arith .mul),
    ("i64.div_s", .arith .div), ("i64.rem_s", .arith .rem), ("i64.lt_s", .compare .lt),
    ("i64.gt_s", .compare .gt), ("i64.eq", .compare .eq), ("i64.ne", .compare .ne),
    ("i64.eqz", .isZero), ("i64.extend_i32_u", .widen), ("i32.and", .both), ("i32.or", .either)]

namespace Op

/-- An instruction without immediates. -/
def plain? (keyword : String) : Option Op :=
  if keyword = "drop" then some drop
  else if keyword = "return" then some ret
  else if keyword = "if" then some ifThen
  else if keyword = "end" then some finish
  else (numericOps.lookup keyword).map numeric

/-- An instruction with one name. -/
def named? (keyword name : String) : Option Op :=
  if keyword = "local.get" then some (localGet name)
  else if keyword = "local.set" then some (localSet name)
  else if keyword = "global.get" then some (globalGet name)
  else if keyword = "global.set" then some (globalSet name)
  else if keyword = "call" then some (call name)
  else if keyword = "br" then some (br name)
  else if keyword = "block" then some (block name)
  else if keyword = "loop" then some (loop name)
  else none

/-- An instruction with one immediate. -/
def unary? (keyword immediate : String) : Option Op :=
  if keyword = "i64.const" then (number? immediate).map (const .i64)
  else if keyword = "i32.const" then (number? immediate).map (const .i32)
  else if isName immediate then named? keyword immediate
  else none

def ofWords (keyword : String) (immediates : List String) : Option Op :=
  if keyword = "br_table" then
    if immediates ≠ [] ∧ immediates.all isName then some (brTable immediates) else none
  else match immediates with
    | [] => plain? keyword
    | [immediate] => unary? keyword immediate
    | _ => none

/-- Words in front of the first keyword, and each keyword with the words up to the next one. -/
def gather (words : List String) : List String × List (String × List String) :=
  words.foldr (fun word acc =>
    if isKeyword word then ([], (word, acc.1) :: acc.2) else (word :: acc.1, acc.2)) ([], [])

/-- Reads words as instructions. -/
def ofAllWords (words : List String) : Option (List Op) :=
  match gather words with
  | ([], groups) => groups.mapM fun (keyword, immediates) => ofWords keyword immediates
  | _ => none

end Op

/-! ## Modules -/

structure Func where
  name : String
  exported : String
  params : List (String × ValueType)
  results : List ValueType
  locals : List (String × ValueType)
  code : List Op
  deriving DecidableEq, Repr, Inhabited

inductive Field where
  /-- A function from outside, without results. -/
  | imported (name : String) (params : List ValueType)
  /-- A variable of 64 bits that starts at some value. -/
  | global (name : String) (start : Int)
  | exportGlobal (exported name : String)
  | func (f : Func)
  deriving DecidableEq, Repr, Inhabited

/-- The longest front part whose items can all be read, and the rest. -/
def spanMap {α : Type} (f : Expr → Option α) : List Expr → List α × List Expr
  | [] => ([], [])
  | e :: es =>
    match f e with
    | some a => (spanMap f es).map (a :: ·) id
    | none => ([], e :: es)

def type? (text : String) : Option ValueType :=
  if text = "i64" then some .i64 else if text = "i32" then some .i32 else none

def declaration? (kind : String) : Expr → Option (String × ValueType)
  | .list [.word keyword, .word name, .word type] =>
    if keyword = kind ∧ isName name then (type? type).map (name, ·) else none
  | _ => none

/-- A parameter or result without a name. -/
def type1? (kind : String) : Expr → Option ValueType
  | .list [.word keyword, .word type] => if keyword = kind then type? type else none
  | _ => none

namespace Field

/-- A function: its name and export, what it declares, and its code. -/
def func? : List Expr → Option Field
  | .word name :: .list [.word keyword, .quoted exported] :: rest => do
    guard (isName name ∧ keyword = "export")
    let (params, rest) := spanMap (declaration? "param") rest
    let (results, rest) := spanMap (type1? "result") rest
    let (locals, rest) := spanMap (declaration? "local") rest
    let code ← Op.ofAllWords (← rest.mapM Expr.word?)
    return .func { name, exported, params, results, locals, code }
  | _ => none

def global? : List Expr → Option Field
  | [.word name, .list [.word change, .word type], .list [.word const, .word v]] => do
    guard (isName name ∧ change = "mut" ∧ type = "i64" ∧ const = "i64.const")
    return .global name (← number? v)
  | _ => none

def export? : List Expr → Option Field
  | [.quoted exported, .list [.word keyword, .word name]] =>
    if keyword = "global" ∧ isName name then some (.exportGlobal exported name) else none
  | _ => none

def import? : List Expr → Option Field
  | [.quoted _, .quoted _, .list (.word keyword :: .word name :: params)] => do
    guard (keyword = "func" ∧ isName name)
    return .imported name (← params.mapM (type1? "param"))
  | _ => none

def ofExpr : Expr → Option Field
  | .list (.word keyword :: rest) =>
    if keyword = "func" then func? rest
    else if keyword = "global" then global? rest
    else if keyword = "export" then export? rest
    else if keyword = "import" then import? rest
    else none
  | _ => none

end Field

/-- A module is its fields. -/
structure Module where
  fields : List Field
  deriving DecidableEq, Repr, Inhabited

def Module.ofText (text : String) : Option Module := do
  match ← Expr.ofTokens (← tokens text.toList) with
  | [.list (.word keyword :: fields)] =>
    guard (keyword = "module")
    return ⟨← fields.mapM Field.ofExpr⟩
  | _ => none

/-! ## Rules -/

/-- The types of a function's parameters and results. -/
abbrev FuncType := List ValueType × List ValueType

namespace Field

def isImport : Field → Bool
  | imported .. => true
  | _ => false

def globalName? : Field → Option String
  | global name _ => some name
  | _ => none

def funcType? : Field → Option (String × FuncType)
  | imported name params => some (name, params, [])
  | func f => some (f.name, f.params.map Prod.snd, f.results)
  | _ => none

def exportName? : Field → Option String
  | exportGlobal exported _ => some exported
  | func f => some f.exported
  | _ => none

end Field

namespace Module

def globals (m : Module) : List String :=
  m.fields.filterMap Field.globalName?

def funcTypes (m : Module) : List (String × FuncType) :=
  m.fields.filterMap Field.funcType?

def exports (m : Module) : List String :=
  m.fields.filterMap Field.exportName?

end Module

/-- What the code of a function may refer to. -/
structure Context where
  globals : List String
  funcs : List (String × FuncType)
  locals : List (String × ValueType)
  results : List ValueType

/-- The code between an opening instruction and its end: the label of the level, and the operands
that the code in it has left. -/
structure Level where
  label : Option String := none
  stack : StackType := {}
  deriving DecidableEq, Repr, Inhabited

/-- The range of a constant, which may be written signed or unsigned. -/
def inRange : ValueType → Int → Bool
  | .i32, v => -0x80000000 ≤ v && v < 0x100000000
  | .i64, v => -0x8000000000000000 ≤ v && v < 0x10000000000000000

/-- Pops operands, the last one first. -/
def popAll (types : List ValueType) (s : StackType) : Option StackType :=
  types.reverse.foldlM (fun s type => s.pop type) s

/-- Works on the operands of the innermost level. -/
def onTop (f : StackType → Option StackType) : List Level → Option (List Level)
  | top :: outer => (f top.stack).map fun stack => { top with stack } :: outer
  | [] => none

def encloses (levels : List Level) (label : String) : Bool :=
  levels.any (·.label == some label)

/-- The open levels after an instruction, if it is valid there. -/
def Op.check (c : Context) (levels : List Level) : Op → Option (List Level)
  | .const type v => if inRange type v then onTop (fun s => some (s.push type)) levels else none
  | .localGet name => do
    let type ← c.locals.lookup name
    onTop (fun s => some (s.push type)) levels
  | .localSet name => do
    let type ← c.locals.lookup name
    onTop (·.pop type) levels
  | .globalGet name =>
    if c.globals.contains name then onTop (fun s => some (s.push .i64)) levels else none
  | .globalSet name => if c.globals.contains name then onTop (·.pop .i64) levels else none
  | .drop => onTop (·.popAny) levels
  | .numeric op => onTop (fun s => (popAll op.type.1 s).map (·.push op.type.2)) levels
  | .call name => do
    let (params, results) ← c.funcs.lookup name
    onTop (fun s => (popAll params s).map (results.foldl (fun s type => s.push type))) levels
  | .ret => onTop (fun s => (popAll c.results s).map fun _ => .never) levels
  | .br label => if encloses levels label then onTop (fun _ => some .never) levels else none
  | .brTable labels =>
    if labels.all (encloses levels) then onTop (fun s => (s.pop .i32).map fun _ => .never) levels
    else none
  | .block label | .loop label => some ({ label := some label } :: levels)
  | .ifThen => (onTop (·.pop .i32) levels).map ({} :: ·)
  | .finish =>
    match levels with
    | inner :: outer :: others => if inner.stack.isDone then some (outer :: others) else none
    | _ => none

/-- The open levels after a sequence of instructions. -/
def checkAll (c : Context) (levels : List Level) (code : List Op) : Option (List Level) :=
  code.foldlM (fun levels op => op.check c levels) levels

namespace Module

/-- What the code of a function of the module may refer to. -/
def contextOf (m : Module) (f : Func) : Context where
  globals := m.globals
  funcs := m.funcTypes
  locals := f.params ++ f.locals
  results := f.results

/-- Whether the code of a function closes all its levels and leaves just the results. -/
def codeIsValid (m : Module) (f : Func) : Bool :=
  match checkAll (m.contextOf f) [{}] f.code with
  | some [level] => (popAll f.results level.stack).any StackType.isDone
  | _ => false

def fieldIsValid (m : Module) : Field → Bool
  | .imported .. => true
  | .global _ start => inRange .i64 start
  | .exportGlobal _ name => m.globals.contains name
  | .func f => decide ((f.params ++ f.locals).map Prod.fst).Nodup && m.codeIsValid f

/-- Whether a module obeys the rules. -/
def isValid (m : Module) : Bool :=
  (m.fields.dropWhile Field.isImport).all (!·.isImport) && decide m.globals.Nodup &&
    decide (m.funcTypes.map Prod.fst).Nodup && decide m.exports.Nodup && m.fields.all m.fieldIsValid

end Module

end SlotLang.Assembly.Wat
