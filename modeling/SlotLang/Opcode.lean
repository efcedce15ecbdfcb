/-!
# Opcodes

The twenty opcodes, the one-character sigil of each, and the kind of operand that each position
takes. `Opcode.all` fixes the order in which tables list them.
-/

namespace SlotLang

/-- What an operand position accepts. -/
inductive OperandKind where
  /-- A slot that can be written. -/
  | dest
  /-- A slot or an integer. -/
  | value
  /-- A non-negative integer that names a jump target. -/
  | label
  /-- A non-negative integer that names a function. -/
  | funcIndex
  /-- A non-negative integer that counts parameters. -/
  | count
  /-- The brace that opens a function body. -/
  | blockOpen
  deriving DecidableEq, Repr, Inhabited

/-- What an instruction computes from two values. -/
inductive BinaryOp where
  | add
  | sub
  | mul
  | div
  | rem
  | lt
  | gt
  | eq
  | and
  | or
  deriving DecidableEq, Repr, Inhabited

/-- What an instruction line does. -/
inductive Opcode where
  | assign
  | binary (op : BinaryOp)
  | not
  | label
  | jump
  | jumpIf
  | defineFunc
  | blockClose
  | call
  | ret
  | output
  deriving DecidableEq, Repr, Inhabited

def BinaryOp.sigilChar : BinaryOp → Char
  | add => '+'
  | sub => '-'
  | mul => '*'
  | div => '/'
  | rem => '%'
  | lt => '<'
  | gt => '>'
  | eq => '~'
  | and => '&'
  | or => '|'

def BinaryOp.name : BinaryOp → String
  | add => "add"
  | sub => "sub"
  | mul => "mul"
  | div => "div"
  | rem => "rem"
  | lt => "lt"
  | gt => "gt"
  | eq => "eq"
  | and => "and"
  | or => "or"

namespace Opcode

/-- Every opcode, in table order. -/
def all : List Opcode :=
  [.assign, .binary .add, .binary .sub, .binary .mul, .binary .div, .binary .rem, .binary .lt,
    .binary .gt, .binary .eq, .not, .binary .and, .binary .or, .label, .jump, .jumpIf, .defineFunc,
    .blockClose, .call, .ret, .output]

def sigilChar : Opcode → Char
  | assign => '='
  | binary op => op.sigilChar
  | not => '!'
  | label => ':'
  | jump => '@'
  | jumpIf => '?'
  | defineFunc => '#'
  | blockClose => '\x7d'
  | call => '$'
  | ret => '^'
  | output => '.'

def sigil (op : Opcode) : String :=
  String.singleton op.sigilChar

def ofWord? : List Char → Option Opcode
  | [c] => all.find? fun op => op.sigilChar == c
  | _ => none

def name : Opcode → String
  | assign => "assign"
  | binary op => op.name
  | not => "not"
  | label => "label"
  | jump => "jump"
  | jumpIf => "jump_if"
  | defineFunc => "define_func"
  | blockClose => "block_close"
  | call => "call"
  | ret => "return"
  | output => "output"

/-- The kinds of the operands that must be present, in order. A call may have more values after
them. -/
def signature : Opcode → List OperandKind
  | assign | not => [.dest, .value]
  | binary _ => [.dest, .value, .value]
  | label | jump => [.label]
  | jumpIf => [.value, .label]
  | defineFunc => [.funcIndex, .count, .blockOpen]
  | blockClose => []
  | call => [.dest, .funcIndex]
  | ret | output => [.value]

/-- Only a call takes operands beyond its signature. -/
def isVariadic (op : Opcode) : Bool :=
  op == .call

def arityText (op : Opcode) : String :=
  let n := toString op.signature.length
  if op.isVariadic then "at least " ++ n else n

def takesCount (op : Opcode) (n : Nat) : Bool :=
  if op.isVariadic then op.signature.length ≤ n else n == op.signature.length

end Opcode

end SlotLang
