import SlotLang.Source

/-!
# The form of a line

`LineForm.ofTokens` judges one line on its own: its first word must be a sigil, and the words after
it must be as many as the opcode takes, each of the kind its position asks for. The first fault from
left to right is reported; a missing brace and a wrong count come before any fault in an operand.
-/

namespace SlotLang

/-- What is wrong with a line. -/
inductive LineFault where
  | unknownOpcode (word : String)
  | wrongCount (op : Opcode) (got : Nat)
  | invalidOperand (word : String) (op : Opcode) (expected : OperandKind)
  | outOfRange (word : String)
  | missingBrace
  deriving DecidableEq, Repr, Inhabited

def OperandKind.expectation : OperandKind → String
  | .blockOpen => "'\x7b'"
  | .dest => "a slot (g/v/a)"
  | .value => "a slot (g/v/a) or an integer"
  | .label | .funcIndex | .count => "a non-negative integer"

namespace LineFault

def code : LineFault → Nat
  | unknownOpcode _ => 100
  | wrongCount .. => 101
  | invalidOperand .. => 102
  | outOfRange _ => 103
  | missingBrace => 104

def message : LineFault → String
  | unknownOpcode word => "Unknown opcode '" ++ word ++ "'"
  | wrongCount op got =>
    "Opcode '" ++ op.sigil ++ "' expects " ++ op.arityText ++ " operand(s), got " ++ toString got
  | invalidOperand word op expected =>
    "Invalid operand '" ++ word ++ "' for '" ++ op.sigil ++ "': expected " ++ expected.expectation
  | outOfRange word => "Integer '" ++ word ++ "' is out of range"
  | missingBrace => "Function definition must end with '\x7b'"

end LineFault

/-- A fault and the span it is reported under. -/
structure LineError where
  fault : LineFault
  span : Span
  deriving DecidableEq, Repr, Inhabited

/-- A well-formed line. -/
inductive LineForm where
  /-- A blank line or a comment. -/
  | empty
  /-- The opener of a function. -/
  | opener (index paramCount : UInt32)
  /-- The end of a function. -/
  | closer
  | instruction (i : Instruction)
  deriving DecidableEq, Repr, Inhabited

namespace LineForm

def isIndex (v : Value) : Bool :=
  0 ≤ v.toInt && v.toInt < 0x100000000

/-- The operand of a token in a position of some kind, if the token fits. A brace is no operand, so
it yields an empty list. -/
def accept? (expected : OperandKind) (kind : TokenKind) : Option (List Operand) :=
  match expected, kind with
  | .blockOpen, .blockOpen => some []
  | .dest, .slot o => some [o]
  | .value, kind => kind.operand?.map ([·])
  | .label, .integer v | .funcIndex, .integer v | .count, .integer v =>
    if isIndex v then some [.lit v] else none
  | _, _ => none

def checkOperand (op : Opcode) (expected : OperandKind) (t : Token) :
    Except LineError (List Operand) :=
  if t.kind = .outOfRange then .error ⟨.outOfRange t.text, t.span⟩
  else match accept? expected t.kind with
    | some os => .ok os
    | none => .error ⟨.invalidOperand t.text op expected, t.span⟩

/-- Checks the operands from left to right; positions beyond the signature take values. -/
def checkOperands (op : Opcode) : List OperandKind → List Token → Except LineError (List Operand)
  | _, [] => .ok []
  | expected, t :: ts => do
    let os ← checkOperand op (expected.headD .value) t
    let rest ← checkOperands op expected.tail ts
    return os ++ rest

def indexAt (os : List Operand) (n : Nat) : UInt32 :=
  (os[n]?.bind Operand.literal?).elim 0 Value.low

def ofOperands (line : Nat) (op : Opcode) (os : List Operand) : LineForm :=
  match op with
  | .defineFunc => opener (indexAt os 0) (indexAt os 1)
  | .blockClose => closer
  | op => instruction ⟨op, os, line⟩

def ofOpcode (line : Nat) (op : Opcode) (head : Span) (operands : List Token) :
    Except LineError LineForm := do
  if op = .defineFunc ∧ operands.getLast?.map Token.kind ≠ some .blockOpen then
    throw ⟨.missingBrace, head⟩
  if op.takesCount operands.length = false then
    throw ⟨.wrongCount op operands.length, head⟩
  return ofOperands line op (← checkOperands op op.signature operands)

/-- The form of a tokenised line, or its first fault. -/
def ofTokens (line : Nat) : List Token → Except LineError LineForm
  | [] => .ok empty
  | head :: operands =>
    match head.kind with
    | .opcode op => ofOpcode line op head.span operands
    | _ => .error ⟨.unknownOpcode head.text, head.span⟩

/-- The form of a line of text, or its first fault. -/
def ofText (line : Nat) (text : String) : Except LineError LineForm :=
  ofTokens line (Token.ofLine line text)

end LineForm

/-- The first fault of each malformed line, with its line number. Line feeds end lines here, so a
final one opens no further line. -/
def lineErrors (text : String) : List (Nat × LineError) :=
  (((Text.terminatedLines text.toList).map String.ofList).zipIdx 1).filterMap fun (line, number) =>
    match LineForm.ofText number line with
    | .ok _ => none
    | .error e => some (number, e)

end SlotLang
