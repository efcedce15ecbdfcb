import SlotLang.Instruction

/-!
# Faults of a run

A run that fails stops at an instruction with a cause. The wording is in `Fault.message` alone.
-/

namespace SlotLang

/-- Why a run stopped. -/
inductive Cause where
  | undefinedGlobal (index : UInt32)
  | slotOutOfScope (slot : Operand)
  | undefinedFunc (index : UInt32)
  | argumentCount (index expected : UInt32) (found : Nat)
  | divisionByZero
  | divisionOverflow
  | undefinedLabel (label : UInt32)
  | returnOutside
  | depthExceeded (limit : Nat)
  | gasExhausted (limit : Nat)
  | malformed (op : Opcode)
  deriving DecidableEq, Repr, Inhabited

/-- A cause and the line it arose on. -/
structure Fault where
  cause : Cause
  line : Nat
  deriving DecidableEq, Repr, Inhabited

def Cause.message : Cause → String
  | undefinedGlobal index => "read of undefined global g" ++ toString index.toNat
  | slotOutOfScope slot => "slot " ++ slot.text ++ " is not available in this scope"
  | undefinedFunc index => "call to undefined function " ++ toString index.toNat
  | argumentCount index expected found =>
    "function " ++ toString index.toNat ++ " expects " ++ toString expected.toNat ++
      " argument(s), got " ++ toString found
  | divisionByZero => "division by zero"
  | divisionOverflow => "division overflow"
  | undefinedLabel label => "jump to undefined label " ++ toString label.toNat
  | returnOutside => "'^' outside a function"
  | depthExceeded limit => "maximum call depth of " ++ toString limit ++ " exceeded"
  | gasExhausted limit => "step limit of " ++ toString limit ++ " exhausted"
  | malformed op => "malformed '" ++ op.sigil ++ "' instruction"

def Fault.message (f : Fault) : String :=
  "line " ++ toString f.line ++ ": " ++ f.cause.message

/-- The operation on two values. Sums, differences and products wrap; the remainder of the least
value by `-1` is zero, while that quotient overflows. -/
def BinaryOp.apply (op : BinaryOp) (a b : Value) : Except Cause Value :=
  match op with
  | add => .ok (a + b)
  | sub => .ok (a - b)
  | mul => .ok (a * b)
  | div =>
    if b = 0 then .error .divisionByZero
    else if a = Int64.minValue ∧ b = -1 then .error .divisionOverflow
    else .ok (a / b)
  | rem => if b = 0 then .error .divisionByZero else .ok (a % b)
  | lt => .ok (.ofBool (a < b))
  | gt => .ok (.ofBool (a > b))
  | eq => .ok (.ofBool (a = b))
  | and => .ok (.ofBool (a ≠ 0 ∧ b ≠ 0))
  | or => .ok (.ofBool (a ≠ 0 ∨ b ≠ 0))

end SlotLang
