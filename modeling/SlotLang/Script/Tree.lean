import SlotLang.Instruction

/-!
# Python scripts

The statements that a program needs when it is written as a Python script. Slots are variables named
like the slots, functions are named by their index, and the variable `_pc` steers code with labels.
-/

namespace SlotLang.Script

/-- What is assigned to a slot. -/
inductive Term where
  | operand (o : Operand)
  /-- A sum, difference or product, reduced to 64 bits. -/
  | wrapped (sign : Char) (a b : Operand)
  /-- The truncating quotient. -/
  | quotient (a b : Operand)
  /-- The remainder of the truncating quotient. -/
  | remainder (a b : Operand)
  | comparison (sign : String) (a b : Operand)
  /-- Whether both operands are not zero. -/
  | both (a b : Operand)
  /-- Whether one of the operands is not zero. -/
  | either (a b : Operand)
  | negation (a : Operand)
  | call (f : UInt32) (args : List Operand)
  deriving DecidableEq, Repr, Inhabited

inductive Stmt where
  | assign (dest : Operand) (t : Term)
  | print (o : Operand)
  | ret (o : Operand)
  | raise (message : String)
  /-- A comment that names a label. -/
  | note (label : UInt32)
  | whenNonzero (o : Operand) (body : List Stmt)
  | setPc (k : Nat)
  /-- Starts the next round of the loop. -/
  | again
  /-- Ends the loop. -/
  | leave
  | whenPc (k : Nat) (body : List Stmt)
  | forever (body : List Stmt)
  deriving Inhabited

/-- A function. -/
structure Def where
  index : UInt32
  paramCount : UInt32
  /-- The globals that the body assigns. -/
  globals : List UInt32
  localCount : UInt32
  body : List Stmt
  deriving Inhabited

end SlotLang.Script

namespace SlotLang

structure Script where
  defs : List Script.Def := []
  body : List Script.Stmt := []
  /-- Whether there is module code, even if none of it needs a statement. -/
  hasBody : Bool := false
  deriving Inhabited

end SlotLang
