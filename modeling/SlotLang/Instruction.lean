import SlotLang.Opcode
import SlotLang.Text.Numeral

/-!
# Operands and instructions

An instruction is an opcode with its operands and the line it stands on. Nothing forces the operands
to fit the opcode's signature: the accessors below answer `none` where an instruction is too short
or an operand is of the wrong sort, and `Instruction.isWellFormed` says when it is long enough.
-/

namespace SlotLang

/-- A slot or an integer. -/
inductive Operand where
  /-- A global slot, shared by all code. -/
  | global (n : UInt32)
  /-- A local slot of the running function. -/
  | var (n : UInt32)
  /-- An argument of the running function. -/
  | arg (n : UInt32)
  /-- An integer. -/
  | lit (v : Value)
  deriving DecidableEq, Repr, Inhabited

namespace Operand

def literal? : Operand → Option Value
  | lit v => some v
  | _ => none

def text : Operand → String
  | global n => "g" ++ toString n.toNat
  | var n => "v" ++ toString n.toNat
  | arg n => "a" ++ toString n.toNat
  | lit v => v.text

def ofIndex (n : UInt32) : Operand :=
  lit (Value.ofIndex n)

end Operand

/-- One instruction and the 1-based line it stands on. -/
structure Instruction where
  opcode : Opcode
  operands : List Operand
  line : Nat
  deriving DecidableEq, Repr, Inhabited

namespace Instruction

/-- Operand number `n`, counted from zero. -/
def operand? (i : Instruction) (n : Nat) : Option Operand :=
  i.operands[n]?

/-- The slot that receives the instruction's result, for opcodes that have one. -/
def dest? (i : Instruction) : Option Operand :=
  match i.opcode with
  | .assign | .binary _ | .not | .call => i.operands.head?
  | _ => none

/-- The label an instruction defines or jumps to: the low 32 bits of an integer operand. -/
def label? (i : Instruction) : Option UInt32 :=
  match i.opcode with
  | .label | .jump => (i.operand? 0).bind Operand.literal? |>.map Value.low
  | .jumpIf => (i.operand? 1).bind Operand.literal? |>.map Value.low
  | _ => none

def callTarget? (i : Instruction) : Option (UInt32 × List Operand) :=
  match i.opcode with
  | .call => (i.operand? 1).bind Operand.literal? |>.map fun v => (v.low, i.operands.drop 2)
  | _ => none

/-- There are at least as many operands as the signature lists. The two block opcodes never stand in
a program and are not judged by their operands. -/
def isWellFormed (i : Instruction) : Bool :=
  match i.opcode with
  | .defineFunc | .blockClose => true
  | op => op.signature.length ≤ i.operands.length

def text (i : Instruction) : String :=
  i.operands.foldl (fun s o => s ++ " " ++ o.text) i.opcode.sigil

def isLabel (i : Instruction) : Bool :=
  i.opcode == .label

def isControl (i : Instruction) : Bool :=
  i.opcode == .label || i.opcode == .jump || i.opcode == .jumpIf

end Instruction

end SlotLang
