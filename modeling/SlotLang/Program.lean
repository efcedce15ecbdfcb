import SlotLang.Instruction
import SlotLang.Text.Lines

/-!
# Programs

A program is a table of functions and the module code. `Program.text` writes it as source, functions
first. Programs are plain data: the builder makes well-formed ones, but every operation on programs
is defined for all of them.
-/

namespace SlotLang

def maxCallFrames : Nat := 1024

structure Func where
  index : UInt32
  paramCount : UInt32
  /-- How many local slots a frame of the function has. -/
  localCount : UInt32
  body : List Instruction
  /-- The line of the opener. -/
  line : Nat
  deriving DecidableEq, Repr, Inhabited

/-- The functions and the module code of one source unit. -/
structure Program where
  code : List Instruction := []
  funcs : List Func := []
  /-- One more than the highest global slot in use. -/
  globalCount : UInt32 := 0
  deriving DecidableEq, Repr, Inhabited

def hasControl (code : List Instruction) : Bool :=
  code.any Instruction.isControl

def Instruction.definedLabel? (i : Instruction) : Option UInt32 :=
  if i.isLabel then i.label? else none

/-- The label definitions of some code with their positions, in order. -/
def labelTable (code : List Instruction) : List (UInt32 × Nat) :=
  code.zipIdx.filterMap fun (i, position) => i.definedLabel?.map (·, position)

/-- The position of a label's first definition. -/
def labelPosition? (code : List Instruction) (label : UInt32) : Option Nat :=
  (labelTable code).lookup label

/-- The slots that instructions use, one more than the highest number that `pick` selects. Numbers
are 32 bits wide and wrap. -/
def slotCount (pick : Operand → Option UInt32) (code : List Instruction) : UInt32 :=
  let picked := (code.flatMap Instruction.operands).filterMap pick
  (picked.map (· + 1)).foldl max 0

def Operand.globalIndex? : Operand → Option UInt32
  | .global n => some n
  | _ => none

def Operand.varIndex? : Operand → Option UInt32
  | .var n => some n
  | _ => none

namespace Func

def hasControl (f : Func) : Bool :=
  SlotLang.hasControl f.body

def text (f : Func) : String :=
  "# " ++ toString f.index.toNat ++ " " ++ toString f.paramCount.toNat ++ " \x7b\n" ++
    Text.unlines (f.body.map Instruction.text) ++ "\x7d\n"

end Func

namespace Program

/-- The first function with an index. -/
def func? (p : Program) (index : UInt32) : Option Func :=
  p.funcs.find? fun f => f.index == index

/-- Every instruction: function bodies first, then the module code. -/
def allCode (p : Program) : List Instruction :=
  p.funcs.flatMap Func.body ++ p.code

def text (p : Program) : String :=
  String.join (p.funcs.map Func.text) ++ Text.unlines (p.code.map Instruction.text)

end Program

end SlotLang
