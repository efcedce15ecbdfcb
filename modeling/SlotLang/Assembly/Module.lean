import SlotLang.Text.Numeral

/-!
# WebAssembly modules

The fragment of WebAssembly that programs need: 64-bit globals and functions, one 32-bit register per
body that steers a dispatch loop, and an imported function that prints. Code is a tree of structured
instructions, and everything is referred to by name.
-/

namespace SlotLang.Assembly

/-- A local of a function. -/
inductive Register where
  | var (n : UInt32)
  | arg (n : UInt32)
  /-- The 32-bit register that selects a segment. -/
  | pc
  deriving DecidableEq, Repr, Inhabited

/-- The name of a branch target. -/
inductive Mark where
  | dispatch
  | segment (k : Nat)
  deriving DecidableEq, Repr, Inhabited

inductive Arith where
  | add
  | sub
  | mul
  | div
  | rem
  deriving DecidableEq, Repr, Inhabited

inductive Comparison where
  | lt
  | gt
  | eq
  | ne
  deriving DecidableEq, Repr, Inhabited

/-- Structured instructions. -/
inductive Instr where
  | const (v : Value)
  | index (k : Nat)
  | get (r : Register)
  | set (r : Register)
  | globalGet (n : UInt32)
  | globalSet (n : UInt32)
  | drop
  | arith (op : Arith)
  | compare (op : Comparison)
  /-- Compares a 64-bit integer with zero. -/
  | isZero
  /-- Extends 32 bits to 64. -/
  | widen
  | both
  | either
  | call (f : UInt32)
  | print
  | ret
  | br (m : Mark)
  | brTable (ms : List Mark) (otherwise : Mark)
  | block (m : Mark) (body : List Instr)
  | loop (m : Mark) (body : List Instr)
  | ifThen (body : List Instr)
  /-- A comment that names a label of the program. -/
  | note (label : UInt32)
  deriving Inhabited

/-- An exported function with 64-bit parameters and a 64-bit result. -/
structure FuncDef where
  index : UInt32
  paramCount : UInt32
  localCount : UInt32
  /-- Whether there is a register for the dispatch loop. -/
  hasPc : Bool
  body : List Instr
  deriving Inhabited

/-- The exported entry point, without parameters or result. -/
structure MainDef where
  hasPc : Bool
  body : List Instr
  deriving Inhabited

/-- A module. Globals start at zero; they and the functions are exported under their names. -/
structure Module where
  globalCount : UInt32 := 0
  funcs : List FuncDef := []
  entry : Option MainDef := none
  deriving Inhabited

/-- The first function with an index. -/
def Module.func? (m : Module) (index : UInt32) : Option FuncDef :=
  m.funcs.find? fun f => f.index == index

def funcExport (index : UInt32) : String :=
  "f" ++ toString index.toNat

def globalExport (index : UInt32) : String :=
  "g" ++ toString index.toNat

def mainExport : String :=
  "main"

end SlotLang.Assembly
