import SlotLang.Machine.Fault
import SlotLang.Program
import SlotLang.SlotMap

/-!
# What outlives a run

An environment keeps the globals that have been written and the functions that have been defined. A
function is kept with its code laid out for running. The calls in progress are on a stack of the
environment, which is empty whenever no run is in progress.
-/

namespace SlotLang

/-- Code laid out for running: instructions by position, and the positions of the labels. -/
structure Routine where
  code : Array Instruction := #[]
  labels : List (UInt32 × Nat) := []
  deriving DecidableEq, Repr, Inhabited

def Routine.ofCode (code : List Instruction) : Routine where
  code := code.toArray
  labels := labelTable code

/-- A function with its body laid out. -/
structure Callable where
  func : Func
  routine : Routine
  routine_eq : routine = Routine.ofCode func.body

instance : Inhabited Callable :=
  ⟨default, _, rfl⟩

def Callable.ofFunc (f : Func) : Callable :=
  ⟨f, Routine.ofCode f.body, rfl⟩

/-- How an activation came to be, and so what its end means. -/
inductive Entry where
  /-- Module code. -/
  | ofModule
  /-- A call from outside the program. -/
  | ofHost
  /-- A call instruction: where the result goes, and the line of the call. -/
  | ofCall (result : Operand) (line : Nat)
  deriving DecidableEq, Repr, Inhabited

/-- Running code with its slots. -/
structure Activation where
  routine : Routine := {}
  locals : Array Value := #[]
  args : Array Value := #[]
  pc : Nat := 0
  entry : Entry := .ofModule
  deriving DecidableEq, Repr, Inhabited

/-- The globals and functions of a session. -/
structure Environment where
  globals : SlotMap Value := .empty
  funcs : SlotMap Callable := .empty
  /-- The calls in progress, the latest one first. -/
  frames : List Activation := []
  deriving Inhabited

namespace Environment

def global? (e : Environment) (index : UInt32) : Option Value :=
  e.globals.get? index

def setGlobal (e : Environment) (index : UInt32) (v : Value) : Environment :=
  { e with globals := e.globals.insert index v }

def func? (e : Environment) (index : UInt32) : Option Func :=
  (e.funcs.get? index).map Callable.func

def define (e : Environment) (f : Func) : Environment :=
  { e with funcs := e.funcs.insert f.index (.ofFunc f) }

def defineAll (e : Environment) (fs : List Func) : Environment :=
  fs.foldl define e

def funcCount (e : Environment) : Nat :=
  e.funcs.size

def callDepth (e : Environment) : Nat :=
  e.frames.length

/-- Drops the calls that a run has left. -/
def clear (e : Environment) : Environment :=
  { e with frames := [] }

end Environment

end SlotLang
