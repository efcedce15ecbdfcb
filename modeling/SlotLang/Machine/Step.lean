import SlotLang.Machine.Environment

/-!
# The frame machine

A machine runs a stack of activations, the one on top first. A round looks at the current
instruction and works out its effect (`Machine.effect`), which only reads; then the effect is carried
out (`Machine.perform`), which cannot fail. So a round that fails leaves the machine as it was.

Module code runs as the lowest activation, without locals or arguments; a call from outside runs
with the called function lowest. Either way the height of the stack is the call depth.
-/

namespace SlotLang

/-- Limits on a run. A 64-bit count of steps passes a limit below `2 ^ 64 - 1` exactly when the gas is
used up. It never passes `2 ^ 64 - 1`, but so much gas is used up as well. -/
structure Limits where
  maxDepth : Nat := maxCallFrames
  gas : Nat := 10000000
  deriving DecidableEq, Repr, Inhabited

namespace Activation

def current? (a : Activation) : Option Instruction :=
  a.routine.code[a.pc]?

def ofModule (code : List Instruction) : Activation :=
  { routine := Routine.ofCode code }

/-- A function with zeroed locals and its arguments. -/
def ofCall (c : Callable) (args : List Value) (entry : Entry) : Activation where
  routine := c.routine
  locals := Array.replicate c.func.localCount.toNat 0
  args := args.toArray
  entry := entry

def canWrite (a : Activation) : Operand → Bool
  | .global _ => true
  | .var n => n.toNat < a.locals.size
  | .arg n => n.toNat < a.args.size
  | .lit _ => false

def write (a : Activation) (slot : Operand) (v : Value) : Activation :=
  match slot with
  | .var n => { a with locals := a.locals.setIfInBounds n.toNat v }
  | .arg n => { a with args := a.args.setIfInBounds n.toNat v }
  | _ => a

end Activation

/-- A run in progress. -/
structure Machine where
  env : Environment
  top : Activation
  /-- The activations that wait for a result, the nearest caller first. -/
  below : List Activation := []
  outputs : Array Value := #[]
  /-- How many more instructions may run. -/
  gas : Nat
  deriving Inhabited

/-- What an instruction amounts to once its operands have been read. -/
inductive Effect where
  /-- Go on. -/
  | advance
  | write (slot : Operand) (v : Value)
  | output (v : Value)
  | jump (pc : Nat)
  | enter (c : Callable) (args : List Value) (entry : Entry)
  | leave (v : Value)

/-- Where a run stands after a round. -/
inductive Status where
  | running (m : Machine)
  /-- The run is over; a call has a value, module code has none. -/
  | finished (v : Option Value) (m : Machine)
  | failed (f : Fault) (m : Machine)

namespace Machine

def depth (m : Machine) : Nat :=
  m.below.length + 1

/-- All activations, the top one first. -/
def stack (m : Machine) : List Activation :=
  m.top :: m.below

/-- The calls in progress, the latest one first. -/
def calls (m : Machine) : List Activation :=
  m.stack.filter (·.entry ≠ .ofModule)

def read (m : Machine) (o : Operand) : Except Cause Value :=
  match o with
  | .lit v => .ok v
  | .global n => (m.env.global? n).elim (.error (.undefinedGlobal n)) .ok
  | .var n => (m.top.locals[n.toNat]?).elim (.error (.slotOutOfScope o)) .ok
  | .arg n => (m.top.args[n.toNat]?).elim (.error (.slotOutOfScope o)) .ok

/-- Operand number `n` of an instruction, which is malformed without it. -/
def operand (i : Instruction) (n : Nat) : Except Cause Operand :=
  (i.operand? n).elim (.error (.malformed i.opcode)) .ok

def readOperand (m : Machine) (i : Instruction) (n : Nat) : Except Cause Value := do
  m.read (← operand i n)

/-- Writing a value to the first operand of an instruction. -/
def storing (m : Machine) (i : Instruction) (v : Value) : Except Cause Effect := do
  let slot ← operand i 0
  if m.top.canWrite slot then return .write slot v else throw (.slotOutOfScope slot)

def jumping (m : Machine) (i : Instruction) : Except Cause Effect :=
  match i.label? with
  | none => .error (.malformed i.opcode)
  | some label => (m.top.routine.labels.lookup label).elim (.error (.undefinedLabel label)) fun pc =>
      .ok (.jump pc)

/-- The function to enter from a depth of `depth` with so many arguments. -/
def callee (limits : Limits) (env : Environment) (depth : Nat) (index : UInt32) (found : Nat) :
    Except Cause Callable :=
  match env.funcs.get? index with
  | none => .error (.undefinedFunc index)
  | some c =>
    if found ≠ c.func.paramCount.toNat then .error (.argumentCount index c.func.paramCount found)
    else if limits.maxDepth ≤ depth then .error (.depthExceeded limits.maxDepth)
    else .ok c

def calling (limits : Limits) (m : Machine) (i : Instruction) : Except Cause Effect := do
  let result ← operand i 0
  match i.callTarget? with
  | none => throw (.malformed i.opcode)
  | some (index, operands) =>
    let args ← operands.mapM m.read
    let c ← callee limits m.env m.depth index args.length
    return .enter c args (.ofCall result i.line)

/-- Leaving the top activation with a value. The caller must be able to store it, else the call is
at fault. -/
def leaving (m : Machine) (v : Value) : Except Fault Effect :=
  match m.top.entry, m.below with
  | .ofCall slot line, caller :: _ =>
    if caller.canWrite slot then .ok (.leave v) else .error ⟨.slotOutOfScope slot, line⟩
  | _, _ => .ok (.leave v)

def atLine {α : Type} (i : Instruction) : Except Cause α → Except Fault α
  | .ok a => .ok a
  | .error c => .error ⟨c, i.line⟩

def returning (m : Machine) (i : Instruction) : Except Fault Effect :=
  if m.top.entry = .ofModule then .error ⟨.returnOutside, i.line⟩
  else do m.leaving (← atLine i (m.readOperand i 0))

def effect (limits : Limits) (m : Machine) (i : Instruction) : Except Fault Effect :=
  match i.opcode with
  | .assign => atLine i do m.storing i (← m.readOperand i 1)
  | .binary op => atLine i do
    let a ← m.readOperand i 1
    let b ← m.readOperand i 2
    m.storing i (← op.apply a b)
  | .not => atLine i do
    let a ← m.readOperand i 1
    m.storing i (.ofBool (a = 0))
  | .label | .defineFunc | .blockClose => .ok .advance
  | .jump => atLine i (m.jumping i)
  | .jumpIf => atLine i do
    if (← m.readOperand i 0) ≠ 0 then m.jumping i else return .advance
  | .call => atLine i (m.calling limits i)
  | .ret => m.returning i
  | .output => atLine i do return .output (← m.readOperand i 0)

def write (m : Machine) (slot : Operand) (v : Value) : Machine :=
  match slot with
  | .global n => { m with env := m.env.setGlobal n v }
  | slot => { m with top := m.top.write slot v }

def goto (m : Machine) (pc : Nat) : Machine :=
  { m with top := { m.top with pc } }

def next (m : Machine) : Machine :=
  m.goto (m.top.pc + 1)

def leave (m : Machine) (v : Value) : Status :=
  match m.top.entry, m.below with
  | .ofCall slot _, caller :: rest =>
    .running (({ m with top := caller, below := rest } : Machine).write slot v)
  | _, _ => .finished (some v) m

def perform (m : Machine) : Effect → Status
  | .advance => .running m.next
  | .write slot v => .running (m.next.write slot v)
  | .output v => .running { m.next with outputs := m.outputs.push v }
  | .jump pc => .running (m.goto pc)
  | .enter c args entry =>
    let caller := m.next
    .running { caller with top := .ofCall c args entry, below := caller.top :: caller.below }
  | .leave v => m.leave v

/-- The end of the code: module code is over, and a function leaves with zero. -/
def fallOff (m : Machine) : Status :=
  if m.top.entry = .ofModule then .finished none m
  else match m.leaving 0 with
    | .ok e => m.perform e
    | .error f => .failed f m

/-- One round: the current instruction, paid for with one unit of gas, or the end of the code. -/
def round (limits : Limits) (m : Machine) : Status :=
  match m.top.current? with
  | none => m.fallOff
  | some i =>
    match m.gas with
    | 0 => .failed ⟨.gasExhausted limits.gas, i.line⟩ m
    | gas + 1 =>
      match m.effect limits i with
      | .error f => .failed f m
      | .ok e => ({ m with gas } : Machine).perform e

end Machine

end SlotLang
