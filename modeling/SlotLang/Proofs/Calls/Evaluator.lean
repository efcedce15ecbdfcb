import SlotLang.Machine.Run

/-!
# The recursive evaluator

A second meaning of programs, without a stack: evaluating a body that calls a function evaluates the
function's body by recursion and goes on with the value it gives. Each evaluation owns its frame, so
a callee has no way to touch the slots of its callers. Gas is threaded through the recursion and pays
for it: every instruction costs one unit, and an evaluation gives back no more than it was given.
-/

namespace SlotLang.Evaluator

/-- The slots of a body that is being evaluated. -/
structure Frame where
  locals : List Value := []
  args : List Value := []
  deriving DecidableEq, Repr, Inhabited

/-- Zeroed locals and the arguments of a call. -/
def Frame.ofCall (f : Func) (args : List Value) : Frame :=
  ⟨List.replicate f.localCount.toNat 0, args⟩

/-- The code under evaluation and how deeply the calls around it are nested. -/
structure Site where
  code : List Instruction
  inFunc : Bool
  depth : Nat

/-- What evaluations pass on to each other. -/
structure Store where
  env : Environment
  outputs : List Value := []
  gas : Nat

/-- How an evaluation ended and what it passes on. -/
structure Outcome (gas : Nat) where
  result : Except Fault Value
  store : Store
  gas_le : store.gas ≤ gas

/-- What an instruction asks for once its operands have been read. -/
inductive Move where
  | next
  | store (dest : Operand) (v : Value)
  | print (v : Value)
  | jump (pc : Nat)
  | call (dest : Operand) (index : UInt32) (args : List Value)
  | ret (v : Value)

namespace Frame

def read (frame : Frame) (env : Environment) (o : Operand) : Except Cause Value :=
  match o with
  | .lit v => .ok v
  | .global n => (env.global? n).elim (.error (.undefinedGlobal n)) .ok
  | .var n => (frame.locals[n.toNat]?).elim (.error (.slotOutOfScope o)) .ok
  | .arg n => (frame.args[n.toNat]?).elim (.error (.slotOutOfScope o)) .ok

/-- The frame and the environment after a slot has been written, if there is such a slot. -/
def write? (frame : Frame) (env : Environment) (dest : Operand) (v : Value) :
    Option (Frame × Environment) :=
  match dest with
  | .global n => some (frame, env.setGlobal n v)
  | .var n =>
    if n.toNat < frame.locals.length then
      some ({ frame with locals := frame.locals.set n.toNat v }, env)
    else none
  | .arg n =>
    if n.toNat < frame.args.length then
      some ({ frame with args := frame.args.set n.toNat v }, env)
    else none
  | .lit _ => none

end Frame

def jumpOf (site : Site) (i : Instruction) : Except Cause Move := do
  let label ← i.label?.elim (.error (.malformed i.opcode)) .ok
  let pc ← (labelPosition? site.code label).elim (.error (.undefinedLabel label)) .ok
  return .jump pc

def callOf (frame : Frame) (env : Environment) (i : Instruction) : Except Cause Move := do
  let dest ← Machine.operand i 0
  let target ← i.callTarget?.elim (.error (.malformed i.opcode)) .ok
  let args ← target.2.mapM (frame.read env)
  return .call dest target.1 args

/-- Reads the operands of an instruction. -/
def moveOf (site : Site) (frame : Frame) (env : Environment) (i : Instruction) :
    Except Cause Move := do
  let operand := Machine.operand i
  match i.opcode with
  | .assign =>
    let v ← frame.read env (← operand 1)
    return .store (← operand 0) v
  | .binary op =>
    let a ← frame.read env (← operand 1)
    let b ← frame.read env (← operand 2)
    let v ← op.apply a b
    return .store (← operand 0) v
  | .not =>
    let a ← frame.read env (← operand 1)
    return .store (← operand 0) (.ofBool (a = 0))
  | .label | .defineFunc | .blockClose => return .next
  | .jump => jumpOf site i
  | .jumpIf =>
    let c ← frame.read env (← operand 0)
    if c = 0 then return .next else jumpOf site i
  | .call => callOf frame env i
  | .ret =>
    if site.inFunc then return .ret (← frame.read env (← operand 0)) else throw .returnOutside
  | .output => return .print (← frame.read env (← operand 0))

/-- The function that a call from some depth enters. -/
def calleeOf (limits : Limits) (env : Environment) (depth : Nat) (index : UInt32)
    (args : List Value) : Except Cause Func := do
  let f ← (env.func? index).elim (.error (.undefinedFunc index)) .ok
  if args.length ≠ f.paramCount.toNat then throw (.argumentCount index f.paramCount args.length)
  if limits.maxDepth ≤ depth then throw (.depthExceeded limits.maxDepth)
  return f

/-- An evaluation that stops with a fault. -/
def fail (store : Store) (cause : Cause) (line : Nat) : Outcome store.gas :=
  ⟨.error ⟨cause, line⟩, store, Nat.le_refl _⟩

/-- An evaluation that was given more gas than it could use. -/
def Outcome.weaken {small large : Nat} (o : Outcome small) (h : small ≤ large) : Outcome large :=
  ⟨o.result, o.store, Nat.le_trans o.gas_le h⟩

/-- Evaluates a body from a position on. Falling off its end gives zero. -/
def eval (limits : Limits) (site : Site) (pc : Nat) (frame : Frame) (store : Store) :
    Outcome store.gas :=
  match site.code[pc]? with
  | none => ⟨.ok 0, store, Nat.le_refl _⟩
  | some i =>
    match paid : store.gas with
    | 0 => ⟨.error ⟨.gasExhausted limits.gas, i.line⟩, store, Nat.le_of_eq paid⟩
    | gas + 1 =>
      let rest : Store := { store with gas }
      have less : rest.gas ≤ gas + 1 := Nat.le_succ gas
      match moveOf site frame store.env i with
      | .error c => (fail rest c i.line).weaken less
      | .ok .next => (eval limits site (pc + 1) frame rest).weaken less
      | .ok (.print v) =>
        (eval limits site (pc + 1) frame { rest with outputs := rest.outputs ++ [v] }).weaken less
      | .ok (.jump target) => (eval limits site target frame rest).weaken less
      | .ok (.ret v) => ⟨.ok v, rest, less⟩
      | .ok (.store dest v) =>
        match frame.write? rest.env dest v with
        | none => (fail rest (.slotOutOfScope dest) i.line).weaken less
        | some (frame, env) => (eval limits site (pc + 1) frame { rest with env }).weaken less
      | .ok (.call dest index args) =>
        match calleeOf limits rest.env site.depth index args with
        | .error c => (fail rest c i.line).weaken less
        | .ok f =>
          let inner := eval limits ⟨f.body, true, site.depth + 1⟩ 0 (.ofCall f args) rest
          have spent : inner.store.gas ≤ gas + 1 := Nat.le_trans inner.gas_le less
          match inner.result with
          | .error fault => ⟨.error fault, inner.store, spent⟩
          | .ok v =>
            match frame.write? inner.store.env dest v with
            | none => (fail inner.store (.slotOutOfScope dest) i.line).weaken spent
            | some (frame, env) =>
              (eval limits site (pc + 1) frame { inner.store with env }).weaken spent
termination_by store.gas
decreasing_by
  all_goals first
    | exact Nat.lt_of_lt_of_eq (Nat.lt_succ_self gas) paid.symm
    | exact Nat.lt_of_lt_of_eq (Nat.lt_succ_of_le inner.gas_le) paid.symm

/-- Defines the functions of a program and evaluates its module code. -/
def run (limits : Limits) (e : Environment) (p : Program) : RunResult Unit :=
  let o := eval limits ⟨p.code, false, 1⟩ 0 {} { env := e.defineAll p.funcs, gas := limits.gas }
  ⟨o.result.map fun _ => (), o.store.outputs, o.store.env.clear⟩

/-- Evaluates a call from outside. -/
def call (limits : Limits) (e : Environment) (index : UInt32) (args : List Value) :
    RunResult Value :=
  match calleeOf limits e 0 index args with
  | .error c => ⟨.error ⟨c, 0⟩, [], e.clear⟩
  | .ok f =>
    let o := eval limits ⟨f.body, true, 1⟩ 0 (.ofCall f args) { env := e, gas := limits.gas }
    ⟨o.result, o.store.outputs, o.store.env.clear⟩

end SlotLang.Evaluator
