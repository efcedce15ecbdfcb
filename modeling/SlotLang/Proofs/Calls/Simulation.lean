import SlotLang.Proofs.Calls.Evaluator
import SlotLang.Proofs.Stepping

/-!
# The machine and the recursive evaluator

The machine keeps its calls on a stack and the evaluator calls itself; both do the same. A machine
whose top activation runs some code gives what the evaluation of that code gives, handed over to the
activations below (`conclude`). The proof is by induction on the gas and follows the
evaluator: a call is an evaluation of the callee, then one of the caller's remaining code.
-/

namespace SlotLang

open Machine

namespace Evaluator

variable {n : Machine} {v : Value} {α : Type}

/-- The result and the store of an evaluation, without the bound on the gas. -/
def Outcome.answer {gas : Nat} (o : Outcome gas) : Except Fault Value × Store :=
  (o.result, o.store)

variable {limits : Limits} {site : Site} {pc : Nat} {frame : Frame} {store : Store}

/-- What a call does once the callee has been evaluated. -/
def afterCall (limits : Limits) (site : Site) (pc : Nat) (frame : Frame) (dest : Operand)
    (line : Nat) : Except Fault Value × Store → Except Fault Value × Store
  | (.error f, store) => (.error f, store)
  | (.ok v, store) =>
    match frame.write? store.env dest v with
    | none => (.error ⟨.slotOutOfScope dest, line⟩, store)
    | some (frame, env) => (eval limits site pc frame { store with env }).answer

/-- What an instruction does that has been paid for. -/
def carryOut (limits : Limits) (site : Site) (pc : Nat) (frame : Frame) (rest : Store)
    (line : Nat) : Except Cause Move → Except Fault Value × Store
  | .error c => (.error ⟨c, line⟩, rest)
  | .ok .next => (eval limits site (pc + 1) frame rest).answer
  | .ok (.print v) =>
    (eval limits site (pc + 1) frame { rest with outputs := rest.outputs ++ [v] }).answer
  | .ok (.jump target) => (eval limits site target frame rest).answer
  | .ok (.ret v) => (.ok v, rest)
  | .ok (.store dest v) =>
    match frame.write? rest.env dest v with
    | none => (.error ⟨.slotOutOfScope dest, line⟩, rest)
    | some (frame, env) => (eval limits site (pc + 1) frame { rest with env }).answer
  | .ok (.call dest index args) =>
    match calleeOf limits rest.env site.depth index args with
    | .error c => (.error ⟨c, line⟩, rest)
    | .ok f => afterCall limits site (pc + 1) frame dest line
        (eval limits ⟨f.body, true, site.depth + 1⟩ 0 (.ofCall f args) rest).answer

theorem answer_ended (ended : site.code[pc]? = none) :
    (eval limits site pc frame store).answer = (.ok 0, store) := by
  rw [eval]
  simp only [ended]
  rfl

variable {env : Environment} {outputs : List Value} {i : Instruction}

theorem answer_unpaid (current : site.code[pc]? = some i) :
    (eval limits site pc frame ⟨env, outputs, 0⟩).answer =
      (.error ⟨.gasExhausted limits.gas, i.line⟩, ⟨env, outputs, 0⟩) := by
  rw [eval]
  simp only [current]
  rfl

theorem answer_paid (gas : Nat) (current : site.code[pc]? = some i) :
    (eval limits site pc frame ⟨env, outputs, gas + 1⟩).answer =
      carryOut limits site pc frame ⟨env, outputs, gas⟩ i.line (moveOf site frame env i) := by
  rw [eval]
  simp only [current]
  cases moved : moveOf site frame env i with
  | error c => rfl
  | ok move =>
    cases move with
    | next | print v | jump target | ret v => rfl
    | store dest v =>
      simp only [carryOut]
      cases written : frame.write? env dest v with
      | none => rfl
      | some after => rfl
    | call dest index args =>
      simp only [carryOut]
      cases entered : calleeOf limits env site.depth index args with
      | error c => rfl
      | ok f =>
        dsimp only [afterCall, Outcome.answer]
        cases returned : (eval limits ⟨f.body, true, site.depth + 1⟩ 0 (.ofCall f args)
            ⟨env, outputs, gas⟩).result with
        | error fault => rfl
        | ok v =>
          dsimp only
          cases written : frame.write? (eval limits ⟨f.body, true, site.depth + 1⟩ 0
              (.ofCall f args) ⟨env, outputs, gas⟩).store.env dest v with
          | none => rfl
          | some after => rfl

/-! ## Activations as frames -/

/-- The slots of an activation. -/
def Frame.ofActivation (a : Activation) : Frame :=
  ⟨a.locals.toList, a.args.toList⟩

/-- What a machine passes on. -/
def Store.ofMachine (m : Machine) : Store :=
  ⟨m.env, m.outputs.toList, m.gas⟩

/-- Where the top activation of a machine stands. -/
structure Site.Holds (site : Site) (m : Machine) : Prop where
  routine : m.top.routine = Routine.ofCode site.code
  inFunc : site.inFunc = true ↔ m.top.entry ≠ .ofModule
  depth : site.depth = m.depth

theorem read_ofActivation (m : Machine) (o : Operand) :
    (Frame.ofActivation m.top).read m.env o = m.read o := by
  cases o <;> simp [Frame.read, Machine.read, Frame.ofActivation]

theorem ofActivation_ofCall (c : Callable) (args : List Value) (entry : Entry) :
    Frame.ofActivation (.ofCall c args entry) = .ofCall c.func args := by
  simp [Frame.ofActivation, Activation.ofCall, Frame.ofCall]

theorem write?_ofActivation (m : Machine) (dest : Operand) (v : Value) :
    (Frame.ofActivation m.top).write? m.env dest v =
      if m.top.canWrite dest then
        some (.ofActivation (m.write dest v).top, (m.write dest v).env)
      else none := by
  cases dest with
  | global n | lit w => rfl
  | var n | arg n =>
    simp [Frame.write?, Frame.ofActivation, Activation.canWrite, Machine.write, Activation.write]
    rfl

theorem calleeOf_eq (env : Environment) (depth : Nat) (index : UInt32) (args : List Value) :
    calleeOf limits env depth index args =
      (callee limits env depth index args.length).map Callable.func := by
  unfold calleeOf callee Environment.func?
  cases env.funcs.get? index with
  | none => rfl
  | some c =>
    by_cases count : args.length = c.func.paramCount.toNat
    · by_cases full : limits.maxDepth ≤ depth <;>
        simp [count, full, bind, Except.bind, Except.map] <;> rfl
    · simp [count, bind, Except.bind, Except.map]
      rfl

def effectOf (limits : Limits) (m : Machine) (line : Nat) :
    Except Cause Move → Except Fault Effect
  | .error c => .error ⟨c, line⟩
  | .ok .next => .ok .advance
  | .ok (.print v) => .ok (.output v)
  | .ok (.jump target) => .ok (.jump target)
  | .ok (.ret v) => m.leaving v
  | .ok (.store dest v) =>
    if m.top.canWrite dest then .ok (.write dest v) else .error ⟨.slotOutOfScope dest, line⟩
  | .ok (.call dest index args) =>
    match callee limits m.env m.depth index args.length with
    | .error c => .error ⟨c, line⟩
    | .ok c => .ok (.enter c args (.ofCall dest line))

variable {m : Machine}

/-- Both sides start with the same reading. -/
theorem effectOf_bind {x : Except Cause α} {f : α → Except Cause Move} {g : α → Except Cause Effect}
    (same : ∀ a, effectOf limits m i.line (f a) = atLine i (g a)) :
    effectOf limits m i.line (x >>= f) = atLine i (x >>= g) := by
  cases x with
  | error c => rfl
  | ok a => exact same a

theorem effectOf_read {n : Nat} {f : Value → Except Cause Move} {g : Value → Except Cause Effect}
    (same : ∀ v, effectOf limits m i.line (f v) = atLine i (g v)) :
    effectOf limits m i.line
        (Machine.operand i n >>= fun o => (Frame.ofActivation m.top).read m.env o >>= f) =
      atLine i (m.readOperand i n >>= g) := by
  unfold readOperand
  rw [bind_assoc]
  refine effectOf_bind fun o => ?_
  rw [read_ofActivation]
  exact effectOf_bind same

theorem effectOf_storing (v : Value) :
    effectOf limits m i.line (Machine.operand i 0 >>= fun dest => return .store dest v) =
      atLine i (m.storing i v) := by
  refine effectOf_bind fun dest => ?_
  change (if m.top.canWrite dest then _ else _) = atLine i (if m.top.canWrite dest then _ else _)
  cases m.top.canWrite dest <;> rfl

theorem effectOf_jumpOf (holds : site.Holds m) :
    effectOf limits m i.line (jumpOf site i) = atLine i (m.jumping i) := by
  unfold jumpOf jumping
  cases i.label? with
  | none => rfl
  | some label =>
    rw [holds.routine]
    change effectOf limits m i.line ((labelPosition? site.code label).elim _ _ >>= _) =
      atLine i ((labelPosition? site.code label).elim _ _)
    cases labelPosition? site.code label <;> rfl

theorem effectOf_callOf :
    effectOf limits m i.line (callOf (.ofActivation m.top) m.env i) =
      atLine i (m.calling limits i) := by
  have reads : (Frame.ofActivation m.top).read m.env = m.read := funext (read_ofActivation m)
  unfold callOf calling
  rw [reads]
  refine effectOf_bind fun dest => ?_
  cases i.callTarget? with
  | none => rfl
  | some target =>
    obtain ⟨index, operands⟩ := target
    change effectOf limits m i.line (operands.mapM m.read >>= _) = _
    refine effectOf_bind fun args => ?_
    change (match callee limits m.env m.depth index args.length with
      | .error c => _
      | .ok c => _) = atLine i (callee limits m.env m.depth index args.length >>= _)
    cases callee limits m.env m.depth index args.length <;> rfl

theorem effectOf_ret (holds : site.Holds m) :
    effectOf limits m i.line (if site.inFunc then do
        return .ret (← (Frame.ofActivation m.top).read m.env (← Machine.operand i 0))
      else throw .returnOutside) = m.returning i := by
  unfold returning readOperand
  by_cases inside : site.inFunc = true
  · have entry : m.top.entry ≠ .ofModule := holds.inFunc.1 inside
    rw [if_pos inside, if_neg entry]
    cases Machine.operand i 0 with
    | error c => rfl
    | ok o =>
      change effectOf limits m i.line ((Frame.ofActivation m.top).read m.env o >>= _) =
        (atLine i (m.read o) >>= _)
      rw [read_ofActivation]
      cases m.read o <;> rfl
  · have entry : m.top.entry = .ofModule := not_not.1 fun other => inside (holds.inFunc.2 other)
    rw [if_neg inside, if_pos entry]
    rfl

/-- The machine does what the evaluator reads. -/
theorem effect_eq (holds : site.Holds m) (i : Instruction) :
    m.effect limits i =
      effectOf limits m i.line (moveOf site (.ofActivation m.top) m.env i) := by
  unfold Machine.effect moveOf
  dsimp only
  symm
  cases i.opcode with
  | assign => exact effectOf_read effectOf_storing
  | binary op =>
    exact effectOf_read fun a => effectOf_read fun b => effectOf_bind effectOf_storing
  | not => exact effectOf_read fun a => effectOf_storing _
  | label | defineFunc | blockClose => rfl
  | jump => exact effectOf_jumpOf holds
  | jumpIf =>
    refine effectOf_read fun c => ?_
    by_cases zero : c = 0
    · simp [zero]
      rfl
    · simp [zero]
      exact effectOf_jumpOf holds
  | call => exact effectOf_callOf
  | ret => exact effectOf_ret holds
  | output => exact effectOf_read fun v => rfl

/-! ## Runs -/

/-- What a machine makes of the answer of its top activation: the nearest caller stores the value and
runs on, and without a caller the run is over. -/
def conclude (limits : Limits) (entry : Entry) (below : List Activation) :
    Except Fault Value × Store → RunResult (Option Value)
  | (.error f, s) => ⟨.error f, s.outputs, s.env.clear⟩
  | (.ok v, s) =>
    match entry, below with
    | .ofModule, _ => ⟨.ok none, s.outputs, s.env.clear⟩
    | .ofHost, _ | .ofCall _ _, [] => ⟨.ok (some v), s.outputs, s.env.clear⟩
    | .ofCall slot line, caller :: rest =>
      if caller.canWrite slot then
        let resumed : Machine := ⟨s.env, caller, rest, s.outputs.toArray, s.gas⟩
        .ofEnding id ((resumed.write slot v).run limits)
      else ⟨.error ⟨.slotOutOfScope slot, line⟩, s.outputs, s.env.clear⟩

theorem conclude_ofCall (slot : Operand) (line : Nat) (caller : Activation) (rest : List Activation)
    (v : Value) (s : Store) :
    conclude limits (.ofCall slot line) (caller :: rest) (.ok v, s) =
      if caller.canWrite slot then
        let resumed : Machine := ⟨s.env, caller, rest, s.outputs.toArray, s.gas⟩
        .ofEnding id ((resumed.write slot v).run limits)
      else ⟨.error ⟨.slotOutOfScope slot, line⟩, s.outputs, s.env.clear⟩ := rfl

/-- A round that leaves a function hands its value over. -/
theorem run_of_leaving (gas : Nat) (inside : m.top.entry ≠ .ofModule)
    (left : m.round limits = match m.leaving v with
      | .ok e => ({ m with gas } : Machine).perform e
      | .error f => .failed f m) : RunResult.ofEnding id (m.run limits) =
      conclude limits m.top.entry m.below (.ok v, .ofMachine { m with gas }) := by
  obtain ⟨env, ⟨routine, locals, args, pc, entry⟩, below, outputs, spent⟩ := m
  cases entry with
  | ofModule => exact absurd rfl inside
  | ofHost => rw [run_of_finished left]; rfl
  | ofCall slot line =>
    cases below with
    | nil => rw [run_of_finished left]; rfl
    | cons caller rest =>
      change _ = (match (if caller.canWrite slot then _ else _ : Except Fault Effect) with
        | .ok e => _
        | .error f => _) at left
      change _ = if caller.canWrite slot then _ else _
      cases writable : caller.canWrite slot with
      | true =>
        rw [writable, if_pos rfl] at left
        rw [if_pos rfl, run_of_running left]
        rfl
      | false =>
        rw [writable, if_neg Bool.false_ne_true] at left
        rw [if_neg Bool.false_ne_true, run_of_failed left]
        rfl

theorem Site.Holds.current? (holds : site.Holds m) : m.top.current? = site.code[m.top.pc]? := by
  rw [Activation.current?, holds.routine]
  exact List.getElem?_toArray

theorem Site.Holds.sameShape (holds : site.Holds m) (shape : Machine.SameShape m n) :
    site.Holds n where
  routine := shape.routine.trans holds.routine
  inFunc := by rw [shape.entry]; exact holds.inFunc
  depth := holds.depth.trans shape.depth.symm

theorem inFunc_of_ret (moved : moveOf site frame env i = .ok (.ret v)) : site.inFunc = true := by
  by_contra outside
  unfold moveOf jumpOf callOf at moved
  cases opcode : i.opcode <;>
    simp [opcode, outside, bind_eq_ok, pure, Except.pure, throw, throwThe, MonadExceptOf.throw]
      at moved
  next =>
    obtain ⟨_, -, _, -, moved⟩ := moved
    split at moved <;> simp [bind_eq_ok] at moved

/-- What the evaluator says of the top activation of a machine. -/
def answerOf (limits : Limits) (site : Site) (m : Machine) : Except Fault Value × Store :=
  (eval limits site m.top.pc (.ofActivation m.top) (.ofMachine m)).answer

theorem answerOf_write (m : Machine) (dest : Operand) (v : Value) :
    answerOf limits site (m.write dest v) =
      (eval limits site m.top.pc (.ofActivation (m.write dest v).top)
        ⟨(m.write dest v).env, m.outputs.toList, m.gas⟩).answer := by
  have store : Store.ofMachine (m.write dest v) =
      ⟨(m.write dest v).env, m.outputs.toList, m.gas⟩ := by
    rw [Store.ofMachine, write_outputs, (write_gas_below m dest v).1]
  rw [answerOf, store, write_pc]

/-- A machine gives what the evaluation of its top activation gives. -/
def Agrees (limits : Limits) (site : Site) (m : Machine) : Prop :=
  RunResult.ofEnding id (m.run limits) =
    conclude limits m.top.entry m.below (answerOf limits site m)

theorem agrees_ended (holds : site.Holds m) (ended : site.code[m.top.pc]? = none) :
    Agrees limits site m := by
  have current : m.top.current? = none := holds.current?.trans ended
  rw [Agrees, answerOf, answer_ended ended]
  by_cases outside : m.top.entry = .ofModule
  · have finished : m.round limits = .finished none m := by
      simp [Machine.round, current, fallOff, outside]
    rw [run_of_finished finished, outside]
    rfl
  · exact run_of_leaving m.gas outside ((round_ended current).trans (if_neg outside))

theorem agrees_unpaid (holds : site.Holds m) (current : site.code[m.top.pc]? = some i)
    (empty : m.gas = 0) : Agrees limits site m := by
  have failed : m.round limits = _ := round_unpaid (holds.current?.trans current) empty
  have store : Store.ofMachine m = ⟨m.env, m.outputs.toList, 0⟩ := by
    rw [Store.ofMachine, empty]
  rw [Agrees, answerOf, store, answer_unpaid current, run_of_failed failed]
  rfl

theorem Agrees.of_running (agrees : Agrees limits site n) (goesOn : m.round limits = .running n)
    (shape : Machine.SameShape m n) (same : answerOf limits site m = answerOf limits site n) :
    Agrees limits site m := by
  rw [Agrees, same, run_of_running goesOn, agrees, shape.entry, shape.below]

/-! ### Instructions that have been paid for -/

section Paid

variable {gas : Nat} (holds : site.Holds m) (current : site.code[m.top.pc]? = some i)
  (paid : m.gas = gas + 1) {dest : Operand}

include holds current paid

variable (limits) in
theorem round_eq : m.round limits =
    match effectOf limits m i.line (moveOf site (.ofActivation m.top) m.env i) with
    | .ok e => ({ m with gas } : Machine).perform e
    | .error f => .failed f m := by
  rw [← effect_eq holds, Machine.round, holds.current?.trans current]
  simp only [paid]
  cases m.effect limits i <;> rfl

variable (limits) in
omit holds in
theorem answerOf_eq : answerOf limits site m =
    carryOut limits site m.top.pc (.ofActivation m.top) ⟨m.env, m.outputs.toList, gas⟩ i.line
      (moveOf site (.ofActivation m.top) m.env i) := by
  have store : Store.ofMachine m = ⟨m.env, m.outputs.toList, gas + 1⟩ := by
    rw [Store.ofMachine, paid]
  rw [answerOf, store, answer_paid gas current]

variable (ih : ∀ n site, n.gas ≤ gas → site.Holds n → Agrees limits site n)

include ih

/-- A write that the machine carries out or refuses. -/
theorem agrees_store {v : Value}
    (moved : moveOf site (.ofActivation m.top) m.env i = .ok (.store dest v)) :
    Agrees limits site m := by
  let next : Machine := ({ m with gas } : Machine).next
  have written : (Frame.ofActivation m.top).write? m.env dest v =
      if m.top.canWrite dest then
        some (.ofActivation (next.write dest v).top, (next.write dest v).env)
      else none := write?_ofActivation next dest v
  have round := round_eq limits holds current paid
  have answer := answerOf_eq limits current paid
  cases writable : m.top.canWrite dest with
  | true =>
    simp only [moved, effectOf, carryOut, written, writable, if_true] at round answer
    have paidFor : Machine.SameShape m next := ⟨rfl, rfl, rfl, rfl, rfl, rfl⟩
    have shape : Machine.SameShape m (next.write dest v) := paidFor.trans (.write next dest v)
    have less : (next.write dest v).gas = gas := (write_gas_below _ _ _).1
    refine (ih _ site (Nat.le_of_eq less) (holds.sameShape shape)).of_running round shape ?_
    rw [answer, answerOf_write]
    rfl
  | false =>
    simp only [moved, effectOf, carryOut, written, writable, Bool.false_eq_true, if_false]
      at round answer
    rw [Agrees, answer, run_of_failed round]
    rfl

omit current paid in
theorem conclude_call (dest : Operand) (line : Nat) (answer : Except Fault Value × Store)
    (less : answer.2.gas ≤ gas) :
    conclude limits (.ofCall dest line) (m.top :: m.below) answer =
      conclude limits m.top.entry m.below
        (afterCall limits site m.top.pc (.ofActivation m.top) dest line answer) := by
  obtain ⟨result, store⟩ := answer
  cases result with
  | error f => rfl
  | ok v =>
    let resumed : Machine := ⟨store.env, m.top, m.below, store.outputs.toArray, store.gas⟩
    have written : (Frame.ofActivation m.top).write? store.env dest v =
        if m.top.canWrite dest then
          some (.ofActivation (resumed.write dest v).top, (resumed.write dest v).env)
        else none := write?_ofActivation resumed dest v
    rw [conclude_ofCall, afterCall, written]
    cases writable : m.top.canWrite dest with
    | true =>
      have shape : Machine.SameShape resumed (resumed.write dest v) := .write resumed dest v
      have holds' : site.Holds resumed := ⟨holds.routine, holds.inFunc, holds.depth⟩
      have spent : (resumed.write dest v).gas = store.gas := (write_gas_below _ _ _).1
      have agrees := ih (resumed.write dest v) site (spent ▸ less) (holds'.sameShape shape)
      rw [Agrees, answerOf_write, shape.entry, shape.below] at agrees
      simpa [resumed] using agrees
    | false => rfl

/-- A call is an evaluation of the callee and then one of the code behind the call. -/
theorem agrees_call {index : UInt32} {args : List Value}
    (moved : moveOf site (.ofActivation m.top) m.env i = .ok (.call dest index args)) :
    Agrees limits site m := by
  have round := round_eq limits holds current paid
  have answer := answerOf_eq limits current paid
  simp only [moved, effectOf, carryOut, calleeOf_eq, holds.depth] at round answer
  cases entered : callee limits m.env m.depth index args.length with
  | error c =>
    simp only [entered, Except.map] at round answer
    rw [Agrees, answer, run_of_failed round]
    rfl
  | ok c =>
    simp only [entered, Except.map] at round answer
    let caller : Machine := ({ m with gas } : Machine).next
    let called : Machine :=
      { caller with
        top := .ofCall c args (.ofCall dest i.line)
        below := caller.top :: caller.below }
    let inner : Site := ⟨c.func.body, true, m.depth + 1⟩
    have inside : inner.Holds called := ⟨c.routine_eq, by simp [inner, called, Activation.ofCall], rfl⟩
    have paidFor : Machine.SameShape m caller := ⟨rfl, rfl, rfl, rfl, rfl, rfl⟩
    have innerAnswer : answerOf limits inner called =
        (eval limits inner 0 (.ofCall c.func args) ⟨m.env, m.outputs.toList, gas⟩).answer := by
      rw [answerOf, ofActivation_ofCall]
      rfl
    have less := (eval limits inner 0 (.ofCall c.func args) ⟨m.env, m.outputs.toList, gas⟩).gas_le
    rw [Agrees, run_of_running round, ih called inner (Nat.le_refl _) inside, innerAnswer, answer]
    exact conclude_call (holds.sameShape paidFor) ih dest i.line _ less

end Paid

theorem agrees (holds : site.Holds m) : Agrees limits site m := by
  induction bound : m.gas using Nat.strongRecOn generalizing m site with
  | ind gas ih =>
    subst bound
    cases current : site.code[m.top.pc]? with
    | none => exact agrees_ended holds current
    | some i =>
      cases paid : m.gas with
      | zero => exact agrees_unpaid holds current paid
      | succ gas =>
        have ih' : ∀ n site, n.gas ≤ gas → site.Holds n → Agrees limits site n :=
          fun n site less holds => ih n.gas (by omega) holds rfl
        have round := round_eq limits holds current paid
        have answer := answerOf_eq limits current paid
        cases moved : moveOf site (.ofActivation m.top) m.env i with
        | error c =>
          simp only [moved, effectOf, carryOut] at round answer
          rw [Agrees, answer, run_of_failed round]
          rfl
        | ok move =>
          cases move with
          | store dest v => exact agrees_store holds current paid ih' moved
          | call dest index args => exact agrees_call holds current paid ih' moved
          | ret v =>
            simp only [moved, effectOf, carryOut] at round answer
            rw [Agrees, answer]
            exact run_of_leaving gas (holds.inFunc.1 (inFunc_of_ret moved)) round
          | next =>
            simp only [moved, effectOf, carryOut] at round answer
            have shape : Machine.SameShape m ({ m with gas } : Machine).next :=
              ⟨rfl, rfl, rfl, rfl, rfl, rfl⟩
            exact (ih' _ site (Nat.le_refl _) (holds.sameShape shape)).of_running round shape answer
          | jump target =>
            simp only [moved, effectOf, carryOut] at round answer
            have shape : Machine.SameShape m (({ m with gas } : Machine).goto target) :=
              ⟨rfl, rfl, rfl, rfl, rfl, rfl⟩
            exact (ih' _ site (Nat.le_refl _) (holds.sameShape shape)).of_running round shape answer
          | print v =>
            have pushed : m.outputs.toList ++ [v] = (m.outputs.push v).toList :=
              Array.toList_push.symm
            simp only [moved, effectOf, carryOut] at round answer
            rw [pushed] at answer
            have shape : Machine.SameShape m
                { ({ m with gas } : Machine).next with outputs := m.outputs.push v } :=
              ⟨rfl, rfl, rfl, rfl, rfl, rfl⟩
            exact (ih' _ site (Nat.le_refl _) (holds.sameShape shape)).of_running round shape answer

/-! ## Programs and calls -/

theorem ofEnding_eq (f : Option Value → α) (e : Machine.Ending) : RunResult.ofEnding f e =
      ⟨(RunResult.ofEnding id e).result.map f, (RunResult.ofEnding id e).outputs,
        (RunResult.ofEnding id e).env⟩ := by
  obtain ⟨result, m⟩ := e
  cases result <;> rfl

theorem conclude_ofModule (below : List Activation) (answer : Except Fault Value × Store) :
    conclude limits .ofModule below answer =
      ⟨answer.1.map fun _ => none, answer.2.outputs, answer.2.env.clear⟩ := by
  obtain ⟨result, store⟩ := answer
  cases result <;> rfl

theorem conclude_ofHost (below : List Activation) (answer : Except Fault Value × Store) :
    conclude limits .ofHost below answer =
      ⟨answer.1.map some, answer.2.outputs, answer.2.env.clear⟩ := by
  obtain ⟨result, store⟩ := answer
  cases result <;> rfl

theorem map_map {ε β γ : Type} (f : α → β) (g : β → γ) (x : Except ε α) :
    (x.map f).map g = x.map (g ∘ f) := by
  cases x <;> rfl

theorem run_eq (limits : Limits) (e : Environment) (p : Program) :
    e.run limits p = run limits e p := by
  let start : Machine :=
    { env := e.defineAll p.funcs, top := Activation.ofModule p.code, gas := limits.gas }
  have holds : Site.Holds ⟨p.code, false, 1⟩ start := ⟨rfl, by simp [start, Activation.ofModule], rfl⟩
  have concluded : RunResult.ofEnding id (start.run limits) =
      conclude limits .ofModule [] (answerOf limits ⟨p.code, false, 1⟩ start) := agrees holds
  change RunResult.ofEnding (fun _ => ()) (start.run limits) = _
  rw [ofEnding_eq, concluded, conclude_ofModule, map_map]
  rfl

theorem call_eq (limits : Limits) (e : Environment) (index : UInt32) (args : List Value) :
    e.call limits index args = call limits e index args := by
  unfold Environment.call call
  rw [calleeOf_eq]
  cases entered : callee limits e 0 index args.length with
  | error c => rfl
  | ok c =>
    let start : Machine := { env := e, top := Activation.ofCall c args .ofHost, gas := limits.gas }
    have holds : Site.Holds ⟨c.func.body, true, 1⟩ start :=
      ⟨c.routine_eq, by simp [start, Activation.ofCall], rfl⟩
    have concluded : RunResult.ofEnding id (start.run limits) =
        conclude limits .ofHost [] (answerOf limits ⟨c.func.body, true, 1⟩ start) := agrees holds
    have answered : answerOf limits ⟨c.func.body, true, 1⟩ start =
        (eval limits ⟨c.func.body, true, 1⟩ 0 (.ofCall c.func args)
          { env := e, gas := limits.gas }).answer := by
      rw [answerOf, ofActivation_ofCall]
      rfl
    change RunResult.ofEnding (fun v => v.getD 0) (start.run limits) = _
    have kept : ∀ x : Except Fault Value, x.map ((fun v => v.getD 0) ∘ some) = x := by
      intro x
      cases x <;> rfl
    rw [ofEnding_eq, concluded, conclude_ofHost, map_map, kept, answered]
    rfl

end Evaluator

end SlotLang
