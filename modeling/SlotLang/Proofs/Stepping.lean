import SlotLang.Proofs.Bodies
import SlotLang.Proofs.Execution

/-!
# Steps of the machine with enough gas

`Machine.outcome` is what a machine's run gives, as a function of the gas and of the limits that are
allowed. Gas is the fuel of these executions: an instruction costs one unit, and the end of the code
costs none. What a machine gives with enough gas is thus the same under all allowed limits.

Between two moments of one activation, machines have the `SameShape`: only slots, position and
output change.
-/

namespace SlotLang

def Status.withGas (gas : Nat) : Status → Status
  | .running m => .running { m with gas }
  | .finished v m => .finished v { m with gas }
  | .failed f m => .failed f { m with gas }

namespace Machine

variable {allowed : Limits → Prop} {m n : Machine} {i : Instruction} {e : Effect}

def outcome (allowed : Limits → Prop) (gas : Nat) (m : Machine) :
    { limits : Limits // allowed limits } → RunResult (Option Value) :=
  fun limits => .ofEnding id (({ m with gas } : Machine).run limits)

theorem write_withGas (m : Machine) (slot : Operand) (v : Value) (gas : Nat) :
    ({ m with gas } : Machine).write slot v = { m.write slot v with gas } := by
  cases slot <;> rfl

theorem leave_withGas (m : Machine) (v : Value) (gas : Nat) :
    ({ m with gas } : Machine).leave v = (m.leave v).withGas gas := by
  obtain ⟨env, ⟨routine, locals, args, pc, entry⟩, below, outputs, spent⟩ := m
  cases entry with
  | ofModule | ofHost => rfl
  | ofCall slot line =>
    cases below with
    | nil => rfl
    | cons caller rest =>
      exact congrArg Status.running (write_withGas ⟨env, caller, rest, outputs, spent⟩ slot v gas)

theorem perform_withGas (m : Machine) (e : Effect) (gas : Nat) :
    ({ m with gas } : Machine).perform e = (m.perform e).withGas gas := by
  cases e with
  | write slot v => exact congrArg Status.running (write_withGas m.next slot v gas)
  | leave v => exact leave_withGas m v gas
  | advance | output v | jump pc | enter c args entry => rfl

/-- What an instruction can do, it does. -/
theorem Does.effect {limits : Limits} (does : Does limits m i e) : m.effect limits i = .ok e := by
  cases does with
  | assign value writable | @not dest a line v value writable =>
    change atLine _ (m.read _ >>= fun v => if m.top.canWrite _ then _ else _) = _
    rw [value]
    change atLine _ (if m.top.canWrite _ then _ else _) = _
    rw [if_pos writable]
    rfl
  | @binary op dest a b line x y v left right result writable =>
    change atLine _ (m.read a >>= fun x => m.read b >>= fun y => op.apply x y >>= fun v =>
      if m.top.canWrite dest then _ else _) = _
    rw [left]
    change atLine _ (m.read b >>= fun y => op.apply x y >>= fun v => _) = _
    rw [right]
    change atLine _ (op.apply x y >>= fun v => _) = _
    rw [result]
    change atLine _ (if m.top.canWrite _ then _ else _) = _
    rw [if_pos writable]
    rfl
  | label => rfl
  | @jump v line pc target =>
    change atLine _ ((m.top.routine.labels.lookup v.low).elim _ _) = _
    rw [target]
    rfl
  | @taken a v c line pc value nonzero target =>
    change atLine _ (m.read a >>= fun c => if c ≠ 0 then
      (m.top.routine.labels.lookup v.low).elim _ _ else _) = _
    rw [value]
    change atLine _ (if c ≠ 0 then (m.top.routine.labels.lookup v.low).elim _ _ else _) = _
    rw [if_pos nonzero, target]
    rfl
  | @skipped a v line value =>
    change atLine _ (m.read a >>= fun c => if c ≠ 0 then _ else _) = _
    rw [value]
    rfl
  | @call dest v args line vs c values entered =>
    change atLine _ (args.mapM m.read >>= fun vs =>
      callee limits m.env m.depth v.low vs.length >>= fun c => _) = _
    rw [values]
    change atLine _ (callee limits m.env m.depth v.low vs.length >>= fun c => _) = _
    rw [entered]
    rfl
  | @ret a line v inside value left =>
    change (if m.top.entry = .ofModule then _ else atLine _ (m.read a) >>= fun v => m.leaving v) = _
    rw [if_neg inside, value]
    exact left
  | @output a line v value =>
    change atLine _ (m.read a >>= fun v => _) = _
    rw [value]
    rfl

/-- A failing operation stops an instruction. -/
theorem effect_of_apply {limits : Limits} {op : BinaryOp} {dest a b : Operand} {line : Nat}
    {x y : Value} {c : Cause} (left : m.read a = .ok x) (right : m.read b = .ok y)
    (result : op.apply x y = .error c) :
    m.effect limits ⟨.binary op, [dest, a, b], line⟩ = .error ⟨c, line⟩ := by
  change atLine _ (m.read a >>= fun x => m.read b >>= fun y => op.apply x y >>= fun v => _) = _
  rw [left]
  change atLine _ (m.read b >>= fun y => op.apply x y >>= fun v => _) = _
  rw [right]
  change atLine _ (op.apply x y >>= fun v => _) = _
  rw [result]
  rfl

theorem round_paid (limits : Limits) (current : m.top.current? = some i) (gas : Nat) :
    ({ m with gas := gas + 1 } : Machine).round limits =
      match m.effect limits i with
      | .error f => .failed f { m with gas := gas + 1 }
      | .ok e => (m.perform e).withGas gas := by
  have here : ({ m with gas := gas + 1 } : Machine).round limits =
      match m.effect limits i with
      | .error f => .failed f { m with gas := gas + 1 }
      | .ok e => ({ m with gas } : Machine).perform e := by
    have current : ({ m with gas := gas + 1 } : Machine).top.current? = some i := current
    rw [round, current]
    rfl
  rw [here]
  cases m.effect limits i with
  | error f => rfl
  | ok e => exact perform_withGas m e gas

theorem round_of_does {limits : Limits} (current : m.top.current? = some i)
    (does : Does limits m i e) (next : m.perform e = .running n) (gas : Nat) :
    ({ m with gas := gas + 1 } : Machine).round limits = .running { n with gas } := by
  rw [round_paid limits current, does.effect]
  change (m.perform e).withGas gas = _
  rw [next]
  rfl

theorem reaches_does (current : m.top.current? = some i)
    (does : ∀ limits, allowed limits → Does limits m i e) (next : m.perform e = .running n) :
    Reaches (outcome allowed) m n := by
  refine reaches_of_succ fun gas => ?_
  funext ⟨limits, fit⟩
  have goesOn := round_of_does current (does limits fit) next gas
  exact congrArg (RunResult.ofEnding id) (run_of_running goesOn)

/-- Under any limits, `k` rounds lead from one machine to another and cost `k` units of gas. -/
def Leads (k : Nat) (m n : Machine) : Prop :=
  ∀ limits gas, ({ m with gas := gas + k } : Machine).after limits k = some { n with gas }

theorem Leads.step {k : Nat} {l : Machine} (leads : Leads k m n) (current : n.top.current? = some i)
    (does : ∀ limits, Does limits n i e) (next : n.perform e = .running l) : Leads (k + 1) m l := by
  intro limits gas
  have reached := leads limits (gas + 1)
  rw [Nat.add_right_comm] at reached
  exact after_of_running reached (round_of_does current (does limits) next gas)

theorem Leads.reaches {k : Nat} (leads : Leads k m n) : Reaches (outcome allowed) m n := by
  refine ⟨k, fun gas => ?_⟩
  funext ⟨limits, fit⟩
  rw [Nat.add_comm k gas]
  exact congrArg (RunResult.ofEnding id) (run_of_after (leads limits gas))

theorem ends_fails {f : Fault} (current : m.top.current? = some i)
    (fails : ∀ limits, allowed limits → m.effect limits i = .error f) :
    Ends (outcome allowed) m fun _ => ⟨.error f, m.outputs.toList, m.env.clear⟩ := by
  refine ends_of_succ fun gas => ?_
  funext ⟨limits, fit⟩
  have failed : ({ m with gas := gas + 1 } : Machine).round limits =
      .failed f { m with gas := gas + 1 } := by
    rw [round_paid limits current, fails limits fit]
  exact congrArg (RunResult.ofEnding id) (run_of_failed failed)

theorem reaches_fallOff (ended : m.top.current? = none) (inside : m.top.entry ≠ .ofModule)
    (left : m.leaving 0 = .ok (.leave 0)) (next : m.leave 0 = .running n) :
    Reaches (outcome allowed) m n := by
  refine ⟨0, fun gas => ?_⟩
  funext ⟨limits, fit⟩
  have goesOn : ({ m with gas := 0 + gas } : Machine).round limits =
      .running { n with gas } := by
    have ended : ({ m with gas := 0 + gas } : Machine).top.current? = none := ended
    have left : ({ m with gas := 0 + gas } : Machine).leaving 0 = .ok (.leave 0) := left
    rw [round, ended]
    change fallOff _ = _
    rw [fallOff, if_neg inside, left]
    change ({ m with gas := 0 + gas } : Machine).leave 0 = _
    rw [leave_withGas, next, Nat.zero_add]
    rfl
  exact congrArg (RunResult.ofEnding id) (run_of_running goesOn)

theorem ends_fallOff (ended : m.top.current? = none) (outside : m.top.entry = .ofModule) :
    Ends (outcome allowed) m fun _ => ⟨.ok none, m.outputs.toList, m.env.clear⟩ := by
  refine ⟨0, fun gas _ => ?_⟩
  funext ⟨limits, fit⟩
  have finished : ({ m with gas } : Machine).round limits = .finished none { m with gas } := by
    have ended : ({ m with gas } : Machine).top.current? = none := ended
    rw [round, ended]
    change fallOff _ = _
    rw [fallOff, if_pos outside]
  exact congrArg (RunResult.ofEnding id) (run_of_finished finished)

/-! ## Slots -/

variable {dest o : Operand} {v : Value}

theorem read_write_self (writable : m.top.canWrite dest = true) :
    (m.write dest v).read dest = .ok v := by
  cases dest with
  | global n =>
    change ((m.env.setGlobal n v).global? n).elim _ _ = _
    rw [Environment.global?_setGlobal, if_pos rfl]
    rfl
  | var n =>
    have bound : n.toNat < m.top.locals.size := of_decide_eq_true writable
    change ((m.top.locals.setIfInBounds n.toNat v)[n.toNat]?).elim _ _ = _
    rw [Array.getElem?_setIfInBounds_self_of_lt bound]
    rfl
  | arg n =>
    have bound : n.toNat < m.top.args.size := of_decide_eq_true writable
    change ((m.top.args.setIfInBounds n.toNat v)[n.toNat]?).elim _ _ = _
    rw [Array.getElem?_setIfInBounds_self_of_lt bound]
    rfl
  | lit w => cases writable

theorem read_write_of_ne (other : o ≠ dest) : (m.write dest v).read o = m.read o := by
  cases dest with
  | global n =>
    cases o with
    | global k =>
      change ((m.env.setGlobal n v).global? k).elim _ _ = _
      rw [Environment.global?_setGlobal, if_neg fun same => other (congrArg _ same)]
      rfl
    | var k | arg k | lit w => rfl
  | var n =>
    cases o with
    | var k =>
      have different : n.toNat ≠ k.toNat := fun same =>
        other (congrArg _ (UInt32.toNat_inj.1 same).symm)
      change ((m.top.locals.setIfInBounds n.toNat v)[k.toNat]?).elim _ _ = _
      rw [Array.getElem?_setIfInBounds_ne different]
      rfl
    | global k | arg k | lit w => rfl
  | arg n =>
    cases o with
    | arg k =>
      have different : n.toNat ≠ k.toNat := fun same =>
        other (congrArg _ (UInt32.toNat_inj.1 same).symm)
      change ((m.top.args.setIfInBounds n.toNat v)[k.toNat]?).elim _ _ = _
      rw [Array.getElem?_setIfInBounds_ne different]
      rfl
    | global k | var k | lit w => rfl
  | lit w => rfl

@[simp] theorem read_goto (m : Machine) (pc : Nat) (o : Operand) : (m.goto pc).read o = m.read o := by
  cases o <;> rfl

/-- Two moments of one activation. -/
structure SameShape (m n : Machine) : Prop where
  below : n.below = m.below
  routine : n.top.routine = m.top.routine
  entry : n.top.entry = m.top.entry
  locals : n.top.locals.size = m.top.locals.size
  args : n.top.args.size = m.top.args.size
  funcs : n.env.funcs = m.env.funcs

namespace SameShape

theorem refl (m : Machine) : SameShape m m :=
  ⟨rfl, rfl, rfl, rfl, rfl, rfl⟩

theorem trans {l : Machine} (first : SameShape l m) (second : SameShape m n) : SameShape l n where
  below := second.below.trans first.below
  routine := second.routine.trans first.routine
  entry := second.entry.trans first.entry
  locals := second.locals.trans first.locals
  args := second.args.trans first.args
  funcs := second.funcs.trans first.funcs

theorem goto (m : Machine) (pc : Nat) : SameShape m (m.goto pc) :=
  ⟨rfl, rfl, rfl, rfl, rfl, rfl⟩

theorem write (m : Machine) (dest : Operand) (v : Value) : SameShape m (m.write dest v) := by
  cases dest with
  | global n | lit w => exact ⟨rfl, rfl, rfl, rfl, rfl, rfl⟩
  | var n => exact ⟨rfl, rfl, rfl, Array.size_setIfInBounds, rfl, rfl⟩
  | arg n => exact ⟨rfl, rfl, rfl, rfl, Array.size_setIfInBounds, rfl⟩

theorem depth (shape : SameShape m n) : n.depth = m.depth :=
  congrArg (·.length + 1) shape.below

theorem runs {b : Body} (shape : SameShape m n) (runs : m.top.Runs b) : n.top.Runs b where
  routine := shape.routine.trans runs.routine
  locals := shape.locals.trans runs.locals
  args := shape.args.trans runs.args
  entry := by rw [shape.entry, runs.entry]

theorem canWrite (shape : SameShape m n) (o : Operand) : n.top.canWrite o = m.top.canWrite o := by
  cases o with
  | var k => exact congrArg (fun size => decide (k.toNat < size)) shape.locals
  | arg k => exact congrArg (fun size => decide (k.toNat < size)) shape.args
  | global k | lit v => rfl

end SameShape

theorem write_pc (m : Machine) (dest : Operand) (v : Value) :
    (m.write dest v).top.pc = m.top.pc := by
  cases dest <;> rfl

theorem write_outputs (m : Machine) (dest : Operand) (v : Value) :
    (m.write dest v).outputs = m.outputs := by
  cases dest <;> rfl

/-- At most some slots have changed. -/
structure Changes (slots : List Operand) (m n : Machine) : Prop where
  shape : m.SameShape n
  outputs : n.outputs = m.outputs
  others : ∀ o ∉ slots, n.read o = m.read o

namespace Changes

variable {slots : List Operand}

theorem refl (slots : List Operand) (m : Machine) : Changes slots m m :=
  ⟨.refl m, rfl, fun _ _ => rfl⟩

theorem write (changes : Changes slots m n) (member : dest ∈ slots) (v : Value) :
    Changes slots m (n.write dest v) where
  shape := changes.shape.trans (.write n dest v)
  outputs := (write_outputs n dest v).trans changes.outputs
  others o other := by
    have different : o ≠ dest := fun same => other (same ▸ member)
    rw [read_write_of_ne different, changes.others o other]

theorem goto (changes : Changes slots m n) (pc : Nat) : Changes slots m (n.goto pc) where
  shape := changes.shape.trans (.goto n pc)
  outputs := changes.outputs
  others o other := by rw [read_goto, changes.others o other]

end Changes

end Machine

end SlotLang
