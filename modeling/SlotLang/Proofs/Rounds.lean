import SlotLang.Proofs.Parsed
import SlotLang.Machine.Run

/-!
# What a round does

For instructions of the right shape, `Machine.Does` lists what they can do and `Machine.Fails` how
they can fail; both say everything that the machine looked at. Statements about runs follow from
statements about rounds by `Machine.run_induction`, such as what a run keeps (`Machine.keeps_run`).
-/

open List

namespace SlotLang

/-! ## Environments -/

namespace SlotMap

variable {α : Type}

theorem lookup_insertEntry (key : UInt32) (value : α) (entries : List (UInt32 × α)) (k : UInt32) :
    (insertEntry key value entries).lookup k = if k = key then some value else entries.lookup k := by
  induction entries with
  | nil => exact lookup_cons_ite k key value []
  | cons head rest ih =>
    obtain ⟨j, v⟩ := head
    unfold insertEntry
    by_cases before : key < j
    · rw [if_pos before, lookup_cons_ite]
    · rw [if_neg before]
      by_cases equal : key = j
      · rw [if_pos equal, lookup_cons_ite, lookup_cons_ite, ← equal]
        by_cases same : k = key <;> simp [same]
      · rw [if_neg equal, lookup_cons_ite, lookup_cons_ite, ih]
        by_cases same : k = key <;> simp [same, equal]

@[simp] theorem get?_insert (m : SlotMap α) (key : UInt32) (value : α) (k : UInt32) :
    (m.insert key value).get? k = if k = key then some value else m.get? k :=
  lookup_insertEntry key value m.entries k

end SlotMap

namespace Environment

variable {e : Environment} {fs : List Func} {index : UInt32}

theorem global?_setGlobal (e : Environment) (index : UInt32) (v : Value) (n : UInt32) :
    (e.setGlobal index v).global? n = if n = index then some v else e.global? n :=
  SlotMap.get?_insert _ _ _ _

theorem globals_defineAll (e : Environment) (fs : List Func) :
    (e.defineAll fs).globals = e.globals := by
  induction fs generalizing e with
  | nil => rfl
  | cons f fs ih => exact ih (e.define f)

theorem frames_defineAll (e : Environment) (fs : List Func) :
    (e.defineAll fs).frames = e.frames := by
  induction fs generalizing e with
  | nil => rfl
  | cons f fs ih => exact ih (e.define f)

theorem get?_defineAll_of_ne (other : ∀ f ∈ fs, f.index ≠ index) :
    (e.defineAll fs).funcs.get? index = e.funcs.get? index := by
  induction fs generalizing e with
  | nil => rfl
  | cons f fs ih =>
    have step := ih (e := e.define f) fun g member => other g (mem_cons_of_mem _ member)
    rw [defineAll, foldl_cons, ← defineAll, step, define, SlotMap.get?_insert,
      if_neg (other f mem_cons_self).symm]

/-- A function that is found afterwards is a new one, or an old one that no new one replaced. -/
theorem get?_defineAll_cases {c : Callable} (found : (e.defineAll fs).funcs.get? index = some c) :
    (∃ f ∈ fs, c = .ofFunc f) ∨
      (∀ f ∈ fs, f.index ≠ index) ∧ e.funcs.get? index = some c := by
  induction fs generalizing e with
  | nil => exact .inr ⟨by simp, found⟩
  | cons f fs ih =>
    rcases ih found with ⟨g, member, rfl⟩ | ⟨others, old⟩
    · exact .inl ⟨g, mem_cons_of_mem _ member, rfl⟩
    · rw [define, SlotMap.get?_insert] at old
      split at old
      · exact .inl ⟨f, mem_cons_self, (Option.some.inj old).symm⟩
      · next other => exact .inr ⟨forall_mem_cons.2 ⟨Ne.symm other, others⟩, old⟩

theorem get?_defineAll (nodup : (fs.map Func.index).Nodup) {f : Func} (member : f ∈ fs) :
    (e.defineAll fs).funcs.get? f.index = some (.ofFunc f) := by
  induction fs generalizing e with
  | nil => cases member
  | cons g fs ih =>
    rw [map_cons, nodup_cons] at nodup
    rw [defineAll, foldl_cons, ← defineAll]
    rcases mem_cons.1 member with rfl | later
    · have other : ∀ g ∈ fs, g.index ≠ f.index := fun g later same =>
        nodup.1 (same ▸ mem_map_of_mem later)
      rw [get?_defineAll_of_ne other, define, SlotMap.get?_insert, if_pos rfl]
    · exact ih nodup.2 later

end Environment

/-! ## Rounds -/

namespace Machine

variable {limits : Limits} {m n : Machine} {c : Cause} {i : Instruction} {depth found gas : Nat}
  {e : Effect} {f : Fault} {index : UInt32}

theorem read_error {o : Operand} (failed : m.read o = .error c) :
    c = .slotOutOfScope o ∨ ∃ n, o = .global n ∧ c = .undefinedGlobal n := by
  cases o with
  | lit v => cases failed
  | global n => exact .inr ⟨n, rfl, (elim_eq_error.1 failed).2.symm⟩
  | var n | arg n => exact .inl (elim_eq_error.1 failed).2.symm

theorem apply_error {op : BinaryOp} {x y : Value} (failed : op.apply x y = .error c) :
    c = .divisionByZero ∨ c = .divisionOverflow := by
  cases op with
  | div =>
    simp only [BinaryOp.apply] at failed
    split at failed
    · cases failed
      exact .inl rfl
    · split at failed
      · cases failed
        exact .inr rfl
      · cases failed
  | rem =>
    simp only [BinaryOp.apply] at failed
    split at failed
    · cases failed
      exact .inl rfl
    · cases failed
  | add | sub | mul | lt | gt | eq | and | or => cases failed

/-- What an instruction does when it succeeds. -/
inductive Does (limits : Limits) (m : Machine) : Instruction → Effect → Prop where
  | assign {dest a : Operand} {line : Nat} {v : Value}
    (value : m.read a = .ok v) (writable : m.top.canWrite dest = true) :
    Does limits m ⟨.assign, [dest, a], line⟩ (.write dest v)
  | binary {op : BinaryOp} {dest a b : Operand} {line : Nat} {x y v : Value}
    (left : m.read a = .ok x) (right : m.read b = .ok y) (result : op.apply x y = .ok v)
    (writable : m.top.canWrite dest = true) :
    Does limits m ⟨.binary op, [dest, a, b], line⟩ (.write dest v)
  | not {dest a : Operand} {line : Nat} {v : Value}
    (value : m.read a = .ok v) (writable : m.top.canWrite dest = true) :
    Does limits m ⟨.not, [dest, a], line⟩ (.write dest (.ofBool (v = 0)))
  | label {v : Value} {line : Nat} : Does limits m ⟨.label, [.lit v], line⟩ .advance
  | jump {v : Value} {line pc : Nat} (target : m.top.routine.labels.lookup v.low = some pc) :
    Does limits m ⟨.jump, [.lit v], line⟩ (.jump pc)
  | taken {a : Operand} {v c : Value} {line pc : Nat} (value : m.read a = .ok c) (nonzero : c ≠ 0)
    (target : m.top.routine.labels.lookup v.low = some pc) :
    Does limits m ⟨.jumpIf, [a, .lit v], line⟩ (.jump pc)
  | skipped {a : Operand} {v : Value} {line : Nat} (value : m.read a = .ok 0) :
    Does limits m ⟨.jumpIf, [a, .lit v], line⟩ .advance
  | call {dest : Operand} {v : Value} {args : List Operand} {line : Nat} {vs : List Value}
    {c : Callable} (values : args.mapM m.read = .ok vs)
    (entered : callee limits m.env m.depth v.low vs.length = .ok c) :
    Does limits m ⟨.call, dest :: .lit v :: args, line⟩ (.enter c vs (.ofCall dest line))
  | ret {a : Operand} {line : Nat} {v : Value} (inside : m.top.entry ≠ .ofModule)
    (value : m.read a = .ok v) (left : m.leaving v = .ok (.leave v)) :
    Does limits m ⟨.ret, [a], line⟩ (.leave v)
  | output {a : Operand} {line : Nat} {v : Value} (value : m.read a = .ok v) :
    Does limits m ⟨.output, [a], line⟩ (.output v)

/-- What an instruction does does not depend on the gas that is left. -/
theorem Does.withGas (does : Does limits m i e) (gas : Nat) : Does limits { m with gas } i e := by
  cases does with
  | assign value writable => exact .assign value writable
  | binary left right result writable => exact .binary left right result writable
  | not value writable => exact .not value writable
  | label => exact .label
  | jump target => exact .jump target
  | taken value nonzero target => exact .taken value nonzero target
  | skipped value => exact .skipped value
  | call values entered => exact .call values entered
  | ret inside value left => exact .ret inside value left
  | output value => exact .output value

/-- Why an instruction fails. -/
inductive Fails (limits : Limits) (m : Machine) : Instruction → Cause → Prop where
  | assign {dest a : Operand} {line : Nat} {c : Cause} (value : m.read a = .error c) :
    Fails limits m ⟨.assign, [dest, a], line⟩ c
  | left {op : BinaryOp} {dest a b : Operand} {line : Nat} {c : Cause}
    (value : m.read a = .error c) : Fails limits m ⟨.binary op, [dest, a, b], line⟩ c
  | right {op : BinaryOp} {dest a b : Operand} {line : Nat} {x : Value} {c : Cause}
    (left : m.read a = .ok x) (value : m.read b = .error c) :
    Fails limits m ⟨.binary op, [dest, a, b], line⟩ c
  | apply {op : BinaryOp} {dest a b : Operand} {line : Nat} {x y : Value} {c : Cause}
    (left : m.read a = .ok x) (right : m.read b = .ok y) (result : op.apply x y = .error c) :
    Fails limits m ⟨.binary op, [dest, a, b], line⟩ c
  | not {dest a : Operand} {line : Nat} {c : Cause} (value : m.read a = .error c) :
    Fails limits m ⟨.not, [dest, a], line⟩ c
  | store {op : Opcode} {dest : Operand} {rest : List Operand} {line : Nat}
    (stores : Instruction.dest? ⟨op, dest :: rest, line⟩ = some dest)
    (unwritable : m.top.canWrite dest = false) :
    Fails limits m ⟨op, dest :: rest, line⟩ (.slotOutOfScope dest)
  | jump {v : Value} {line : Nat} (missing : m.top.routine.labels.lookup v.low = none) :
    Fails limits m ⟨.jump, [.lit v], line⟩ (.undefinedLabel v.low)
  | condition {a : Operand} {v : Value} {line : Nat} {c : Cause} (value : m.read a = .error c) :
    Fails limits m ⟨.jumpIf, [a, .lit v], line⟩ c
  | jumpIf {a : Operand} {v c : Value} {line : Nat} (value : m.read a = .ok c) (nonzero : c ≠ 0)
    (missing : m.top.routine.labels.lookup v.low = none) :
    Fails limits m ⟨.jumpIf, [a, .lit v], line⟩ (.undefinedLabel v.low)
  | args {dest : Operand} {v : Value} {args : List Operand} {line : Nat} {c : Cause}
    (values : args.mapM m.read = .error c) :
    Fails limits m ⟨.call, dest :: .lit v :: args, line⟩ c
  | callee {dest : Operand} {v : Value} {args : List Operand} {line : Nat} {vs : List Value}
    {c : Cause} (values : args.mapM m.read = .ok vs)
    (refused : callee limits m.env m.depth v.low vs.length = .error c) :
    Fails limits m ⟨.call, dest :: .lit v :: args, line⟩ c
  | outside {a : Operand} {line : Nat} (outside : m.top.entry = .ofModule) :
    Fails limits m ⟨.ret, [a], line⟩ .returnOutside
  | ret {a : Operand} {line : Nat} {c : Cause} (inside : m.top.entry ≠ .ofModule)
    (value : m.read a = .error c) : Fails limits m ⟨.ret, [a], line⟩ c
  | leaving {a : Operand} {line : Nat} {v : Value} {f : Fault} (inside : m.top.entry ≠ .ofModule)
    (value : m.read a = .ok v) (unwritable : m.leaving v = .error f) :
    Fails limits m ⟨.ret, [a], line⟩ f.cause
  | output {a : Operand} {line : Nat} {c : Cause} (value : m.read a = .error c) :
    Fails limits m ⟨.output, [a], line⟩ c

/-- Success and failure of an instruction in one statement. -/
def Answers (limits : Limits) (m : Machine) (i : Instruction) : Except Fault Effect → Prop
  | .ok e => Does limits m i e
  | .error f => Fails limits m i f.cause

/-- Storing succeeds or finds the slot out of scope. -/
theorem answers_storing {op : Opcode} {dest : Operand} {rest : List Operand} {line : Nat} {v : Value}
    (stores : Instruction.dest? ⟨op, dest :: rest, line⟩ = some dest)
    (done : m.top.canWrite dest = true → Does limits m ⟨op, dest :: rest, line⟩ (.write dest v)) :
    Answers limits m ⟨op, dest :: rest, line⟩
      (atLine ⟨op, dest :: rest, line⟩ (m.storing ⟨op, dest :: rest, line⟩ v)) := by
  change Answers _ _ _ (atLine _ (if m.top.canWrite dest then _ else _))
  cases writable : m.top.canWrite dest with
  | true => exact done writable
  | false => exact .store stores writable

/-- Leaving succeeds or finds the caller's slot out of scope. -/
theorem leaving_cases (m : Machine) (v : Value) :
    m.leaving v = .ok (.leave v) ∨
      ∃ slot line, m.leaving v = .error ⟨.slotOutOfScope slot, line⟩ := by
  unfold leaving
  split
  · split
    · exact .inl rfl
    · exact .inr ⟨_, _, rfl⟩
  · exact .inl rfl

/-- What the callee of a call satisfies. -/
theorem callee_ok {e : Environment} {c : Callable}
    (entered : callee limits e depth index found = .ok c) :
    e.funcs.get? index = some c ∧ found = c.func.paramCount.toNat ∧ depth < limits.maxDepth := by
  unfold callee at entered
  cases known : e.funcs.get? index with
  | none =>
    rw [known] at entered
    cases entered
  | some d =>
    rw [known] at entered
    change (if _ then _ else if _ then _ else _) = _ at entered
    by_cases count : found ≠ d.func.paramCount.toNat
    · rw [if_pos count] at entered
      cases entered
    · rw [if_neg count] at entered
      by_cases full : limits.maxDepth ≤ depth
      · rw [if_pos full] at entered
        cases entered
      · rw [if_neg full] at entered
        cases entered
        exact ⟨rfl, not_not.1 count, Nat.lt_of_not_le full⟩

/-- Why a call is refused. -/
theorem callee_error {e : Environment} (refused : callee limits e depth index found = .error c) :
    c = .undefinedFunc index ∨ (∃ expected, c = .argumentCount index expected found) ∨
      c = .depthExceeded limits.maxDepth := by
  unfold callee at refused
  split at refused
  · cases refused
    exact .inl rfl
  · split at refused
    · cases refused
      exact .inr (.inl ⟨_, rfl⟩)
    · split at refused
      · cases refused
        exact .inr (.inr rfl)
      · cases refused

theorem effect_answers (limits : Limits) (m : Machine) (shaped : i.Shaped) :
    Answers limits m i (m.effect limits i) := by
  cases shaped with
  | @assign dest a line slot =>
    change Answers _ _ _ (atLine _ (m.read a >>= fun v => m.storing _ v))
    cases value : m.read a with
    | error c => exact .assign value
    | ok v => exact answers_storing rfl (.assign value)
  | @binary op dest a b line slot =>
    change Answers _ _ _ (atLine _ (m.read a >>= fun x => m.read b >>= fun y =>
      op.apply x y >>= fun v => m.storing _ v))
    cases left : m.read a with
    | error c => exact .left left
    | ok x =>
      cases right : m.read b with
      | error c => exact .right left right
      | ok y =>
        cases result : op.apply x y with
        | error c =>
          change Answers _ _ _ (atLine _ (op.apply x y >>= fun v => m.storing _ v))
          rw [result]
          exact .apply left right result
        | ok v =>
          change Answers _ _ _ (atLine _ (op.apply x y >>= fun v => m.storing _ v))
          rw [result]
          exact answers_storing rfl (.binary left right result)
  | @not dest a line slot =>
    change Answers _ _ _ (atLine _ (m.read a >>= fun v => m.storing _ _))
    cases value : m.read a with
    | error c => exact .not value
    | ok v => exact answers_storing rfl (.not value)
  | label index => exact .label
  | @jump v line index =>
    change Answers _ _ _ (atLine _ ((m.top.routine.labels.lookup v.low).elim _ _))
    cases target : m.top.routine.labels.lookup v.low with
    | none | some pc => exact .jump target
  | @jumpIf a v line index =>
    change Answers _ _ _ (atLine _ (m.read a >>= fun c => if c ≠ 0 then
      (m.top.routine.labels.lookup v.low).elim _ _ else _))
    cases value : m.read a with
    | error c => exact .condition value
    | ok c =>
      by_cases zero : c = 0
      · subst zero
        exact .skipped value
      · change Answers _ _ _ (atLine _ (if c ≠ 0 then
          (m.top.routine.labels.lookup v.low).elim _ _ else _))
        rw [if_pos zero]
        cases target : m.top.routine.labels.lookup v.low with
        | none => exact .jumpIf value zero target
        | some pc => exact .taken value zero target
  | @call dest v args line slot index =>
    change Answers _ _ _ (atLine _ (args.mapM m.read >>= fun vs =>
      Machine.callee limits m.env m.depth v.low vs.length >>= fun c => _))
    cases values : args.mapM m.read with
    | error c => exact .args values
    | ok vs =>
      change Answers _ _ _ (atLine _ (Machine.callee limits m.env m.depth v.low vs.length >>= _))
      cases entered : Machine.callee limits m.env m.depth v.low vs.length with
      | error c => exact .callee values entered
      | ok c => exact .call values entered
  | @ret a line =>
    change Answers _ _ _ (if m.top.entry = .ofModule then _ else
      atLine _ (m.read a) >>= fun v => m.leaving v)
    by_cases outside : m.top.entry = .ofModule
    · rw [if_pos outside]
      exact .outside outside
    · rw [if_neg outside]
      cases value : m.read a with
      | error c => exact .ret outside value
      | ok v =>
        change Answers _ _ _ (m.leaving v)
        rcases m.leaving_cases v with left | ⟨slot, line, unwritable⟩
        · rw [left]
          exact .ret outside value left
        · rw [unwritable]
          exact .leaving outside value unwritable
  | @output a line =>
    change Answers _ _ _ (atLine _ (m.read a >>= fun v => _))
    cases value : m.read a with
    | error c | ok v => exact .output value

theorem round_ended (ended : m.top.current? = none) : m.round limits = m.fallOff := by
  simp only [round, ended]

theorem round_unpaid (current : m.top.current? = some i) (empty : m.gas = 0) :
    m.round limits = .failed ⟨.gasExhausted limits.gas, i.line⟩ m := by
  simp only [round, current, empty]

theorem round_of_ok (current : m.top.current? = some i) (paid : m.gas = gas + 1)
    (done : m.effect limits i = .ok e) : m.round limits = ({ m with gas } : Machine).perform e := by
  simp only [round, current, paid, done]

theorem round_of_error (current : m.top.current? = some i) (paid : m.gas = gas + 1)
    (failed : m.effect limits i = .error f) : m.round limits = .failed f m := by
  simp only [round, current, paid, failed]

/-! ## Runs -/

theorem run_of_running (goesOn : m.round limits = .running n) : m.run limits = n.run limits := by
  rw [run]
  split
  · next h => rw [goesOn] at h; cases h; rfl
  · next h => rw [goesOn] at h; cases h
  · next h => rw [goesOn] at h; cases h

theorem run_of_finished {v : Option Value} (finished : m.round limits = .finished v n) :
    m.run limits = ⟨.ok v, n⟩ := by
  rw [run]
  split
  · next h => rw [finished] at h; cases h
  · next h => rw [finished] at h; cases h; rfl
  · next h => rw [finished] at h; cases h

theorem run_of_failed (failed : m.round limits = .failed f n) : m.run limits = ⟨.error f, n⟩ := by
  rw [run]
  split
  · next h => rw [failed] at h; cases h
  · next h => rw [failed] at h; cases h
  · next h => rw [failed] at h; cases h; rfl

theorem run_induction {P : Machine → Ending → Prop}
    (running : ∀ m n, m.round limits = .running n → P n (n.run limits) → P m (n.run limits))
    (finished : ∀ m v n, m.round limits = .finished v n → P m ⟨.ok v, n⟩)
    (failed : ∀ m f n, m.round limits = .failed f n → P m ⟨.error f, n⟩) (m : Machine) :
    P m (m.run limits) := by
  induction m using run.induct limits with
  | case1 m n round ih =>
    rw [run_of_running round]
    exact running m n round ih
  | case2 m v n round =>
    rw [run_of_finished round]
    exact finished m v n round
  | case3 m f n round =>
    rw [run_of_failed round]
    exact failed m f n round

def Ending.status : Ending → Status
  | ⟨.ok v, m⟩ => .finished v m
  | ⟨.error f, m⟩ => .failed f m

theorem matched_run {S : Type} {R : Machine → S → Prop} {M : S → Status → Prop}
    (round : ∀ m s, R m s → M s (m.round limits))
    (running : ∀ s m, M s (.running m) → ∃ t, R m t ∧ ∀ status, M t status → M s status)
    {s : S} (related : R m s) : M s (m.run limits).status := by
  refine run_induction (P := fun m ending => ∀ s, R m s → M s ending.status) ?_ ?_ ?_ m s related
  · intro m n goesOn rest s related
    have here := round m s related
    rw [goesOn] at here
    obtain ⟨t, related', onward⟩ := running s n here
    exact onward _ (rest t related')
  · intro m v n finished s related
    have here := round m s related
    rwa [finished] at here
  · intro m f n failed s related
    have here := round m s related
    rwa [failed] at here

end Machine

/-! ## How long a run takes -/

namespace Machine

variable {limits : Limits} {m n : Machine}

/-- A bound on the rounds of a run: an instruction costs gas and enters at most one activation, and
the end of an activation costs nothing. -/
def roundsLeft (m : Machine) : Nat :=
  2 * m.gas + m.below.length + 1

theorem roundsLeft_pos (m : Machine) : 0 < m.roundsLeft :=
  Nat.succ_pos _

theorem below_of_perform {e : Effect} (goesOn : m.perform e = .running n) :
    n.below.length ≤ m.below.length + 1 := by
  cases e with
  | leave v => exact Nat.le_succ_of_le (Nat.le_of_lt (shrinks_of_leave goesOn).2)
  | write slot v =>
    cases goesOn
    rw [(write_gas_below _ _ _).2]
    exact Nat.le_succ _
  | advance | output v | jump pc =>
    cases goesOn
    exact Nat.le_succ _
  | enter c args entry =>
    cases goesOn
    exact Nat.le_refl _

theorem leave_of_fallOff (goesOn : m.fallOff = .running n) : m.leave 0 = .running n := by
  unfold fallOff at goesOn
  split at goesOn
  · cases goesOn
  · rcases m.leaving_cases 0 with left | ⟨slot, line, refused⟩
    · rwa [left] at goesOn
    · rw [refused] at goesOn
      cases goesOn

theorem roundsLeft_of_round (goesOn : m.round limits = .running n) :
    n.roundsLeft + 1 ≤ m.roundsLeft := by
  unfold roundsLeft
  cases current : m.top.current? with
  | none =>
    rw [round_ended current] at goesOn
    obtain ⟨gas, below⟩ := shrinks_of_leave (leave_of_fallOff goesOn)
    omega
  | some i =>
    cases paid : m.gas with
    | zero =>
      rw [round_unpaid current paid] at goesOn
      cases goesOn
    | succ gas =>
      cases done : m.effect limits i with
      | error f =>
        rw [round_of_error current paid done] at goesOn
        cases goesOn
      | ok e =>
        rw [round_of_ok current paid done] at goesOn
        have same : n.gas = gas := perform_gas goesOn
        have below : n.below.length ≤ m.below.length + 1 := below_of_perform (m := { m with gas }) goesOn
        omega

/-- The machine after so many rounds, if the run goes on that long. -/
def after (limits : Limits) : Nat → Machine → Option Machine
  | 0, m => some m
  | k + 1, m =>
    match m.round limits with
    | .running n => n.after limits k
    | .finished _ _ | .failed _ _ => none

theorem after_succ {k : Nat} (reached : m.after limits (k + 1) = some n) :
    ∃ x, m.after limits k = some x ∧ x.round limits = .running n := by
  induction k generalizing m with
  | zero =>
    refine ⟨m, rfl, ?_⟩
    simp only [after] at reached
    split at reached
    · next goesOn => simpa [after, goesOn] using reached
    · cases reached
    · cases reached
  | succ k ih =>
    rw [after] at reached ⊢
    split at reached
    · next goesOn => exact ih reached
    · cases reached
    · cases reached

theorem after_of_running {k : Nat} {x : Machine} (reached : m.after limits k = some x)
    (goesOn : x.round limits = .running n) : m.after limits (k + 1) = some n := by
  induction k generalizing m with
  | zero =>
    cases reached
    simp only [after, goesOn]
  | succ k ih =>
    rw [after] at reached ⊢
    split at reached
    · next first => exact ih reached
    · cases reached
    · cases reached

theorem run_of_after {k : Nat} (reached : m.after limits k = some n) :
    m.run limits = n.run limits := by
  induction k generalizing m with
  | zero =>
    cases reached
    rfl
  | succ k ih =>
    rw [after] at reached
    split at reached
    · next goesOn => exact (run_of_running goesOn).trans (ih reached)
    · cases reached
    · cases reached

end Machine

/-! ## What a run keeps -/

def Status.machine : Status → Machine
  | .running m | .finished _ m | .failed _ m => m

namespace Machine

variable {limits : Limits} {m n : Machine}

/-- A machine after some rounds: it has no other functions, no more gas, and has printed no less. -/
structure Keeps (m n : Machine) : Prop where
  funcs : n.env.funcs = m.env.funcs
  gas : n.gas ≤ m.gas
  outputs : m.outputs.toList <+: n.outputs.toList

theorem Keeps.refl (m : Machine) : m.Keeps m :=
  ⟨rfl, Nat.le_refl _, prefix_rfl⟩

theorem Keeps.trans {o : Machine} (first : m.Keeps n) (second : n.Keeps o) : m.Keeps o :=
  ⟨second.funcs.trans first.funcs, Nat.le_trans second.gas first.gas, first.outputs.trans second.outputs⟩

theorem keeps_write (m : Machine) (slot : Operand) (v : Value) : m.Keeps (m.write slot v) := by
  cases slot <;> exact ⟨rfl, Nat.le_refl _, prefix_rfl⟩

theorem keeps_leave (m : Machine) (v : Value) : m.Keeps (m.leave v).machine := by
  unfold leave
  split
  · next slot line caller rest entry below =>
    have moved : m.Keeps { m with top := caller, below := rest } :=
      ⟨rfl, Nat.le_refl _, prefix_rfl⟩
    exact moved.trans (keeps_write _ slot v)
  · exact .refl m

theorem keeps_perform (m : Machine) (e : Effect) : m.Keeps (m.perform e).machine := by
  cases e with
  | write slot v =>
    have moved : m.Keeps m.next := ⟨rfl, Nat.le_refl _, prefix_rfl⟩
    exact moved.trans (keeps_write m.next slot v)
  | leave v => exact keeps_leave m v
  | output v => exact ⟨rfl, Nat.le_refl _, by simp [perform, Status.machine]⟩
  | advance | jump pc | enter c args entry => exact ⟨rfl, Nat.le_refl _, prefix_rfl⟩

theorem keeps_fallOff (m : Machine) : m.Keeps m.fallOff.machine := by
  unfold fallOff
  split
  · exact .refl m
  · split
    · exact keeps_perform m _
    · exact .refl m

theorem keeps_round (limits : Limits) (m : Machine) : m.Keeps (m.round limits).machine := by
  unfold round
  split
  · exact keeps_fallOff m
  · split
    · exact .refl m
    · next gas paid =>
      split
      · exact .refl m
      · have spent : m.Keeps { m with gas } := ⟨rfl, by simp [paid], prefix_rfl⟩
        exact spent.trans (keeps_perform _ _)

theorem keeps_run (limits : Limits) (m : Machine) : m.Keeps (m.run limits).machine := by
  refine run_induction (P := fun m ending => m.Keeps ending.machine) ?_ ?_ ?_ m
  · intro m n goesOn rest
    have here := keeps_round limits m
    rw [goesOn] at here
    exact here.trans rest
  · intro m v n finished
    have here := keeps_round limits m
    rwa [finished] at here
  · intro m f n failed
    have here := keeps_round limits m
    rwa [failed] at here

/-- Machines with the same run have the same functions. -/
theorem funcs_eq_of_run_eq (same : m.run limits = n.run limits) : n.env.funcs = m.env.funcs := by
  rw [← (keeps_run limits n).funcs, ← same, (keeps_run limits m).funcs]

end Machine

/-- The machine that runs the module code of a program. -/
def Machine.start (limits : Limits) (e : Environment) (p : Program) : Machine where
  env := e.defineAll p.funcs
  top := .ofModule p.code
  gas := limits.gas

theorem Environment.run_eq_ofEnding (limits : Limits) (e : Environment) (p : Program) :
    e.run limits p = .ofEnding (fun _ => ()) ((Machine.start limits e p).run limits) := rfl

end SlotLang
