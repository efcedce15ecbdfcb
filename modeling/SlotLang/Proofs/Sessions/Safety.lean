import SlotLang.Proofs.Bodies
import SlotLang.Proofs.Segments

/-!
# Runs that fail only by their data

Some causes of failure lie in the values and limits of a run (`Cause.isDynamic`), the others in its
code: a slot, a label or a function that is not there, a return outside all functions, an
instruction of the wrong shape. `Body.Safe` says what rules the latter out for one body. A machine is
`Safe` if its environment is, if all its activations run safe bodies, and if every caller can store
the result it waits for. Rounds keep a machine safe (`safe_round`), so a safe machine fails only by
its data (`safe_run`).
-/

open List

namespace SlotLang

/-- A cause that lies in the values and limits of a run. -/
def Cause.isDynamic : Cause → Bool
  | undefinedGlobal _ | argumentCount .. | divisionByZero | divisionOverflow | depthExceeded _
  | gasExhausted _ => true
  | slotOutOfScope _ | undefinedFunc _ | undefinedLabel _ | returnOutside | malformed _ => false

/-- The slots, labels and functions that a body names are there, if there are `count` functions. -/
structure Body.Safe (count : Nat) (b : Body) : Prop where
  shaped : ∀ i ∈ b.code, i.Shaped
  labels : LabelsSound b.code
  returns : ∀ i ∈ b.code, i.opcode = .ret → b.inFunc = true
  vars : ∀ i ∈ b.code, ∀ n, .var n ∈ i.operands → n.toNat < b.varCount
  args : ∀ i ∈ b.code, ∀ n, .arg n ∈ i.operands → n.toNat < b.argCount
  calls : ∀ i ∈ b.code, ∀ index args, i.callTarget? = some (index, args) → index.toNat < count

theorem Body.Safe.mono {count larger : Nat} {b : Body} (safe : b.Safe count)
    (le : count ≤ larger) : b.Safe larger :=
  { safe with
    calls := fun i member index args target =>
      Nat.lt_of_lt_of_le (safe.calls i member index args target) le }

/-- The functions have exactly the indices from zero up. -/
def Environment.Dense (e : Environment) : Prop :=
  ∀ index, (e.funcs.get? index).isSome = true ↔ index.toNat < e.funcCount

/-- The functions have the indices from zero up, their bodies are safe, and no call is in progress. -/
structure Environment.Safe (e : Environment) : Prop where
  dense : e.Dense
  bodies : ∀ index c, e.funcs.get? index = some c → c.func.toBody.Safe e.funcCount
  idle : e.frames = []

theorem Environment.Safe.setGlobal {e : Environment} (safe : e.Safe) (index : UInt32) (v : Value) :
    (e.setGlobal index v).Safe :=
  ⟨safe.dense, safe.bodies, safe.idle⟩

theorem Environment.Safe.callDepth {e : Environment} (safe : e.Safe) : e.callDepth = 0 :=
  length_eq_zero_iff.2 safe.idle

/-- The activation runs a safe body. -/
def Activation.Safe (count : Nat) (a : Activation) : Prop :=
  ∃ b : Body, b.Safe count ∧ a.Runs b

/-- Below module code there is nothing, and below a call the caller, which can store the result. -/
def Awaits : Entry → List Activation → Prop
  | .ofModule, [] => True
  | .ofCall slot _, caller :: rest => caller.canWrite slot = true ∧ Awaits caller.entry rest
  | _, _ => False

theorem Awaits.cases {entry : Entry} {below : List Activation} (awaits : Awaits entry below) :
    entry = .ofModule ∧ below = [] ∨ ∃ slot line caller rest, entry = .ofCall slot line ∧
      below = caller :: rest ∧ caller.canWrite slot = true ∧ Awaits caller.entry rest := by
  unfold Awaits at awaits
  split at awaits
  · exact .inl ⟨rfl, rfl⟩
  · next slot line caller rest => exact .inr ⟨slot, line, caller, rest, rfl, rfl, awaits⟩
  · exact awaits.elim

/-- The machine can fail only by its data. -/
structure Machine.Safe (m : Machine) : Prop where
  env : m.env.Safe
  top : m.top.Safe m.env.funcCount
  below : ∀ a ∈ m.below, a.Safe m.env.funcCount
  awaits : Awaits m.top.entry m.below

/-- What holds of a safe machine after a round. -/
def Status.Safe : Status → Prop
  | .running m => m.Safe
  | .finished _ m => m.env.Safe
  | .failed f m => m.env.Safe ∧ f.cause.isDynamic = true

namespace Machine

variable {limits : Limits} {m : Machine} {c : Cause} {i : Instruction} {index : UInt32}

/-! ## Instructions of safe bodies -/

section Instructions

variable {count : Nat} {b : Body} (safe : b.Safe count) (runs : m.top.Runs b) (member : i ∈ b.code)
  {o : Operand}

include safe runs member

theorem isDynamic_of_read (used : o ∈ i.operands) (failed : m.read o = .error c) :
    c.isDynamic = true := by
  cases o with
  | lit v => cases failed
  | global n =>
    obtain ⟨-, rfl⟩ := elim_eq_error.1 failed
    rfl
  | var n =>
    have missing := (elim_eq_error.1 failed).1
    rw [Array.getElem?_eq_none_iff, runs.locals] at missing
    exact absurd (safe.vars i member n used) (Nat.not_lt.2 missing)
  | arg n =>
    have missing := (elim_eq_error.1 failed).1
    rw [Array.getElem?_eq_none_iff, runs.args] at missing
    exact absurd (safe.args i member n used) (Nat.not_lt.2 missing)

theorem isDynamic_of_readAll {os : List Operand} (used : ∀ o ∈ os, o ∈ i.operands)
    (failed : os.mapM m.read = .error c) : c.isDynamic = true := by
  obtain ⟨o, there, unread⟩ := exists_of_mapM_eq_error failed
  exact isDynamic_of_read safe runs member (used o there) unread

theorem canWrite_of_isSlot (used : o ∈ i.operands) (slot : o.isSlot = true) :
    m.top.canWrite o = true := by
  cases o with
  | lit v => cases slot
  | global n => rfl
  | var n => exact decide_eq_true (runs.locals ▸ safe.vars i member n used)
  | arg n => exact decide_eq_true (runs.args ▸ safe.args i member n used)

theorem lookup_ne_none (jump : i.opcode = .jump ∨ i.opcode = .jumpIf) {label : UInt32}
    (target : i.label? = some label) : m.top.routine.labels.lookup label ≠ none := by
  have defined := safe.labels.defined i member jump label target
  obtain ⟨before, j, after, first⟩ := exists_firstDefinition defined
  rw [runs.lookup, first.labelPosition?]
  exact Option.some_ne_none _

end Instructions

/-- The result of a function can always be handed over. -/
theorem leaving_of_awaits (awaits : Awaits m.top.entry m.below) (v : Value) :
    m.leaving v = .ok (.leave v) := by
  unfold leaving
  rcases awaits.cases with ⟨entry, below⟩ | ⟨slot, line, caller, rest, entry, below, writable, -⟩
  · rw [entry]
  · simp only [entry, below]
    rw [if_pos writable]

theorem isDynamic_of_callee {e : Environment} (safe : e.Safe) {depth found : Nat}
    (known : index.toNat < e.funcCount) (refused : callee limits e depth index found = .error c) :
    c.isDynamic = true := by
  have registered := (safe.dense index).2 known
  unfold callee at refused
  split at refused
  · next missing =>
    rw [missing] at registered
    cases registered
  · split at refused
    · cases refused
      rfl
    · split at refused
      · cases refused
        rfl
      · cases refused

/-- An instruction of a safe machine fails only by its data. -/
theorem isDynamic_of_fails (safe : m.Safe) (current : m.top.current? = some i)
    (fails : Fails limits m i c) : c.isDynamic = true := by
  obtain ⟨b, body, runs⟩ := safe.top
  have member : i ∈ b.code := mem_of_getElem? (runs.current?.symm.trans current)
  have shaped := body.shaped i member
  have readable {o : Operand} (used : o ∈ i.operands) {c : Cause} (failed : m.read o = .error c) :
      c.isDynamic = true := isDynamic_of_read body runs member used failed
  cases fails with
  | assign value | left value | not value | condition value | right left value | ret inside value
  | output value => exact readable (by simp) value
  | apply left right result => rcases apply_error result with rfl | rfl <;> rfl
  | store stores unwritable =>
    obtain ⟨slot, used⟩ := shaped.dest_isSlot stores
    rw [canWrite_of_isSlot body runs member used slot] at unwritable
    cases unwritable
  | jump missing => exact absurd missing (lookup_ne_none body runs member (.inl rfl) rfl)
  | jumpIf value nonzero missing =>
    exact absurd missing (lookup_ne_none body runs member (.inr rfl) rfl)
  | args values =>
    refine isDynamic_of_readAll body runs member (fun o used => ?_) values
    exact mem_cons_of_mem _ (mem_cons_of_mem _ used)
  | callee values refused =>
    exact isDynamic_of_callee safe.env (body.calls _ member _ _ rfl) refused
  | outside outside =>
    have inside := body.returns _ member rfl
    rw [runs.entry.1 outside] at inside
    cases inside
  | leaving inside value unwritable =>
    rw [leaving_of_awaits safe.awaits] at unwritable
    cases unwritable

/-! ## Rounds -/

theorem Safe.goto (safe : m.Safe) (pc : Nat) : (m.goto pc).Safe := by
  obtain ⟨b, body, runs⟩ := safe.top
  exact ⟨safe.env, ⟨b, body, runs.goto pc⟩, safe.below, safe.awaits⟩

theorem Safe.write (safe : m.Safe) (slot : Operand) (v : Value) : (m.write slot v).Safe := by
  obtain ⟨b, body, runs⟩ := safe.top
  cases slot with
  | global n => exact ⟨safe.env.setGlobal n v, safe.top, safe.below, safe.awaits⟩
  | var n => exact ⟨safe.env, ⟨b, body, runs.write (.var n) v⟩, safe.below, safe.awaits⟩
  | arg n => exact ⟨safe.env, ⟨b, body, runs.write (.arg n) v⟩, safe.below, safe.awaits⟩
  | lit w => exact safe

theorem Safe.withGas (safe : m.Safe) (gas : Nat) : ({ m with gas } : Machine).Safe :=
  ⟨safe.env, safe.top, safe.below, safe.awaits⟩

/-- A function gives back to a caller that runs a safe body. -/
theorem Safe.leave (safe : m.Safe) (inside : m.top.entry ≠ .ofModule) (v : Value) :
    (m.leave v).Safe := by
  have safeBelow := safe.below
  rcases safe.awaits.cases with ⟨entry, -⟩ | ⟨slot, line, caller, rest, entry, below, -, awaits⟩
  · exact absurd entry inside
  · rw [below] at safeBelow
    have resumed : ({ m with top := caller, below := rest } : Machine).Safe :=
      ⟨safe.env, safeBelow caller mem_cons_self,
        fun a member => safeBelow a (mem_cons_of_mem _ member), awaits⟩
    unfold Machine.leave
    simp only [entry, below]
    exact resumed.write slot v

theorem Safe.enter (safe : m.Safe) {c : Callable} {vs : List Value} {dest : Operand} {line : Nat}
    (found : m.env.funcs.get? index = some c) (count : vs.length = c.func.paramCount.toNat)
    (writable : m.top.canWrite dest = true) :
    (m.perform (.enter c vs (.ofCall dest line))).Safe := by
  have entered : (Activation.ofCall c vs (.ofCall dest line)).Runs c.func.toBody := by
    have laid : c = .ofFunc c.func := callable_eq_ofFunc rfl
    rw [laid]
    exact Activation.runs_ofCall count (by simp)
  have caller := safe.goto (m.top.pc + 1)
  refine ⟨safe.env, ⟨_, safe.env.bodies index c found, entered⟩, fun a member => ?_, ?_⟩
  · rcases mem_cons.1 member with rfl | older
    · exact caller.top
    · exact safe.below a older
  · exact ⟨writable, safe.awaits⟩

/-- What an instruction of a safe machine does leaves a safe machine. -/
theorem Safe.perform (safe : m.Safe) (current : m.top.current? = some i) {e : Effect}
    (does : Does limits m i e) : (m.perform e).Safe := by
  obtain ⟨b, body, runs⟩ := safe.top
  have member : i ∈ b.code := mem_of_getElem? (runs.current?.symm.trans current)
  have shaped := body.shaped i member
  cases does with
  | assign value writable | not value writable | binary left right result writable =>
    exact (safe.goto _).write _ _
  | label | jump target | taken value nonzero target | skipped value => exact safe.goto _
  | call values entered =>
    obtain ⟨found, count, -⟩ := callee_ok entered
    obtain ⟨slot, used⟩ := shaped.dest_isSlot rfl
    exact safe.enter found count (canWrite_of_isSlot body runs member used slot)
  | ret inside value left => exact safe.leave inside _
  | output value =>
    have next := safe.goto (m.top.pc + 1)
    exact ⟨next.env, next.top, next.below, next.awaits⟩

/-- A round leaves a safe machine, or it ends the run in an allowed way. -/
theorem safe_round (limits : Limits) (safe : m.Safe) : (m.round limits).Safe := by
  cases current : m.top.current? with
  | none =>
    rw [round_ended current, fallOff]
    by_cases outside : m.top.entry = .ofModule
    · rw [if_pos outside]
      exact safe.env
    · rw [if_neg outside, leaving_of_awaits safe.awaits]
      exact safe.leave outside 0
  | some i =>
    obtain ⟨b, body, runs⟩ := safe.top
    have member : i ∈ b.code := mem_of_getElem? (runs.current?.symm.trans current)
    have answers := effect_answers limits m (body.shaped i member)
    simp only [round, current]
    cases m.gas with
    | zero => exact ⟨safe.env, rfl⟩
    | succ gas =>
      cases done : m.effect limits i with
      | error f =>
        rw [done] at answers
        exact ⟨safe.env, isDynamic_of_fails safe current answers⟩
      | ok e =>
        rw [done] at answers
        exact (safe.withGas gas).perform current (answers.withGas gas)

/-- A safe machine fails only by its data. -/
theorem safe_run (limits : Limits) (safe : m.Safe) : (m.run limits).status.Safe := by
  refine run_induction (P := fun m ending => m.Safe → ending.status.Safe) ?_ ?_ ?_ m safe
  · intro m n goesOn rest safe
    have next := safe_round limits safe
    rw [goesOn] at next
    exact rest next
  · intro m v n finished safe
    have last := safe_round limits safe
    rwa [finished] at last
  · intro m f n failed safe
    have last := safe_round limits safe
    rwa [failed] at last

end Machine

end SlotLang
