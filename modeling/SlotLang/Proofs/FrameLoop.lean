import SlotLang.Proofs.Effects
import SlotLang.Proofs.Segments

/-!
# The frame loop

Two things hold of every run, whatever the program. It ends within its gas
(`run_ends_within_gas`): an instruction costs one unit, and a round that costs none takes off an
activation that a paid round or the host has put on. And at the head of every round the activations on
the stack are calls of defined functions, each with the slots, the place and the labels that its body
calls for (`stack_well_framed`).
-/

open List

namespace SlotLang

/-! ## Rounds and instructions -/

namespace Machine

variable {limits : Limits} {m n : Machine}

/-- Whether the next round carries out an instruction. -/
def carriesOut (limits : Limits) (m : Machine) : Bool :=
  m.top.current?.isSome && match m.round limits with
    | .running _ | .finished _ _ => true
    | .failed _ _ => false

/-- How many of the next rounds carry out an instruction. -/
def carriedOut (limits : Limits) : Nat → Machine → Nat
  | 0, _ => 0
  | k + 1, m =>
    (m.carriesOut limits).toNat + match m.round limits with
      | .running n => n.carriedOut limits k
      | .finished _ _ | .failed _ _ => 0

theorem gas_of_carriesOut (paid : m.carriesOut limits = true) : 0 < m.gas := by
  obtain ⟨some, done⟩ := Bool.and_eq_true_iff.1 paid
  obtain ⟨i, current⟩ := Option.isSome_iff_exists.1 some
  refine Nat.pos_of_ne_zero fun empty => ?_
  rw [round_unpaid current empty] at done
  cases done

/-- Every round that goes on takes the price of its instruction. -/
theorem gas_of_round (goesOn : m.round limits = .running n) :
    (m.carriesOut limits).toNat + n.gas = m.gas := by
  unfold carriesOut
  rw [goesOn, Bool.and_true]
  cases current : m.top.current? with
  | none =>
    rw [round_ended current] at goesOn
    rw [(shrinks_of_leave (leave_of_fallOff goesOn)).1]
    exact Nat.zero_add _
  | some i =>
    cases paid : m.gas with
    | zero => cases (round_unpaid current paid).symm.trans goesOn
    | succ gas =>
      cases done : m.effect limits i with
      | error f => cases (round_of_error current paid done).symm.trans goesOn
      | ok e =>
        rw [round_of_ok current paid done] at goesOn
        rw [perform_gas goesOn]
        exact Nat.add_comm 1 gas

theorem carriedOut_le_gas (k : Nat) (m : Machine) : m.carriedOut limits k ≤ m.gas := by
  induction k generalizing m with
  | zero => exact Nat.zero_le _
  | succ k ih =>
    rw [carriedOut]
    split
    · next n goesOn =>
      rw [← gas_of_round goesOn]
      exact Nat.add_le_add_left (ih n) _
    all_goals
      cases paid : m.carriesOut limits with
      | false => exact Nat.zero_le _
      | true => exact gas_of_carriesOut paid

theorem exists_last_round (limits : Limits) (m : Machine) :
    ∃ k n, m.after limits k = some n ∧ n.round limits = (m.run limits).status ∧
      k + 1 ≤ m.roundsLeft := by
  refine run_induction (P := fun m ending => ∃ k n, m.after limits k = some n ∧
    n.round limits = ending.status ∧ k + 1 ≤ m.roundsLeft) ?_ ?_ ?_ m
  · rintro m n goesOn ⟨k, last, reached, ended, inTime⟩
    refine ⟨k + 1, last, ?_, ended, Nat.le_trans (Nat.succ_le_succ inTime) (roundsLeft_of_round goesOn)⟩
    rw [after, goesOn]
    exact reached
  · exact fun m v n finished => ⟨0, m, rfl, finished, m.roundsLeft_pos⟩
  · exact fun m f n failed => ⟨0, m, rfl, failed, m.roundsLeft_pos⟩

/-- A run comes to an end: some round is the last, it is no later than twice the gas allows, and no
more instructions are carried out than there is gas. -/
structure EndsWithin (limits : Limits) (m : Machine) (ending : Ending) : Prop where
  rounds : ∃ k last, m.after limits k = some last ∧ last.round limits = ending.status ∧
    k + 1 ≤ 2 * limits.gas + 1
  instructions : ∀ k, m.carriedOut limits k ≤ limits.gas

/-- The machine of a call from outside. -/
def ofHost (limits : Limits) (e : Environment) (c : Callable) (args : List Value) : Machine where
  env := e
  top := .ofCall c args .ofHost
  gas := limits.gas

theorem endsWithin_run (alone : m.below = []) (full : m.gas = limits.gas) :
    m.EndsWithin limits (m.run limits) where
  rounds := by
    obtain ⟨k, last, reached, ended, inTime⟩ := exists_last_round limits m
    rw [roundsLeft, alone, full] at inTime
    exact ⟨k, last, reached, ended, inTime⟩
  instructions k := full ▸ carriedOut_le_gas k m

end Machine

/-- Every run ends, of a program and of a call alike. The loop goes round at most `2 * gas + 1` times,
and carries out at most `gas` instructions. A call that is refused does not enter the loop. -/
theorem run_ends_within_gas (limits : Limits) (e : Environment) :
    (∀ p, ∃ ending, (Machine.start limits e p).EndsWithin limits ending ∧
      e.run limits p = .ofEnding (fun _ => ()) ending) ∧
    ∀ index args,
      (∃ cause, Machine.callee limits e 0 index args.length = .error cause ∧
        e.call limits index args = ⟨.error ⟨cause, 0⟩, [], e.clear⟩) ∨
      ∃ c ending, Machine.callee limits e 0 index args.length = .ok c ∧
        (Machine.ofHost limits e c args).EndsWithin limits ending ∧
        e.call limits index args = .ofEnding (·.getD 0) ending := by
  refine ⟨fun p => ⟨_, Machine.endsWithin_run rfl rfl, e.run_eq_ofEnding limits p⟩, fun index args => ?_⟩
  unfold Environment.call
  cases entered : Machine.callee limits e 0 index args.length with
  | error cause => exact .inl ⟨cause, rfl, rfl⟩
  | ok c => exact .inr ⟨c, _, rfl, Machine.endsWithin_run rfl rfl, rfl⟩

/-! ## Activations -/

/-- The machine finds a label where it is first defined. -/
theorem labelPosition?_eq_findIdx? (code : List Instruction) (label : UInt32) :
    labelPosition? code label = code.findIdx? fun i => i.definedLabel? = some label := by
  by_cases defined : label ∈ definedLabels code
  · obtain ⟨before, i, after, first⟩ := exists_firstDefinition defined
    have fresh : before.findIdx? (fun i => i.definedLabel? = some label) = none := by
      rw [findIdx?_eq_none_iff]
      intro j member
      exact decide_eq_false fun defines => first.fresh (mem_definedLabels member defines)
    rw [first.labelPosition?, first.split, findIdx?_append, fresh, findIdx?_cons,
      if_pos (decide_eq_true first.defines)]
    simp
  · rw [labelPosition?_eq_none defined, eq_comm, findIdx?_eq_none_iff]
    intro i member
    exact decide_eq_false fun defines => defined (mem_definedLabels member defines)

/-- An activation has the slots of a function, stands in its body or at the end of it, and finds every
label where the body first defines it. -/
structure Activation.Fits (a : Activation) (f : Func) : Prop where
  args : a.args.size = f.paramCount.toNat
  locals : a.locals.size = f.localCount.toNat
  code : a.routine.code.toList = f.body
  place : a.pc ≤ f.body.length
  labels : ∀ label, a.routine.labels.lookup label =
    f.body.findIdx? fun i => i.definedLabel? = some label

namespace Activation

variable {a b : Activation} {f : Func}

theorem Runs.fits (runs : a.Runs f.toBody) (place : a.pc ≤ f.body.length) : a.Fits f where
  args := runs.args
  locals := runs.locals
  code := by rw [runs.routine]; rfl
  place := place
  labels label := (runs.lookup label).trans (labelPosition?_eq_findIdx? f.body label)

theorem Fits.write (fits : a.Fits f) (slot : Operand) (v : Value) : (a.write slot v).Fits f := by
  obtain ⟨args, locals, code, place, labels⟩ := fits
  cases slot with
  | var n => exact ⟨args, Array.size_setIfInBounds.trans locals, code, place, labels⟩
  | arg n => exact ⟨Array.size_setIfInBounds.trans args, locals, code, place, labels⟩
  | global n | lit w => exact ⟨args, locals, code, place, labels⟩

theorem fits_ofCall {c : Callable} {args : List Value} {entry : Entry} (called : entry ≠ .ofModule)
    (count : args.length = c.func.paramCount.toNat) : (ofCall c args entry).Fits c.func := by
  have laid : c = .ofFunc c.func := callable_eq_ofFunc rfl
  have runs : (ofCall c args entry).Runs c.func.toBody := by
    rw [laid]
    exact runs_ofCall count called
  exact runs.fits (Nat.zero_le _)

theorem Fits.place_of_current (fits : a.Fits f) {i : Instruction} (current : a.current? = some i) :
    a.pc + 1 ≤ f.body.length := by
  obtain ⟨inside, -⟩ := Array.getElem?_eq_some_iff.1 current
  rwa [← fits.code]

theorem Fits.place_of_lookup (fits : a.Fits f) {label : UInt32} {pc : Nat}
    (found : a.routine.labels.lookup label = some pc) : pc ≤ f.body.length := by
  rw [fits.labels, findIdx?_eq_some_iff_getElem] at found
  exact Nat.le_of_lt found.1

end Activation

/-! ## The stack -/

def Entry.frames : Entry → Nat
  | .ofModule => 1
  | .ofHost | .ofCall _ _ => 0

/-- Calls all the way down to the activation that the run began with. -/
inductive Rooted (base : Entry) : List Entry → Prop where
  | base : Rooted base [base]
  | call {slot : Operand} {line : Nat} {es : List Entry} (rest : Rooted base es) :
    Rooted base (.ofCall slot line :: es)

namespace Rooted

variable {base e : Entry} {es : List Entry}

theorem mem (rooted : Rooted base es) : base ∈ es := by
  induction rooted with
  | base => exact mem_singleton_self base
  | call rest ih => exact mem_cons_of_mem _ ih

variable (outer : base = .ofModule ∨ base = .ofHost)

include outer

theorem frames_add_length (rooted : Rooted base es) :
    base.frames + (es.filter (· ≠ .ofModule)).length = es.length := by
  induction rooted with
  | base => rcases outer with rfl | rfl <;> rfl
  | call rest ih =>
    rw [filter_cons_of_pos (by simp), length_cons, length_cons, ← ih]
    exact (Nat.add_assoc _ _ 1).symm

/-- Of the calls, the host's is the last one, if there is one. -/
theorem eq_ofHost_iff (rooted : Rooted base es) {above under : List Entry}
    (split : es.filter (· ≠ .ofModule) = above ++ e :: under) :
    e = .ofHost ↔ base = .ofHost ∧ under = [] := by
  induction rooted generalizing above with
  | base =>
    rcases outer with rfl | rfl
    · cases above <;> cases split
    · cases above with
      | nil => cases split; simp
      | cons first above => cases above <;> cases split
  | call rest ih =>
    rw [filter_cons_of_pos (by simp)] at split
    cases above with
    | nil =>
      cases split
      constructor
      · intro host
        cases host
      · rintro ⟨rfl, none⟩
        exact absurd (by decide) (filter_eq_nil_iff.1 none _ rest.mem)
    | cons first above => exact ih (List.cons.inj split).2

end Rooted

namespace Machine

variable {limits : Limits} {base : Entry} {m n : Machine}

/-- What holds of the calls in progress when the run began with `base`: there are no more than the
limit allows, each is of a function that is defined, and only the lowest can be the host's. -/
structure WellFramed (limits : Limits) (base : Entry) (m : Machine) : Prop where
  height : base.frames + m.calls.length ≤ max limits.maxDepth base.frames
  fits : ∀ a ∈ m.calls, ∃ index c, m.env.funcs.get? index = some c ∧ a.Fits c.func
  host : ∀ above a under, m.calls = above ++ a :: under →
    (a.entry = .ofHost ↔ base = .ofHost ∧ under = [])

/-- The same of the whole stack, in a form that every round keeps. -/
structure Stacked (limits : Limits) (base : Entry) (m : Machine) : Prop where
  depth : m.depth ≤ max limits.maxDepth base.frames
  fits : ∀ a ∈ m.stack, a.entry ≠ .ofModule →
    ∃ index c, m.env.funcs.get? index = some c ∧ a.Fits c.func
  rooted : Rooted base (m.stack.map (·.entry))

theorem Stacked.wellFramed (outer : base = .ofModule ∨ base = .ofHost)
    (stacked : m.Stacked limits base) : m.WellFramed limits base := by
  have entries : m.calls.map (·.entry) = (m.stack.map (·.entry)).filter (· ≠ .ofModule) := by
    rw [calls, filter_map]
    rfl
  refine ⟨?_, fun a called => ?_, fun above a under split => ?_⟩
  · have height := stacked.rooted.frames_add_length outer
    rw [← entries, length_map, length_map] at height
    rw [height]
    exact stacked.depth
  · obtain ⟨member, called⟩ := mem_filter.1 called
    exact stacked.fits a member (of_decide_eq_true called)
  · rw [split, map_append, map_cons] at entries
    rw [stacked.rooted.eq_ofHost_iff outer entries.symm, map_eq_nil_iff]

/-- What a round does to the top leaves it at a place in its body. -/
theorem fits_of_stays {f : Func} (fits : m.top.Fits f) {i : Instruction}
    (current : m.top.current? = some i) (shape : SameShape m n)
    (place : n.top.pc = m.top.pc + 1 ∨ ∃ label, m.top.routine.labels.lookup label = some n.top.pc) :
    n.top.Fits f where
  args := shape.args.trans fits.args
  locals := shape.locals.trans fits.locals
  code := by rw [shape.routine, fits.code]
  place := by
    rcases place with next | ⟨label, found⟩
    · rw [next]
      exact fits.place_of_current current
    · exact fits.place_of_lookup found
  labels := by rw [shape.routine]; exact fits.labels

theorem Stacked.round (stacked : m.Stacked limits base) (goesOn : m.round limits = .running n) :
    n.Stacked limits base := by
  obtain ⟨depth, fits, rooted⟩ := stacked
  cases moves_of_round goesOn with
  | stays current shape place =>
    refine ⟨shape.depth ▸ depth, fun a member called => ?_, ?_⟩
    · rw [shape.funcs]
      rcases mem_cons.1 member with rfl | older
      · obtain ⟨index, c, known, fits⟩ := fits m.top mem_cons_self (shape.entry ▸ called)
        exact ⟨index, c, known, fits_of_stays fits current shape place⟩
      · exact fits a (mem_cons_of_mem _ (shape.below ▸ older)) called
    · rw [stack, shape.below, map_cons, shape.entry]
      exact rooted
  | enters current target entered top below funcs =>
    obtain ⟨known, count, shallow⟩ := callee_ok entered
    have grown : n.stack = n.top :: m.next.top :: m.below := congrArg (n.top :: ·) below
    refine ⟨?_, fun a member called => ?_, ?_⟩
    · rw [Machine.depth, below]
      exact Nat.le_trans shallow (Nat.le_max_left _ _)
    · rw [funcs]
      rw [grown, mem_cons, mem_cons] at member
      rcases member with rfl | rfl | older
      · exact ⟨_, _, known, top ▸ Activation.fits_ofCall (by simp) count⟩
      · obtain ⟨index, c, known, fits⟩ := fits m.top mem_cons_self called
        exact ⟨index, c, known, fits_of_stays fits current (.goto m _) (.inl rfl)⟩
      · exact fits a (mem_cons_of_mem _ older) called
    · rw [grown, map_cons, top]
      exact .call rooted
  | leaves entry below top funcs =>
    have shrunk : m.stack = m.top :: _ :: n.below := congrArg (m.top :: ·) below
    rw [shrunk] at fits rooted
    refine ⟨?_, fun a member called => ?_, ?_⟩
    · rw [Machine.depth, below] at depth
      exact Nat.le_of_succ_le depth
    · rw [funcs]
      rcases mem_cons.1 member with rfl | older
      · rw [top, write_entry] at called
        obtain ⟨index, c, known, fits⟩ :=
          fits _ (mem_cons_of_mem _ mem_cons_self) called
        exact ⟨index, c, known, top ▸ fits.write _ _⟩
      · exact fits a (mem_cons_of_mem _ (mem_cons_of_mem _ older)) called
    · rw [map_cons, entry] at rooted
      cases rooted with
      | call rest => rwa [stack, map_cons, top, write_entry]

theorem stacked_after (stacked : m.Stacked limits base) {k : Nat}
    (reached : m.after limits k = some n) : n.Stacked limits base := by
  induction k generalizing n with
  | zero =>
    cases reached
    exact stacked
  | succ k ih =>
    obtain ⟨x, before, goesOn⟩ := after_succ reached
    exact (ih before).round goesOn

theorem stacked_start (limits : Limits) (e : Environment) (p : Program) :
    (start limits e p).Stacked limits .ofModule where
  depth := Nat.le_max_right _ _
  fits _ member called := absurd (mem_singleton.1 member ▸ rfl) called
  rooted := .base

theorem stacked_ofHost {e : Environment} {index : UInt32} {args : List Value} {c : Callable}
    (entered : callee limits e 0 index args.length = .ok c) :
    (ofHost limits e c args).Stacked limits .ofHost := by
  obtain ⟨known, count, deep⟩ := callee_ok entered
  refine ⟨Nat.le_trans deep (Nat.le_max_left _ _), fun a member _ => ?_, .base⟩
  cases mem_singleton.1 member
  exact ⟨index, c, known, Activation.fits_ofCall (by simp) count⟩

end Machine

/-- At the head of every round the calls in progress are well framed, in the run of a program and in a
call from outside. Once the run or the call is over, with a fault or without one, the environment has
no call in progress. -/
theorem stack_well_framed (limits : Limits) (e : Environment) :
    (∀ p, (∀ k m, (Machine.start limits e p).after limits k = some m →
        m.WellFramed limits .ofModule) ∧
      (e.run limits p).env.frames = []) ∧
    ∀ index args, (∀ c, Machine.callee limits e 0 index args.length = .ok c →
        ∀ k m, (Machine.ofHost limits e c args).after limits k = some m →
          m.WellFramed limits .ofHost) ∧
      (e.call limits index args).env.frames = [] := by
  refine ⟨fun p => ⟨fun k m reached => ?_, rfl⟩,
    fun index args => ⟨fun c entered k m reached => ?_, ?_⟩⟩
  · exact (Machine.stacked_after (Machine.stacked_start limits e p) reached).wellFramed (.inl rfl)
  · exact (Machine.stacked_after (Machine.stacked_ofHost entered) reached).wellFramed (.inr rfl)
  · unfold Environment.call
    split <;> rfl

end SlotLang
