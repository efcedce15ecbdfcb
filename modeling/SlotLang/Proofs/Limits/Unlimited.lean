import SlotLang.Proofs.Effects
import SlotLang.Proofs.Limits.Widening

/-!
# Limits only cut a run short

The run with unlimited gas is `Machine.freeRun`, in which instructions are counted
(`Machine.executed`) and not paid for. A run that ran out of gas stands where that run stands just
before the first instruction that could not be paid, and any other run ends as that run does
(`Machine.followsFree_run`). No instruction fails for want of gas, so the two cases exclude each other.
-/

namespace SlotLang

namespace Machine

variable {limits : Limits} {m n : Machine}

/-! ## No instruction reports a lack of gas -/

theorem effect_not_ranOut (limits : Limits) (m : Machine) (i : Instruction) :
    ¬ RanOut (m.effect limits i) := by
  rintro ⟨limit, line, failed⟩
  have meets := effect_meets limits m i
  rw [failed] at meets
  exact meets.1

theorem fallOff_not_ranOut {f : Fault} (failed : m.fallOff = .failed f n) :
    ¬ RanOut (.error f : Except Fault (Option Value)) := by
  rintro ⟨limit, line, same⟩
  cases same
  obtain ⟨slot, cause⟩ := fault_of_fallOff failed
  cases cause

/-! ## Unlimited gas -/

/-- What a round costs: the end of the code is free. -/
def cost (m : Machine) : Nat :=
  if m.top.current?.isSome then 1 else 0

/-- A round that need not be paid for. -/
def freeRound (limits : Limits) (m : Machine) : Status :=
  match m.top.current? with
  | none => m.fallOff
  | some i =>
    match m.effect limits i with
    | .error f => .failed f m
    | .ok e => m.perform e

def freeRun (limits : Limits) : Nat → Machine → Status
  | 0, m => .running m
  | rounds + 1, m =>
    match m.freeRound limits with
    | .running n => freeRun limits rounds n
    | ended => ended

/-- How many instructions a run with unlimited gas executes in some rounds. One that fails counts. -/
def executed (limits : Limits) : Nat → Machine → Nat
  | 0, _ => 0
  | rounds + 1, m =>
    m.cost + match m.freeRound limits with
      | .running n => executed limits rounds n
      | _ => 0

/-- The run with unlimited gas executes more than so many instructions. -/
def ExecutesMore (limits : Limits) (count : Nat) (m : Machine) : Prop :=
  ∃ rounds, count < executed limits rounds m

/-- The run with unlimited gas does not stop. -/
def NeverStops (limits : Limits) (m : Machine) : Prop :=
  ∀ rounds, ∃ n, freeRun limits rounds m = .running n

/-- The run with unlimited gas comes to a machine that has executed so many instructions and is about to
execute another one. -/
def ComesTo (limits : Limits) (count : Nat) (m n : Machine) : Prop :=
  ∃ rounds, freeRun limits rounds m = .running n ∧ executed limits rounds m = count ∧
    n.top.current?.isSome

theorem freeRound_withGas (limits : Limits) (m : Machine) (gas : Nat) :
    ({ m with gas } : Machine).freeRound limits = (m.freeRound limits).withGas gas := by
  unfold freeRound
  change (match m.top.current? with
    | none => _
    | some i => match m.effect limits i with | .error f => _ | .ok e => _) = _
  cases m.top.current? with
  | none => exact fallOff_withGas m gas
  | some i =>
    dsimp only
    cases m.effect limits i with
    | error f => rfl
    | ok e => exact perform_withGas m e gas

theorem freeRun_withGas (limits : Limits) (rounds : Nat) (m : Machine) (gas : Nat) :
    freeRun limits rounds { m with gas } = (freeRun limits rounds m).withGas gas := by
  induction rounds generalizing m with
  | zero => rfl
  | succ rounds ih =>
    unfold freeRun
    rw [freeRound_withGas]
    cases m.freeRound limits with
    | running n => exact ih n
    | finished v n => rfl
    | failed f n => rfl

theorem executed_withGas (limits : Limits) (rounds : Nat) (m : Machine) (gas : Nat) :
    executed limits rounds { m with gas } = executed limits rounds m := by
  induction rounds generalizing m with
  | zero => rfl
  | succ rounds ih =>
    unfold executed
    rw [freeRound_withGas]
    cases m.freeRound limits with
    | running n => exact congrArg (m.cost + ·) (ih n)
    | finished v n => rfl
    | failed f n => rfl

/-- A round is paid and does what it does for free, or it cannot be paid. -/
theorem round_cases (limits : Limits) (m : Machine) :
    (m.gas = 0 ∧ ∃ i, m.top.current? = some i ∧
        m.round limits = .failed ⟨.gasExhausted limits.gas, i.line⟩ m) ∨
      m.cost ≤ m.gas ∧ ∃ gas, m.round limits = (m.freeRound limits).withGas gas ∧
        ∀ n, m.freeRound limits = .running n → gas + m.cost = m.gas := by
  cases current : m.top.current? with
  | none =>
    have free : m.freeRound limits = m.fallOff := by simp only [freeRound, current]
    right
    refine ⟨by simp [cost, current], m.gas, ?_, by simp [cost, current]⟩
    rw [round_ended current, free]
    exact fallOff_withGas m m.gas
  | some i =>
    cases paid : m.gas with
    | zero => exact .inl ⟨rfl, i, rfl, round_unpaid current paid⟩
    | succ gas =>
      right
      refine ⟨by simp [cost, current], ?_⟩
      cases done : m.effect limits i with
      | error f =>
        have free : m.freeRound limits = .failed f m := by simp only [freeRound, current, done]
        refine ⟨m.gas, ?_, by simp [free]⟩
        rw [round_of_error current paid done, free]
        rfl
      | ok e =>
        have free : m.freeRound limits = m.perform e := by simp only [freeRound, current, done]
        refine ⟨gas, ?_, by simp [cost, current]⟩
        rw [round_of_ok current paid done, free, perform_withGas]

theorem freeRound_not_ranOut {f : Fault} (failed : m.freeRound limits = .failed f n) :
    ¬ RanOut (.error f : Except Fault (Option Value)) := by
  unfold freeRound at failed
  split at failed
  · exact fallOff_not_ranOut failed
  · next i current =>
    split at failed
    · next f' done =>
      cases failed
      rintro ⟨limit, line, same⟩
      cases same
      exact effect_not_ranOut limits m i ⟨limit, line, done⟩
    · exact absurd failed (perform_ne_failed m _ f n)

theorem freeRun_succ (goesOn : m.freeRound limits = .running n) (rounds : Nat) :
    freeRun limits (rounds + 1) m = freeRun limits rounds n := by
  simp only [freeRun, goesOn]

theorem executed_succ (goesOn : m.freeRound limits = .running n) (rounds : Nat) :
    executed limits (rounds + 1) m = m.cost + executed limits rounds n := by
  simp only [executed, goesOn]

/-- A machine that is about to execute an instruction executes it in the next round. -/
theorem ComesTo.executesMore {count : Nat} (comes : ComesTo limits count m n) :
    ExecutesMore limits count m := by
  obtain ⟨rounds, stands, executedCount, current⟩ := comes
  refine ⟨rounds + 1, ?_⟩
  induction rounds generalizing m count with
  | zero =>
    cases stands
    simp only [executed] at executedCount ⊢
    simp [cost, current]
    omega
  | succ rounds ih =>
    cases next : m.freeRound limits with
    | running k =>
      rw [freeRun_succ next] at stands
      rw [executed_succ next] at executedCount ⊢
      have later := ih stands rfl
      omega
    | finished v k | failed f k => simp [freeRun, next] at stands

theorem withGas_withGas (status : Status) (gas gas' : Nat) :
    (status.withGas gas).withGas gas' = status.withGas gas' := by
  cases status <;> rfl

/-- How a run that pays for its instructions ended, seen from the run that does not. -/
inductive FollowsFree (limits : Limits) (m : Machine) : Ending → Prop where
  /-- It stands before an instruction that it cannot pay. -/
  | unpaid {n last : Machine} {i : Instruction} (comes : ComesTo limits m.gas m n)
    (current : n.top.current? = some i) (outputs : last.outputs = n.outputs)
    (env : last.env = n.env) :
    FollowsFree limits m ⟨.error ⟨.gasExhausted limits.gas, i.line⟩, last⟩
  /-- It ended as the other run does. -/
  | whole {ending : Ending} (paid : ¬ RanOut ending.result) (rounds : Nat)
    (ended : (freeRun limits rounds m).withGas 0 = ending.status.withGas 0)
    (enough : ∀ rounds, executed limits rounds m ≤ m.gas) : FollowsFree limits m ending

theorem followsFree_of_running {ending : Ending} (goesOn : m.round limits = .running n)
    (rest : FollowsFree limits n ending) : FollowsFree limits m ending := by
  rcases round_cases limits m with ⟨-, i, -, failed⟩ | ⟨paid, gas, same, spent⟩
  · cases goesOn.symm.trans failed
  rw [goesOn] at same
  cases free : m.freeRound limits with
  | finished v k | failed f k => simp [free, Status.withGas] at same
  | running k =>
    simp only [free, Status.withGas, Status.running.injEq] at same
    subst same
    have budget := spent k free
    cases rest with
    | @unpaid l last i comes current outputs env =>
      obtain ⟨rounds, stands, count, more⟩ := comes
      rw [freeRun_withGas] at stands
      rw [executed_withGas] at count
      cases there : freeRun limits rounds k with
      | finished v k' | failed f k' => simp [there, Status.withGas] at stands
      | running k' =>
        simp only [there, Status.withGas, Status.running.injEq] at stands
        subst stands
        have comes : ComesTo limits m.gas m k' := by
          refine ⟨rounds + 1, (freeRun_succ free rounds).trans there, ?_, more⟩
          rw [executed_succ free, count, Nat.add_comm]
          exact budget
        exact .unpaid comes current outputs env
    | whole paid rounds ended enough =>
      refine .whole paid (rounds + 1) ?_ fun rounds => ?_
      · rw [freeRun_succ free, ← ended, freeRun_withGas limits rounds k gas, withGas_withGas]
      · cases rounds with
        | zero => exact Nat.zero_le _
        | succ rounds =>
          have later := enough rounds
          rw [executed_withGas] at later
          rw [executed_succ free]
          simp only at later
          omega

theorem followsFree_of_ended {ending : Ending} (paid : ¬ RanOut ending.result) (covered : m.cost ≤ m.gas)
    (ended : (m.freeRound limits).withGas 0 = ending.status.withGas 0) :
    FollowsFree limits m ending := by
  have stopped (k : Machine) : m.freeRound limits ≠ .running k := by
    intro running
    obtain ⟨result, last⟩ := ending
    rw [running] at ended
    cases result <;> cases ended
  refine .whole paid 1 ?_ fun rounds => ?_
  · rw [← ended]
    unfold freeRun
    split
    · next k running => exact absurd running (stopped k)
    · rfl
  · cases rounds with
    | zero => exact Nat.zero_le _
    | succ rounds =>
      unfold executed
      split
      · next k running => exact absurd running (stopped k)
      · exact covered

theorem followsFree_run (limits : Limits) (m : Machine) : FollowsFree limits m (m.run limits) := by
  refine run_induction (P := FollowsFree limits) (fun m n => followsFree_of_running) ?_ ?_ m
  · intro m v n finished
    rcases round_cases limits m with ⟨-, i, -, failed⟩ | ⟨covered, gas, same, -⟩
    · cases finished.symm.trans failed
    · refine followsFree_of_ended (by simp [RanOut]) covered ?_
      rw [← withGas_withGas _ gas, ← same, finished]
      rfl
  · intro m f n failed
    rcases round_cases limits m with ⟨empty, i, current, unpaid⟩ | ⟨covered, gas, same, -⟩
    · cases failed.symm.trans unpaid
      have comes : ComesTo limits m.gas m m := ⟨0, rfl, empty.symm, by simp [current]⟩
      exact .unpaid comes current rfl rfl
    · have free : ∃ k, m.freeRound limits = .failed f k := by
        rw [failed] at same
        cases there : m.freeRound limits with
        | failed f' k => simp_all [Status.withGas]
        | running k | finished v k => simp [there, Status.withGas] at same
      obtain ⟨k, free⟩ := free
      refine followsFree_of_ended (freeRound_not_ranOut free) covered ?_
      rw [← withGas_withGas _ gas, ← same, failed]
      rfl

end Machine

/-! ## Programs -/

theorem Machine.Ending.status_ne_running (e : Machine.Ending) (m : Machine) :
    e.status ≠ .running m := by
  obtain ⟨result, last⟩ := e
  cases result <;> simp [status]

/-- A status that is an ending but for the gas gives what the ending gives. -/
theorem Machine.exists_status {status : Status} {ending : Machine.Ending}
    (same : status.withGas 0 = ending.status.withGas 0) :
    ∃ last : Machine.Ending, status = last.status ∧
      RunResult.ofEnding (fun _ => ()) ending = .ofEnding (fun _ => ()) last := by
  obtain ⟨result, m⟩ := ending
  have machine {n : Machine} (equal : ({ n with gas := 0 } : Machine) = { m with gas := 0 }) :
      n.outputs = m.outputs ∧ n.env = m.env := by
    simp only [Machine.mk.injEq] at equal
    exact ⟨equal.2.2.2.1, equal.1⟩
  cases result with
  | ok v =>
    cases status with
    | finished w n =>
      injection same with value equal
      obtain ⟨outputs, env⟩ := machine equal
      exact ⟨⟨.ok w, n⟩, rfl, by simp [RunResult.ofEnding, outputs, env, Except.map, Environment.clear]⟩
    | running n | failed f n => cases same
  | error f =>
    cases status with
    | failed f' n =>
      injection same with fault equal
      obtain ⟨outputs, env⟩ := machine equal
      exact ⟨⟨.error f', n⟩, rfl, by simp [RunResult.ofEnding, outputs, env, fault, Environment.clear]⟩
    | running n | finished w n => cases same

/-- **Limits only cut a run short.** Unless it reached a limit, a run gives the same under wider limits;
if it did, it has printed what the run under wider limits prints first. A run ends for want of gas if
and only if the run with unlimited gas executes more instructions than the limit, or does not stop;
it then leaves what that run has just before the first instruction beyond the limit. Any other run
ends as the run with unlimited gas does. -/
theorem limits_only_cut (e : Environment) (p : Program) (limits wider : Limits)
    (deeper : limits.maxDepth ≤ wider.maxDepth) (longer : limits.gas ≤ wider.gas) :
    let r := e.run limits p
    let r' := e.run wider p
    let m := Machine.start limits e p
    (¬ IsCut r.result → r'.result = r.result ∧ r'.outputs = r.outputs ∧ r'.env = r.env) ∧
      (IsCut r.result → r.outputs <+: r'.outputs) ∧
      (RanOut r.result ↔ m.ExecutesMore limits limits.gas ∨ m.NeverStops limits) ∧
      (RanOut r.result → ∃ n, m.ComesTo limits limits.gas n ∧
        r.outputs = n.outputs.toList ∧ r.env = n.env.clear) ∧
      (¬ RanOut r.result → ∃ rounds ending, m.freeRun limits rounds = ending.status ∧
        r = .ofEnding (fun _ => ()) ending) := by
  intro r r' m
  obtain ⟨extra, more⟩ := Nat.exists_eq_add_of_le longer
  have start : Machine.start wider e p = m.refuel extra := by
    simp [Machine.start, Machine.refuel, m, more]
  have run : r = .ofEnding (fun _ => ()) (m.run limits) := rfl
  have run' : r' = .ofEnding (fun _ => ()) ((m.refuel extra).run wider) := start ▸ rfl
  obtain ⟨same, first⟩ := Machine.run_wider deeper extra m
  have follows := Machine.followsFree_run limits m
  generalize m.run limits = ending at run same first follows
  have cut : IsCut r.result ↔ IsCut ending.result := run ▸ isCut_map
  have out : RanOut r.result ↔ RanOut ending.result := run ▸ ranOut_map
  refine ⟨fun whole => ?_, fun _ => ?_, ?_⟩
  · rw [run', same (cut.not.1 whole), run]
    exact ⟨rfl, rfl, rfl⟩
  · rw [run, run']
    exact first
  · rw [out]
    cases follows with
    | @unpaid n last i comes current outputs env =>
      have spent : RanOut (.error ⟨.gasExhausted limits.gas, i.line⟩ : Except Fault (Option Value)) :=
        ⟨_, _, rfl⟩
      refine ⟨iff_of_true spent (.inl comes.executesMore), fun _ => ⟨n, comes, ?_, ?_⟩, fun paid => ?_⟩
      · rw [run]
        exact congrArg Array.toList outputs
      · rw [run, ← env]
        rfl
      · exact absurd spent paid
    | whole paid rounds ended enough =>
      have few : ¬ m.ExecutesMore limits limits.gas := by
        rintro ⟨rounds, beyond⟩
        exact absurd (enough rounds) (Nat.not_le.2 beyond)
      have stops : ∃ last : Machine.Ending, m.freeRun limits rounds = last.status ∧
          r = .ofEnding (fun _ => ()) last := by
        rw [run]
        exact Machine.exists_status ended
      refine ⟨iff_of_false paid ?_, fun spent => absurd spent paid, fun _ => ⟨rounds, stops⟩⟩
      rintro (many | endless)
      · exact few many
      · obtain ⟨n, running⟩ := endless rounds
        obtain ⟨last, stopped, -⟩ := stops
        rw [running] at stopped
        exact last.status_ne_running n stopped.symm

/-- Prints seven and then divides by zero. -/
def printAndDivide : Program where
  code := [⟨.assign, [.global 0, .lit 7], 1⟩, ⟨.output, [.global 0], 2⟩,
    ⟨.binary .div, [.global 0, .lit 1, .lit 0], 3⟩]
  funcs := []
  globalCount := 1

/-- The division counts although it fails: with gas for two instructions the run ends before it. -/
theorem limits_only_cut_printAndDivide :
    (Machine.start ⟨1, 2⟩ {} printAndDivide).ExecutesMore ⟨1, 2⟩ 2 ∧
      RanOut (Environment.run ⟨1, 2⟩ {} printAndDivide).result ∧
      (Environment.run ⟨1, 2⟩ {} printAndDivide).outputs <+:
        (Environment.run ⟨4, 9⟩ {} printAndDivide).outputs ∧
      ¬ IsCut (Environment.run ⟨1, 3⟩ {} printAndDivide).result ∧
      (Environment.run ⟨4, 9⟩ {} printAndDivide).result =
        (Environment.run ⟨1, 3⟩ {} printAndDivide).result := by
  have many : (Machine.start ⟨1, 2⟩ {} printAndDivide).ExecutesMore ⟨1, 2⟩ 2 := ⟨3, by cbv⟩
  obtain ⟨-, first, out, -⟩ := limits_only_cut {} printAndDivide ⟨1, 2⟩ ⟨4, 9⟩
    (by decide) (by decide)
  obtain ⟨same, -⟩ := limits_only_cut {} printAndDivide ⟨1, 3⟩ ⟨4, 9⟩
    (by decide) (by decide)
  have spent := out.2 (.inl many)
  have divided : (Environment.run ⟨1, 3⟩ {} printAndDivide).result = .error ⟨.divisionByZero, 3⟩ := by
    cbv
  have whole : ¬ IsCut (Environment.run ⟨1, 3⟩ {} printAndDivide).result := by
    simp [divided, IsCut, RanOut, TooDeep]
  exact ⟨many, spent, first (.inl spent), whole, (same whole).1⟩

end SlotLang
