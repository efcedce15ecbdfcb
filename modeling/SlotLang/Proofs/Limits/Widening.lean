import SlotLang.Proofs.Stepping

/-!
# Runs under wider limits

A run that ends for a reason of its own ends the same way under wider limits, and one that reaches a
limit has printed what a longer run prints first (`Machine.run_wider`). Of all that a machine looks at,
only a call looks at a limit, and a round at the gas.
-/

namespace SlotLang

/-! ## Results -/

section

variable {α : Type}

/-- The gas ran out. -/
def RanOut (r : Except Fault α) : Prop :=
  ∃ limit line, r = .error ⟨.gasExhausted limit, line⟩

/-- Calls were nested too deeply. -/
def TooDeep (r : Except Fault α) : Prop :=
  ∃ limit line, r = .error ⟨.depthExceeded limit, line⟩

/-- A limit ended the run. -/
def IsCut (r : Except Fault α) : Prop :=
  RanOut r ∨ TooDeep r

theorem ranOut_map {β : Type} {f : α → β} {r : Except Fault α} : RanOut (r.map f) ↔ RanOut r := by
  simp [RanOut, map_eq_error]

theorem isCut_map {β : Type} {f : α → β} {r : Except Fault α} : IsCut (r.map f) ↔ IsCut r := by
  simp [IsCut, RanOut, TooDeep, map_eq_error]

end

/-! ## Wider limits -/

/-- The same machine with more gas. -/
def Machine.refuel (extra : Nat) (m : Machine) : Machine :=
  { m with gas := m.gas + extra }

def Status.refuel (extra : Nat) : Status → Status
  | .running m => .running (m.refuel extra)
  | .finished v m => .finished v (m.refuel extra)
  | .failed f m => .failed f (m.refuel extra)

namespace Machine

variable {limits wider : Limits} {m n : Machine} {i : Instruction} {extra : Nat}

/-- The same ending with more gas. -/
def Ending.refuel (extra : Nat) (e : Ending) : Ending :=
  ⟨e.result, e.machine.refuel extra⟩

theorem callee_wider (deeper : limits.maxDepth ≤ wider.maxDepth) (e : Environment)
    (depth : Nat) (index : UInt32) (found : Nat) :
    callee limits e depth index found = callee wider e depth index found ∨
      callee limits e depth index found = .error (.depthExceeded limits.maxDepth) := by
  unfold callee
  cases e.funcs.get? index with
  | none => exact .inl rfl
  | some c =>
    by_cases count : found ≠ c.func.paramCount.toNat
    · simp [count]
    · by_cases full : limits.maxDepth ≤ depth
      · simp [count, full]
      · have room : ¬ wider.maxDepth ≤ depth := by omega
        simp [count, full, room]

/-- Instructions do the same under a wider limit, unless they are calls that are nested too deeply. -/
theorem effect_wider (deeper : limits.maxDepth ≤ wider.maxDepth) (m : Machine) (i : Instruction) :
    m.effect limits i = m.effect wider i ∨
      m.effect limits i = .error ⟨.depthExceeded limits.maxDepth, i.line⟩ := by
  obtain ⟨opcode, operands, line⟩ := i
  cases opcode with
  | call =>
    change atLine _ (m.calling limits _) = atLine _ (m.calling wider _) ∨
      atLine _ (m.calling limits _) = _
    unfold calling
    cases operand ⟨.call, operands, line⟩ 0 with
    | error c => exact .inl rfl
    | ok result =>
      cases target : Instruction.callTarget? ⟨.call, operands, line⟩ with
      | none => exact .inl rfl
      | some call =>
        obtain ⟨index, args⟩ := call
        cases values : args.mapM m.read with
        | error c => simp [bind, Except.bind, values]
        | ok vs =>
          rcases callee_wider deeper m.env m.depth index vs.length with same | deep
          · simp [bind, Except.bind, values, same]
          · simp [bind, Except.bind, values, deep, atLine]
  | _ => exact .inl rfl

theorem withGas_refuel (status : Status) (gas : Nat) :
    (status.withGas gas).refuel extra = status.withGas (gas + extra) := by
  cases status <;> rfl

theorem fallOff_withGas (m : Machine) (gas : Nat) :
    ({ m with gas } : Machine).fallOff = m.fallOff.withGas gas := by
  have leaving : ({ m with gas } : Machine).leaving 0 = m.leaving 0 := rfl
  rw [fallOff, fallOff, leaving]
  by_cases outside : m.top.entry = .ofModule
  · simp [outside, Status.withGas]
  · rw [if_neg outside, if_neg outside]
    cases m.leaving 0 with
    | error f => rfl
    | ok e => exact perform_withGas m e gas

theorem perform_refuel (m : Machine) (e : Effect) :
    (m.refuel extra).perform e = (m.perform e).refuel extra := by
  have kept : m.perform e = (m.perform e).withGas m.gas := perform_withGas m e m.gas
  rw [kept, withGas_refuel]
  exact perform_withGas m e (m.gas + extra)

theorem fallOff_refuel (m : Machine) : (m.refuel extra).fallOff = m.fallOff.refuel extra := by
  have kept : m.fallOff = m.fallOff.withGas m.gas := fallOff_withGas m m.gas
  rw [kept, withGas_refuel]
  exact fallOff_withGas m (m.gas + extra)

theorem round_wider (deeper : limits.maxDepth ≤ wider.maxDepth) (extra : Nat) (m : Machine) :
    (m.refuel extra).round wider = (m.round limits).refuel extra ∨
      ∃ f, m.round limits = .failed f m ∧ IsCut (.error f : Except Fault (Option Value)) := by
  cases current : m.top.current? with
  | none =>
    left
    rw [round_ended current, round_ended (m := m.refuel extra) current, fallOff_refuel]
  | some i =>
    cases paid : m.gas with
    | zero => exact .inr ⟨_, round_unpaid current paid, .inl ⟨_, _, rfl⟩⟩
    | succ gas =>
      have more : (m.refuel extra).gas = gas + extra + 1 := by simp [refuel, paid, Nat.add_right_comm]
      rcases effect_wider deeper m i with same | deep
      · left
        cases done : m.effect limits i with
        | error f =>
          have there : (m.refuel extra).effect wider i = .error f := same ▸ done
          rw [round_of_error current paid done, round_of_error (m := m.refuel extra) current more there]
          rfl
        | ok e =>
          have there : (m.refuel extra).effect wider i = .ok e := same ▸ done
          rw [round_of_ok current paid done, round_of_ok (m := m.refuel extra) current more there,
            ← perform_refuel]
          rfl
      · exact .inr ⟨_, round_of_error current paid deep, .inr ⟨_, _, rfl⟩⟩

/-- Under wider limits a run ends the same way, unless it reached a limit: then it goes on from what
was printed. -/
theorem run_wider (deeper : limits.maxDepth ≤ wider.maxDepth) (extra : Nat) (m : Machine) :
    (¬ IsCut (m.run limits).result → (m.refuel extra).run wider = (m.run limits).refuel extra) ∧
      (m.run limits).machine.outputs.toList <+:
        ((m.refuel extra).run wider).machine.outputs.toList := by
  refine run_induction (P := fun m ending =>
    (¬ IsCut ending.result → (m.refuel extra).run wider = ending.refuel extra) ∧
      ending.machine.outputs.toList <+: ((m.refuel extra).run wider).machine.outputs.toList)
    ?_ ?_ ?_ m
  · intro m n goesOn rest
    rcases round_wider deeper extra m with same | ⟨f, failed, -⟩
    · rw [goesOn] at same
      rwa [run_of_running same]
    · cases goesOn.symm.trans failed
  · intro m v n finished
    rcases round_wider deeper extra m with same | ⟨f, failed, -⟩
    · rw [finished] at same
      rw [run_of_finished same]
      exact ⟨fun _ => rfl, List.prefix_rfl⟩
    · cases finished.symm.trans failed
  · intro m f n failed
    rcases round_wider deeper extra m with same | ⟨f', failed', cut⟩
    · rw [failed] at same
      rw [run_of_failed same]
      exact ⟨fun _ => rfl, List.prefix_rfl⟩
    · cases failed.symm.trans failed'
      exact ⟨fun whole => absurd cut whole, (keeps_run wider (m.refuel extra)).outputs⟩

end Machine

end SlotLang
