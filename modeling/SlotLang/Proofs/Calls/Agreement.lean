import SlotLang.Proofs.Calls.Simulation
import SlotLang.Proofs.Effects

/-!
# Calls leave their callers alone

Between a call and the end of its callee the activations of the callers stay on the stack as they
were, and the end of the callee changes one slot of the caller. This is said of the rounds of the
machine itself (`Machine.callers_kept`), beside the agreement of whole runs with the recursive
evaluator.
-/

namespace SlotLang

namespace Machine

variable {limits : Limits} {m n : Machine} {dest : Operand} {i : Instruction}

theorem effect_of_call {e : Effect} (call : i.opcode = .call) (stores : i.operand? 0 = some dest)
    (done : m.effect limits i = .ok e) : ∃ c args, e = .enter c args (.ofCall dest i.line) := by
  have first : operand i 0 = .ok dest := by rw [operand, stores]; rfl
  unfold effect calling at done
  simp only [call, first] at done
  cases target : i.callTarget? with
  | none => simp only [target] at done; cases done
  | some t =>
    simp only [target] at done
    change atLine i (t.2.mapM m.read >>= fun args =>
      callee limits m.env m.depth t.1 args.length >>= fun c => _) = _ at done
    cases values : t.2.mapM m.read with
    | error c => rw [values] at done; cases done
    | ok args =>
      rw [values] at done
      change atLine i (callee limits m.env m.depth t.1 args.length >>= fun c => _) = _ at done
      cases entered : callee limits m.env m.depth t.1 args.length with
      | error c => rw [entered] at done; cases done
      | ok c => rw [entered] at done; cases done; exact ⟨c, args, rfl⟩

/-- A round at a call enters a function that is to answer to the call's destination. -/
theorem entry_of_call (current : m.top.current? = some i) (call : i.opcode = .call)
    (stores : i.operand? 0 = some dest) (goesOn : m.round limits = .running n) :
    n.top.entry = .ofCall dest i.line ∧ n.below = m.next.top :: m.below := by
  unfold round at goesOn
  simp only [current] at goesOn
  split at goesOn
  · cases goesOn
  · split at goesOn
    · cases goesOn
    · next e done =>
      obtain ⟨c, args, rfl⟩ := effect_of_call call stores done
      cases goesOn
      exact ⟨rfl, rfl⟩

/-- Somewhere above the caller at a call stands the activation that is to answer to `dest`. -/
def Serves (m : Machine) (dest : Operand) (n : Machine) : Prop :=
  ∃ above a line, n.stack = above ++ a :: m.next.top :: m.below ∧ a.entry = .ofCall dest line

/-- The caller is as it was at the call, with a value in the destination. -/
def Served (m : Machine) (dest : Operand) (n : Machine) : Prop :=
  n.below = m.below ∧ ∃ v, n.top = m.next.top.write dest v

theorem Serves.round {x : Machine} (serves : Serves m dest x)
    (goesOn : x.round limits = .running n) : Serves m dest n ∨ Served m dest n := by
  obtain ⟨above, a, line, stack, entry⟩ := serves
  cases moves_of_round goesOn with
  | stays current shape place =>
    left
    have below := shape.below
    cases above with
    | nil =>
      obtain ⟨rfl, rest⟩ := List.cons.inj stack
      exact ⟨[], n.top, line, by rw [Machine.stack, below, rest]; rfl, shape.entry.trans entry⟩
    | cons top above =>
      obtain ⟨rfl, rest⟩ := List.cons.inj stack
      exact ⟨n.top :: above, a, line, by rw [Machine.stack, below, rest]; rfl, entry⟩
  | enters current target entered top below funcs =>
    left
    cases above with
    | nil =>
      obtain ⟨rfl, rest⟩ := List.cons.inj stack
      exact ⟨[n.top], x.next.top, line, by rw [Machine.stack, below, rest]; rfl, entry⟩
    | cons top above =>
      obtain ⟨rfl, rest⟩ := List.cons.inj stack
      exact ⟨n.top :: x.next.top :: above, a, line, by rw [Machine.stack, below, rest]; rfl, entry⟩
  | @leaves slot line' caller v left below top funcs =>
    cases above with
    | nil =>
      right
      obtain ⟨rfl, rest⟩ := List.cons.inj stack
      rw [below] at rest
      obtain ⟨rfl, others⟩ := List.cons.inj rest
      cases left.symm.trans entry
      exact ⟨others, v, top⟩
    | cons first above =>
      left
      obtain ⟨rfl, rest⟩ := List.cons.inj stack
      rw [below] at rest
      cases above with
      | nil =>
        obtain ⟨rfl, others⟩ := List.cons.inj rest
        refine ⟨[], n.top, line, by rw [Machine.stack, others]; rfl, ?_⟩
        rw [top, write_entry, entry]
      | cons second above =>
        obtain ⟨rfl, others⟩ := List.cons.inj rest
        exact ⟨n.top :: above, a, line, by rw [Machine.stack, others]; rfl, entry⟩

/-- After a call the run has not yet come back to the caller within `k` rounds. -/
def Away (limits : Limits) (m : Machine) (k : Nat) : Prop :=
  ∀ j x, 0 < j → j ≤ k → m.after limits j = some x → m.below.length < x.below.length

/-- From a call on, the callers wait on the stack as they were; once the run comes back, the nearest
one has a value in the destination of the call and is else as it was. -/
theorem callers_kept (current : m.top.current? = some i) (call : i.opcode = .call)
    (stores : i.operand? 0 = some dest) {k : Nat} (away : Away limits m k)
    (reached : m.after limits (k + 1) = some n) : Serves m dest n ∨ Served m dest n := by
  induction k generalizing n with
  | zero =>
    obtain ⟨x, start, goesOn⟩ := after_succ reached
    cases start
    obtain ⟨entry, below⟩ := entry_of_call current call stores goesOn
    exact .inl ⟨[], n.top, i.line, by rw [stack, below]; rfl, entry⟩
  | succ k ih =>
    obtain ⟨x, before, goesOn⟩ := after_succ reached
    have above := away (k + 1) x (by omega) (by omega) before
    rcases ih (fun j y pos less => away j y pos (by omega)) before with serves | served
    · exact serves.round goesOn
    · rw [served.1] at above
      omega

end Machine

/-- Runs of programs and calls from outside give what the recursive evaluator gives, for any program,
environment and limits; and from a call on the machine's rounds leave the callers alone, but for the
destination of the call. -/
theorem run_agrees_with_evaluator (limits : Limits) (e : Environment) :
    (∀ p, e.run limits p = Evaluator.run limits e p) ∧
      (∀ index args, e.call limits index args = Evaluator.call limits e index args) ∧
      ∀ (m n : Machine) (i : Instruction) (dest : Operand) (k : Nat),
        m.top.current? = some i → i.opcode = .call → i.operand? 0 = some dest →
        m.Away limits k → m.after limits (k + 1) = some n →
        m.Serves dest n ∨ m.Served dest n :=
  ⟨Evaluator.run_eq limits e, Evaluator.call_eq limits e,
    fun _ _ _ _ _ current call stores away reached =>
      Machine.callers_kept current call stores away reached⟩

/-- A function that counts its argument down by calling itself, and module code that calls it. -/
def countdown : Program where
  funcs := [⟨0, 1, 1, [⟨.jumpIf, [.arg 0, .lit 1], 2⟩, ⟨.ret, [.lit 10], 3⟩,
    ⟨.label, [.lit 1], 4⟩, ⟨.binary .sub, [.arg 0, .arg 0, .lit 1], 5⟩,
    ⟨.call, [.var 0, .lit 0, .arg 0], 6⟩, ⟨.binary .add, [.var 0, .var 0, .lit 1], 7⟩,
    ⟨.ret, [.var 0], 8⟩], 1⟩]
  code := [⟨.call, [.global 0, .lit 0, .lit 3], 10⟩, ⟨.output, [.global 0], 11⟩]
  globalCount := 1

/-- A machine about to call the function with zero. -/
def atCall : Machine where
  env := ({} : Environment).defineAll countdown.funcs
  top := .ofModule [⟨.call, [.global 0, .lit 0, .lit 0], 10⟩]
  gas := 9

theorem away_atCall : atCall.Away {} 2 := by
  intro j x positive bounded reached
  have rounds : j = 1 ∨ j = 2 := by omega
  rcases rounds with rfl | rfl <;> cases reached <;> decide

theorem run_agrees_with_evaluator_countdown :
    (Evaluator.run {} {} countdown).outputs = [13] ∧
      (Evaluator.call {} (({} : Environment).defineAll countdown.funcs) 0 [2]).result.toOption =
        some 12 ∧
      ∃ n, atCall.after {} 3 = some n ∧
        (atCall.Serves (.global 0) n ∨ atCall.Served (.global 0) n) := by
  refine ⟨?_, ?_, ?_⟩
  · rw [← (run_agrees_with_evaluator {} {}).1]
    cbv
  · rw [← (run_agrees_with_evaluator {} _).2.1]
    cbv
  · exact ⟨_, rfl,
      (run_agrees_with_evaluator {} {}).2.2 atCall _ _ _ 2 rfl rfl rfl away_atCall rfl⟩

end SlotLang
