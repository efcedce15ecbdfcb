import SlotLang.Proofs.Calls.Simulation
import SlotLang.Proofs.Numerals

/-!
# Calls from outside and calls by an instruction

A call from outside does what a module of one call instruction does that has one more unit of gas and
one more level of calls (`call_agrees_with_instruction`). Both evaluate the same body, on one level or
on the next, and no evaluation can tell the levels apart under limits that are raised alike
(`eval_alike`).
-/

namespace SlotLang

/-- The limits for one more instruction around a call. -/
def Limits.raised (limits : Limits) : Limits :=
  ⟨limits.maxDepth + 1, limits.gas + 1⟩

/-- The same cause under some limits and under raised ones. Only a limit that was reached differs. -/
inductive Cause.Alike (limits : Limits) : Cause → Cause → Prop where
  | same (c : Cause) : Alike limits c c
  | depth : Alike limits (.depthExceeded limits.maxDepth) (.depthExceeded limits.raised.maxDepth)
  | gas : Alike limits (.gasExhausted limits.gas) (.gasExhausted limits.raised.gas)

namespace Evaluator

/-- The same answer under some limits and under raised ones. -/
inductive Alike (limits : Limits) : Except Fault Value × Store → Except Fault Value × Store → Prop where
  | ok (v : Value) (store : Store) : Alike limits (.ok v, store) (.ok v, store)
  | error {c c' : Cause} (cause : c.Alike limits c') (line : Nat) (store : Store) :
    Alike limits (.error ⟨c, line⟩, store) (.error ⟨c', line⟩, store)

/-- The same code one level deeper. -/
def Site.deeper (site : Site) : Site :=
  { site with depth := site.depth + 1 }

variable {limits : Limits} {site : Site} {frame : Frame} {env : Environment}

theorem moveOf_deeper (i : Instruction) :
    moveOf site.deeper frame env i = moveOf site frame env i := rfl

theorem calleeOf_deeper (limits : Limits) (env : Environment) (depth : Nat) (index : UInt32)
    (args : List Value) :
    (∃ f, calleeOf limits env depth index args = .ok f ∧
        calleeOf limits.raised env (depth + 1) index args = .ok f) ∨
      ∃ c c', calleeOf limits env depth index args = .error c ∧
        calleeOf limits.raised env (depth + 1) index args = .error c' ∧ c.Alike limits c' := by
  simp only [calleeOf_eq, Machine.callee]
  cases env.funcs.get? index with
  | none => exact .inr ⟨_, _, rfl, rfl, .same _⟩
  | some c =>
    dsimp only
    split
    · exact .inr ⟨_, _, rfl, rfl, .same _⟩
    · have deep : limits.raised.maxDepth ≤ depth + 1 ↔ limits.maxDepth ≤ depth := Nat.succ_le_succ_iff
      simp only [deep]
      split
      · exact .inr ⟨_, _, rfl, rfl, .depth⟩
      · exact .inl ⟨_, rfl, rfl⟩

theorem afterCall_alike {a b : Except Fault Value × Store} (alike : Alike limits a b) (site : Site)
    (pc : Nat) (frame : Frame) (dest : Operand) (line : Nat)
    (onward : ∀ frame (store : Store), store.gas ≤ a.2.gas → Alike limits
      (eval limits site pc frame store).answer (eval limits.raised site.deeper pc frame store).answer) :
    Alike limits (afterCall limits site pc frame dest line a)
      (afterCall limits.raised site.deeper pc frame dest line b) := by
  cases alike with
  | error cause line store => exact .error cause line store
  | ok v store =>
    simp only [afterCall]
    cases frame.write? store.env dest v with
    | none => exact .error (.same _) _ _
    | some after => exact onward _ _ (Nat.le_refl _)

/-- Code that is evaluated one level deeper under raised limits gives the same. -/
theorem eval_alike (limits : Limits) (gas : Nat) (site : Site) (pc : Nat) (frame : Frame)
    (env : Environment) (outputs : List Value) :
    Alike limits (eval limits site pc frame ⟨env, outputs, gas⟩).answer
      (eval limits.raised site.deeper pc frame ⟨env, outputs, gas⟩).answer := by
  induction gas using Nat.strong_induction_on generalizing site pc frame env outputs with
  | _ gas ih =>
  cases current : site.code[pc]? with
  | none =>
    have below : site.deeper.code[pc]? = none := current
    rw [answer_ended current, answer_ended below]
    exact .ok 0 _
  | some i =>
    have below : site.deeper.code[pc]? = some i := current
    cases gas with
    | zero =>
      rw [answer_unpaid current, answer_unpaid below]
      exact .error .gas _ _
    | succ gas =>
      have later (site : Site) (pc : Nat) (frame : Frame) (store : Store) (less : store.gas ≤ gas) :
          Alike limits (eval limits site pc frame store).answer
            (eval limits.raised site.deeper pc frame store).answer :=
        ih store.gas (Nat.lt_succ_of_le less) site pc frame store.env store.outputs
      rw [answer_paid gas current, answer_paid gas below, moveOf_deeper]
      cases moveOf site frame env i with
      | error c => exact .error (.same c) _ _
      | ok move =>
        cases move with
        | next | print v | jump target => exact later _ _ _ _ (Nat.le_refl gas)
        | ret v => exact .ok v _
        | store dest v =>
          simp only [carryOut]
          cases frame.write? env dest v with
          | none => exact .error (.same _) _ _
          | some after => exact later _ _ _ _ (Nat.le_refl gas)
        | call dest index args =>
          rcases calleeOf_deeper limits env site.depth index args with
            ⟨f, here, there⟩ | ⟨c, c', here, there, cause⟩
          · let rest : Store := ⟨env, outputs, gas⟩
            have inner := later ⟨f.body, true, site.depth + 1⟩ 0 (.ofCall f args) rest (Nat.le_refl gas)
            have after := afterCall_alike inner site (pc + 1) frame dest i.line
              fun frame store less => later _ _ frame store (Nat.le_trans less (eval ..).gas_le)
            simpa only [carryOut, here, Site.deeper, there] using after
          · simp only [carryOut, here, Site.deeper, there]
            exact .error cause _ _

end Evaluator

/-- Module code that calls a function with some values and keeps the result in a global. -/
def callProgram (slot index : UInt32) (args : List Value) (line : Nat) : Program where
  code := [⟨.call, .global slot :: .ofIndex index :: args.map .lit, line⟩]
  funcs := []
  globalCount := slot + 1

/-- The instruction calls the function with these values. -/
theorem moveOf_callProgram (slot index : UInt32) (args : List Value) (line : Nat)
    (site : Evaluator.Site) (frame : Evaluator.Frame) (e : Environment) :
    Evaluator.moveOf site frame e ⟨.call, .global slot :: .ofIndex index :: args.map .lit, line⟩ =
      .ok (.call (.global slot) index args) := by
  have values : (args.map Operand.lit).mapM (frame.read e) = .ok args := by
    induction args with
    | nil => rfl
    | cons v args ih =>
      rw [List.map_cons, List.mapM_cons, ih]
      rfl
  have target : Instruction.callTarget?
      ⟨.call, .global slot :: .ofIndex index :: args.map .lit, line⟩ = some (index, args.map .lit) :=
    congrArg (fun i => some (i, args.map Operand.lit)) (Value.low_ofIndex index)
  change Evaluator.callOf frame e _ = _
  rw [Evaluator.callOf, target]
  exact bind_eq_ok.2 ⟨_, rfl, bind_eq_ok.2 ⟨_, rfl, bind_eq_ok.2 ⟨args, values, rfl⟩⟩⟩

/-- **A call from outside equals a call instruction.** In any environment, a call under some limits and
the module of one instruction that makes the call, with one more unit of gas and one more level of
calls, print the same and succeed or fail together. After a failure they leave the same environment,
and the causes are the same but for the limit that was reached; after a success the instruction has
also written the value to its global. A call that is refused has no line of its own. -/
theorem call_agrees_with_instruction (limits : Limits) (e : Environment) (slot index : UInt32)
    (args : List Value) (line : Nat) :
    let called := e.call limits index args
    let ran := e.run limits.raised (callProgram slot index args line)
    ran.outputs = called.outputs ∧
      ((∃ v, called.result = .ok v ∧ ran.result = .ok () ∧
          ran.env = called.env.setGlobal slot v) ∨
        ∃ f g, called.result = .error f ∧ ran.result = .error g ∧ f.cause.Alike limits g.cause ∧
          (g.line = f.line ∨ f.line = 0 ∧ g.line = line) ∧ ran.env = called.env) := by
  intro called ran
  let site : Evaluator.Site := ⟨(callProgram slot index args line).code, false, 1⟩
  let answer := (Evaluator.eval limits.raised site 0 {} ⟨e, [], limits.gas + 1⟩).answer
  have ran_eq : ran = ⟨answer.1.map fun _ => (), answer.2.outputs, answer.2.env.clear⟩ :=
    Evaluator.run_eq limits.raised e _
  have called_eq : called = Evaluator.call limits e index args := Evaluator.call_eq limits e index args
  have paid : answer = _ := Evaluator.answer_paid limits.gas rfl
  rw [moveOf_callProgram, Evaluator.carryOut] at paid
  rw [Evaluator.call] at called_eq
  rcases Evaluator.calleeOf_deeper limits e 0 index args with
    ⟨f, here, there⟩ | ⟨c, c', here, there, cause⟩
  · rw [there] at paid
    rw [here] at called_eq
    have inner := Evaluator.eval_alike limits limits.gas ⟨f.body, true, 1⟩ 0 (.ofCall f args) e []
    generalize evaluated : (Evaluator.eval limits ⟨f.body, true, 1⟩ 0 (.ofCall f args)
      ⟨e, [], limits.gas⟩).answer = a at inner
    have called_eq : called = ⟨a.1, a.2.outputs, a.2.env.clear⟩ := evaluated ▸ called_eq
    generalize deeper : (Evaluator.eval limits.raised _ 0 _ _).answer = b at inner
    have paid : answer = Evaluator.afterCall limits.raised site 1 {} (.global slot) line b :=
      deeper ▸ paid
    rw [called_eq, ran_eq, paid]
    cases inner with
    | error cause l store => exact ⟨rfl, .inr ⟨_, _, rfl, rfl, cause, .inl rfl, rfl⟩⟩
    | ok v store =>
      have ended : Evaluator.afterCall limits.raised site 1 {} (.global slot) line (.ok v, store) =
          (.ok 0, { store with env := store.env.setGlobal slot v }) := Evaluator.answer_ended rfl
      rw [ended]
      exact ⟨rfl, .inl ⟨v, rfl, rfl, rfl⟩⟩
  · rw [there] at paid
    rw [called_eq, here, ran_eq, paid]
    exact ⟨rfl, .inr ⟨_, _, rfl, rfl, cause, .inr ⟨rfl, rfl⟩, rfl⟩⟩

end SlotLang
