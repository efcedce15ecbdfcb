import SlotLang.Machine.Step

/-!
# Runs

A run repeats rounds until one ends it. It always ends: every instruction costs gas, and a round
that costs none ends an activation. `Environment.run` runs a program and `Environment.call` one of
the functions defined before; both give back the environment as the run left it, whether it failed
or not, without the calls in progress.
-/

namespace SlotLang

namespace Machine

/-- The gas and the height of the stack, compared in this order, fall with every round. -/
def Shrinks (m n : Machine) : Prop :=
  n.gas < m.gas ∨ n.gas = m.gas ∧ n.below.length < m.below.length

theorem write_gas_below (m : Machine) (slot : Operand) (v : Value) :
    (m.write slot v).gas = m.gas ∧ (m.write slot v).below = m.below := by
  unfold write
  split <;> exact ⟨rfl, rfl⟩

/-- Leaving goes on only with fewer activations and the same gas. -/
theorem shrinks_of_leave {m n : Machine} {v : Value} (h : m.leave v = .running n) :
    n.gas = m.gas ∧ n.below.length < m.below.length := by
  unfold leave at h
  split at h
  · next hbelow =>
    cases h
    rw [(write_gas_below _ _ _).1, (write_gas_below _ _ _).2, hbelow]
    simp
  · cases h

theorem perform_gas {m n : Machine} {e : Effect} (h : m.perform e = .running n) :
    n.gas = m.gas := by
  cases e with
  | write slot v => cases h; exact (write_gas_below _ _ _).1
  | leave v => exact (shrinks_of_leave h).1
  | _ => cases h; rfl

/-- Running off the end goes on only with fewer activations. -/
theorem shrinks_of_fallOff {m n : Machine} (h : m.fallOff = .running n) : m.Shrinks n := by
  unfold fallOff at h
  split at h
  · cases h
  · split at h
    · next e he =>
      have hleave : e = .leave 0 := by
        unfold leaving at he
        split at he
        · split at he <;> cases he
          rfl
        · cases he; rfl
      subst hleave
      exact .inr (shrinks_of_leave h)
    · cases h

theorem shrinks_of_round {limits : Limits} {m n : Machine} (h : m.round limits = .running n) :
    m.Shrinks n := by
  unfold round at h
  split at h
  · exact shrinks_of_fallOff h
  · split at h
    · cases h
    · next gas hgas =>
      split at h
      · cases h
      · have := perform_gas h
        simp only [Shrinks, this, hgas]
        omega

/-- How a run ended, and the machine at that moment. -/
structure Ending where
  result : Except Fault (Option Value)
  machine : Machine

def run (limits : Limits) (m : Machine) : Ending :=
  match _h : m.round limits with
  | .running n => run limits n
  | .finished v n => ⟨.ok v, n⟩
  | .failed f n => ⟨.error f, n⟩
termination_by (m.gas, m.below.length)
decreasing_by
  rcases shrinks_of_round _h with h | ⟨h, h'⟩
  · exact Prod.Lex.left _ _ h
  · rw [h]
    exact Prod.Lex.right _ h'

end Machine

/-- What a run leaves behind. -/
structure RunResult (α : Type) where
  result : Except Fault α
  outputs : List Value
  env : Environment

namespace RunResult

/-- The outcome of a machine's run, with its value read as `f` says. -/
def ofEnding {α : Type} (f : Option Value → α) (e : Machine.Ending) : RunResult α where
  result := e.result.map f
  outputs := e.machine.outputs.toList
  env := { e.machine.env with frames := e.machine.calls }.clear

def fault? {α : Type} (r : RunResult α) : Option Fault :=
  match r.result with
  | .ok _ => none
  | .error f => some f

end RunResult

namespace Environment

def run (limits : Limits) (e : Environment) (p : Program) : RunResult Unit :=
  let m : Machine :=
    { env := e.defineAll p.funcs, top := Activation.ofModule p.code, gas := limits.gas }
  .ofEnding (fun _ => ()) (m.run limits)

/-- Calls a function from outside. A call that is refused is reported on line 0. -/
def call (limits : Limits) (e : Environment) (index : UInt32) (args : List Value) :
    RunResult Value :=
  match Machine.callee limits e 0 index args.length with
  | .ok c =>
    let m : Machine := { env := e, top := Activation.ofCall c args .ofHost, gas := limits.gas }
    .ofEnding (fun v => v.getD 0) (m.run limits)
  | .error c => ⟨.error ⟨c, 0⟩, [], e.clear⟩

end Environment

end SlotLang
