import SlotLang.Proofs.Stepping

/-!
# Globals with values from the start

A run that never misses the value of a global does not notice when globals that had none are given
one before it starts (`Machine.Preset.run`): it reads a global only after it has written it.
-/

namespace SlotLang

/-- The same functions, and no fewer globals. -/
structure Environment.Preset (e e' : Environment) : Prop where
  globals : ∀ n v, e.global? n = some v → e'.global? n = some v
  funcs : e'.funcs = e.funcs

theorem Environment.Preset.setGlobal {e e' : Environment} (preset : e.Preset e') (n : UInt32)
    (v : Value) : (e.setGlobal n v).Preset (e'.setGlobal n v) := by
  refine ⟨fun k w found => ?_, preset.funcs⟩
  rw [global?_setGlobal] at found ⊢
  by_cases same : k = n
  · rwa [if_pos same] at found ⊢
  · rw [if_neg same] at found ⊢
    exact preset.globals k w found

namespace Machine

/-! ## Instructions -/

section

variable {α β : Type}

/-- The second answer is the first, unless that one misses the value of a global. -/
def Persists (x y : Except Cause α) : Prop :=
  y = x ∨ ∃ n, x = .error (.undefinedGlobal n)

theorem Persists.refl (x : Except Cause α) : Persists x x :=
  .inl rfl

theorem Persists.bind {x y : Except Cause α} {f g : α → Except Cause β} (first : Persists x y)
    (rest : ∀ a, Persists (f a) (g a)) : Persists (x >>= f) (y >>= g) := by
  rcases first with rfl | ⟨n, rfl⟩
  · cases y with
    | error c => exact .inl rfl
    | ok a => exact rest a
  · exact .inr ⟨n, rfl⟩

theorem Persists.mapM {f g : β → Except Cause α} (each : ∀ b, Persists (f b) (g b)) (bs : List β) :
    Persists (bs.mapM f) (bs.mapM g) := by
  induction bs with
  | nil => exact .refl _
  | cons b bs ih =>
    rw [List.mapM_cons, List.mapM_cons]
    exact (each b).bind fun a => ih.bind fun as => .refl _

end

variable {limits : Limits} {m n : Machine}

/-- The same machine with no fewer globals. -/
structure Preset (m n : Machine) : Prop where
  env : m.env.Preset n.env
  top : n.top = m.top
  below : n.below = m.below
  outputs : n.outputs = m.outputs
  gas : n.gas = m.gas

namespace Preset

variable (preset : m.Preset n)

include preset

theorem read (o : Operand) : Persists (m.read o) (n.read o) := by
  cases o with
  | lit v => exact .refl _
  | global k =>
    change Persists ((m.env.global? k).elim _ _) ((n.env.global? k).elim _ _)
    cases found : m.env.global? k with
    | none => exact .inr ⟨k, rfl⟩
    | some v =>
      rw [preset.env.globals k v found]
      exact .refl _
  | var k | arg k =>
    simp only [Machine.read, preset.top]
    exact .refl _

theorem readOperand (i : Instruction) (k : Nat) :
    Persists (m.readOperand i k) (n.readOperand i k) :=
  (Persists.refl _).bind preset.read

theorem storing (i : Instruction) (v : Value) : n.storing i v = m.storing i v := by
  simp only [Machine.storing, preset.top]

theorem jumping (i : Instruction) : n.jumping i = m.jumping i := by
  simp only [Machine.jumping, preset.top]

theorem leaving (v : Value) : n.leaving v = m.leaving v := by
  simp only [Machine.leaving, preset.top, preset.below]

theorem callee (index : UInt32) (found : Nat) :
    Machine.callee limits n.env n.depth index found =
      Machine.callee limits m.env m.depth index found := by
  rw [Machine.callee, Machine.callee, Machine.depth, Machine.depth, preset.env.funcs, preset.below]

theorem calling (i : Instruction) : Persists (m.calling limits i) (n.calling limits i) := by
  refine (Persists.refl _).bind fun result => ?_
  cases i.callTarget? with
  | none => exact .refl _
  | some target =>
    refine (Persists.mapM preset.read target.2).bind fun args => ?_
    rw [preset.callee]
    exact .refl _

end Preset

theorem Preset.returning (preset : m.Preset n) (i : Instruction) :
    n.returning i = m.returning i ∨
      ∃ k, m.returning i = .error ⟨.undefinedGlobal k, i.line⟩ := by
  unfold Machine.returning
  rw [preset.top]
  by_cases outside : m.top.entry = .ofModule
  · left
    rw [if_pos outside, if_pos outside]
  · rw [if_neg outside, if_neg outside]
    rcases preset.readOperand i 0 with same | ⟨k, missing⟩
    · left
      rw [same]
      cases m.readOperand i 0 with
      | error c => rfl
      | ok v => exact preset.leaving v
    · right
      rw [missing]
      exact ⟨k, rfl⟩

theorem Persists.atLine {x y : Except Cause Effect} (persists : Persists x y) (i : Instruction) :
    Machine.atLine i y = Machine.atLine i x ∨
      ∃ k, Machine.atLine i x = .error ⟨.undefinedGlobal k, i.line⟩ := by
  rcases persists with rfl | ⟨k, rfl⟩
  · exact .inl rfl
  · exact .inr ⟨k, rfl⟩

theorem Preset.effect (preset : m.Preset n) (limits : Limits) (i : Instruction) :
    n.effect limits i = m.effect limits i ∨
      ∃ k, m.effect limits i = .error ⟨.undefinedGlobal k, i.line⟩ := by
  cases named : i.opcode <;> rw [Machine.effect, Machine.effect, named]
  case assign =>
    refine ((preset.readOperand i 1).bind fun v => ?_).atLine i
    exact .inl (preset.storing i v)
  case binary op =>
    refine ((preset.readOperand i 1).bind fun a => (preset.readOperand i 2).bind fun b =>
      (Persists.refl _).bind fun v => ?_).atLine i
    exact .inl (preset.storing i v)
  case not =>
    refine ((preset.readOperand i 1).bind fun v => ?_).atLine i
    exact .inl (preset.storing i _)
  case jump => exact .inl (by rw [preset.jumping])
  case jumpIf =>
    refine ((preset.readOperand i 0).bind fun v => ?_).atLine i
    rw [preset.jumping]
    exact .refl _
  case call => exact (preset.calling i).atLine i
  case ret => exact preset.returning i
  case output =>
    exact ((preset.readOperand i 0).bind fun v => .refl _).atLine i
  all_goals exact .inl rfl

/-! ## Rounds and runs -/

end Machine

def Status.Preset : Status → Status → Prop
  | .running m, .running n => m.Preset n
  | .finished v m, .finished w n => w = v ∧ m.Preset n
  | .failed f m, .failed g n => g = f ∧ m.Preset n
  | _, _ => False

/-- The run failed for want of a value of a global. -/
def Status.MissesGlobal (s : Status) : Prop :=
  ∃ k line m, s = .failed ⟨.undefinedGlobal k, line⟩ m

namespace Machine

variable {m n : Machine}

theorem Preset.goto (preset : m.Preset n) (pc : Nat) : (m.goto pc).Preset (n.goto pc) :=
  ⟨preset.env, by simp only [Machine.goto, preset.top], preset.below, preset.outputs, preset.gas⟩

theorem Preset.next (preset : m.Preset n) : m.next.Preset n.next := by
  rw [Machine.next, Machine.next, preset.top]
  exact preset.goto _

theorem Preset.write (preset : m.Preset n) (slot : Operand) (v : Value) :
    (m.write slot v).Preset (n.write slot v) := by
  cases slot with
  | global k =>
    exact ⟨preset.env.setGlobal k v, preset.top, preset.below, preset.outputs, preset.gas⟩
  | var k | arg k | lit w =>
    refine ⟨preset.env, ?_, preset.below, preset.outputs, preset.gas⟩
    simp only [Machine.write, preset.top]

theorem Preset.leave (preset : m.Preset n) (v : Value) : (m.leave v).Preset (n.leave v) := by
  unfold Machine.leave
  rw [preset.top, preset.below]
  split
  · next slot line caller rest entry below =>
    have moved : ({ m with top := caller, below := rest } : Machine).Preset
        { n with top := caller, below := rest } :=
      ⟨preset.env, rfl, rfl, preset.outputs, preset.gas⟩
    exact moved.write slot v
  · exact ⟨rfl, preset⟩

theorem Preset.perform (preset : m.Preset n) (e : Effect) : (m.perform e).Preset (n.perform e) := by
  cases e with
  | advance => exact preset.next
  | write slot v => exact preset.next.write slot v
  | output v =>
    have moved := preset.next
    refine ⟨moved.env, moved.top, moved.below, ?_, moved.gas⟩
    simp only [preset.outputs]
  | jump pc => exact preset.goto pc
  | enter c args entry =>
    have moved := preset.next
    refine ⟨moved.env, rfl, ?_, moved.outputs, moved.gas⟩
    simp only [moved.top, moved.below]
  | leave v => exact preset.leave v

theorem Preset.fallOff (preset : m.Preset n) : m.fallOff.Preset n.fallOff := by
  unfold Machine.fallOff
  rw [preset.top, preset.leaving]
  split
  · exact ⟨rfl, preset⟩
  · split
    · exact preset.perform _
    · exact ⟨rfl, preset⟩

/-- A round does the same with more globals, unless it misses one. -/
theorem Preset.round (preset : m.Preset n) (limits : Limits) :
    (m.round limits).Preset (n.round limits) ∨ (m.round limits).MissesGlobal := by
  have current : n.top.current? = m.top.current? := by rw [preset.top]
  cases here : m.top.current? with
  | none =>
    rw [here] at current
    rw [round_ended here, round_ended current]
    exact .inl preset.fallOff
  | some i =>
    rw [here] at current
    cases paid : m.gas with
    | zero =>
      rw [round_unpaid here paid, round_unpaid current (preset.gas.trans paid)]
      exact .inl ⟨rfl, preset⟩
    | succ gas =>
      have paid' : n.gas = gas + 1 := preset.gas.trans paid
      cases done : m.effect limits i with
      | error f =>
        rw [round_of_error here paid done]
        rcases preset.effect limits i with same | ⟨k, missing⟩
        · rw [round_of_error current paid' (same.trans done)]
          exact .inl ⟨rfl, preset⟩
        · rw [done] at missing
          cases missing
          exact .inr ⟨k, i.line, m, rfl⟩
      | ok e =>
        rw [round_of_ok here paid done]
        rcases preset.effect limits i with same | ⟨k, missing⟩
        · rw [round_of_ok current paid' (same.trans done)]
          have spent : ({ m with gas } : Machine).Preset { n with gas } :=
            ⟨preset.env, preset.top, preset.below, preset.outputs, rfl⟩
          exact .inl (spent.perform e)
        · rw [done] at missing
          cases missing

theorem Preset.run (preset : m.Preset n) (limits : Limits) :
    (m.run limits).status.Preset (n.run limits).status ∨ (m.run limits).status.MissesGlobal := by
  refine run_induction (P := fun m ending => ∀ n, m.Preset n →
    ending.status.Preset (n.run limits).status ∨ ending.status.MissesGlobal) ?_ ?_ ?_ m n preset
  · intro m next goesOn rest n preset
    rcases preset.round limits with same | ⟨k, line, last, missing⟩
    · rw [goesOn] at same
      cases other : n.round limits with
      | running next' =>
        rw [other] at same
        rw [run_of_running other]
        exact rest next' same
      | finished v next' | failed f next' =>
        rw [other] at same
        exact same.elim
    · rw [goesOn] at missing
      cases missing
  · intro m v last finished n preset
    rcases preset.round limits with same | ⟨k, line, last', missing⟩
    · rw [finished] at same
      cases other : n.round limits with
      | finished w next =>
        rw [other] at same
        rw [run_of_finished other]
        exact .inl same
      | running next | failed f next =>
        rw [other] at same
        exact same.elim
    · rw [finished] at missing
      cases missing
  · intro m f last failed n preset
    rcases preset.round limits with same | missing
    · rw [failed] at same
      cases other : n.round limits with
      | failed g next =>
        rw [other] at same
        rw [run_of_failed other]
        exact .inl same
      | running next | finished w next =>
        rw [other] at same
        exact same.elim
    · rw [failed] at missing
      exact .inr missing

end Machine

end SlotLang
