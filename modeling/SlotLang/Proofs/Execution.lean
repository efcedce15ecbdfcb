/-!
# Executions with enough fuel

For a function that runs a state for a number of steps, `Reaches` chains steps without counting them
and `Ends` says what every execution gives that is long enough. `ReachesIn` and `EndsIn` say how many
steps are enough.
-/

namespace SlotLang

variable {S R : Type} {run : Nat → S → R} {s t u : S} {r : R}

/-- Some number of steps leads from one state to another. -/
def Reaches (run : Nat → S → R) (s t : S) : Prop :=
  ∃ n, ∀ fuel, run (n + fuel) s = run fuel t

/-- Every execution that is given enough steps ends this way. -/
def Ends (run : Nat → S → R) (s : S) (r : R) : Prop :=
  ∃ n, ∀ fuel, n ≤ fuel → run fuel s = r

theorem Reaches.refl (run : Nat → S → R) (s : S) : Reaches run s s :=
  ⟨0, fun fuel => by rw [Nat.zero_add]⟩

theorem Reaches.trans (first : Reaches run s t) (second : Reaches run t u) : Reaches run s u := by
  obtain ⟨a, first⟩ := first
  obtain ⟨b, second⟩ := second
  exact ⟨a + b, fun fuel => by rw [Nat.add_assoc, first, second]⟩

theorem reaches_of_succ (next : ∀ fuel, run (fuel + 1) s = run fuel t) : Reaches run s t :=
  ⟨1, fun fuel => by rw [Nat.add_comm, next]⟩

theorem ends_of_succ (last : ∀ fuel, run (fuel + 1) s = r) : Ends run s r := by
  refine ⟨1, fun fuel enough => ?_⟩
  obtain ⟨more, rfl⟩ := Nat.exists_eq_add_of_le enough
  rw [Nat.add_comm, last]

theorem Reaches.ends (reaches : Reaches run s t) (ends : Ends run t r) : Ends run s r := by
  obtain ⟨a, reaches⟩ := reaches
  obtain ⟨b, ends⟩ := ends
  refine ⟨a + b, fun fuel enough => ?_⟩
  obtain ⟨more, rfl⟩ := Nat.exists_eq_add_of_le enough
  rw [Nat.add_assoc, reaches, ends _ (Nat.le_add_right b more)]

/-! ## Counted steps -/

/-- No more than `n` steps lead from one state to another. -/
def ReachesIn (run : Nat → S → R) (n : Nat) (s t : S) : Prop :=
  ∃ k ≤ n, ∀ fuel, run (k + fuel) s = run fuel t

/-- Every execution that is given `n` steps ends this way. -/
def EndsIn (run : Nat → S → R) (n : Nat) (s : S) (r : R) : Prop :=
  ∀ fuel, n ≤ fuel → run fuel s = r

variable {k n : Nat}

theorem ReachesIn.refl (run : Nat → S → R) (s : S) : ReachesIn run 0 s s :=
  ⟨0, Nat.le_refl 0, fun fuel => by rw [Nat.zero_add]⟩

theorem ReachesIn.mono (reaches : ReachesIn run k s t) (more : k ≤ n) : ReachesIn run n s t := by
  obtain ⟨a, few, reaches⟩ := reaches
  exact ⟨a, Nat.le_trans few more, reaches⟩

theorem ReachesIn.trans (first : ReachesIn run k s t) (second : ReachesIn run n t u) :
    ReachesIn run (k + n) s u := by
  obtain ⟨a, few, first⟩ := first
  obtain ⟨b, fewer, second⟩ := second
  exact ⟨a + b, Nat.add_le_add few fewer, fun fuel => by rw [Nat.add_assoc, first, second]⟩

theorem reachesIn_of_succ (next : ∀ fuel, run (fuel + 1) s = run fuel t) : ReachesIn run 1 s t :=
  ⟨1, Nat.le_refl 1, fun fuel => by rw [Nat.add_comm, next]⟩

theorem endsIn_of_succ (last : ∀ fuel, run (fuel + 1) s = r) : EndsIn run 1 s r := by
  intro fuel enough
  obtain ⟨more, rfl⟩ := Nat.exists_eq_add_of_le enough
  rw [Nat.add_comm, last]

theorem EndsIn.mono (ends : EndsIn run k s r) (more : k ≤ n) : EndsIn run n s r :=
  fun fuel enough => ends fuel (Nat.le_trans more enough)

theorem EndsIn.ends (ends : EndsIn run n s r) : Ends run s r :=
  ⟨n, ends⟩

theorem ReachesIn.endsIn (reaches : ReachesIn run k s t) (ends : EndsIn run n t r) :
    EndsIn run (k + n) s r := by
  obtain ⟨a, few, reaches⟩ := reaches
  intro fuel enough
  obtain ⟨more, rfl⟩ := Nat.exists_eq_add_of_le (show a ≤ fuel by omega)
  rw [reaches, ends more (by omega)]

end SlotLang
