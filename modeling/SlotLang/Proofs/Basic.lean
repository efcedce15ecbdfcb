import Mathlib

/-!
# Results, tables and numerals

What follows from the success of a step or of a traversal, what a look-up compares, and that
numbers with the same decimal text are the same.
-/

open List

namespace SlotLang

variable {ε α β : Type}

theorem bind_eq_ok {x : Except ε α} {f : α → Except ε β} {b : β} :
    (x >>= f) = .ok b ↔ ∃ a, x = .ok a ∧ f a = .ok b := by
  cases x <;> simp [bind, Except.bind]

theorem bind_eq_error {x : Except ε α} {f : α → Except ε β} {e : ε} :
    (x >>= f) = .error e ↔ x = .error e ∨ ∃ a, x = .ok a ∧ f a = .error e := by
  cases x <;> simp [bind, Except.bind]

theorem map_eq_error {f : α → β} {x : Except ε α} {e : ε} : x.map f = .error e ↔ x = .error e := by
  cases x <;> simp [Except.map]

theorem mapError_eq_ok {δ : Type} {f : ε → δ} {x : Except ε α} {a : α} :
    x.mapError f = .ok a ↔ x = .ok a := by
  cases x <;> simp [Except.mapError]

theorem mapM_eq_ok {f : α → Except ε β} {xs : List α} {ys : List β} :
    xs.mapM f = .ok ys ↔ List.Forall₂ (fun x y => f x = .ok y) xs ys := by
  induction xs generalizing ys with
  | nil => simp [pure, Except.pure, eq_comm]
  | cons x xs ih =>
    rw [mapM_cons, bind_eq_ok]
    constructor
    · rintro ⟨y, first, rest⟩
      obtain ⟨zs, others, result⟩ := bind_eq_ok.1 rest
      cases result
      exact .cons first (ih.1 others)
    · intro all
      cases all with
      | cons first rest =>
        exact ⟨_, first, bind_eq_ok.2 ⟨_, ih.2 rest, rfl⟩⟩

theorem elim_eq_ok {o : Option α} {e : ε} {a : α} :
    o.elim (Except.error e) Except.ok = .ok a ↔ o = some a := by
  cases o <;> simp

theorem elim_eq_error {o : Option α} {e e' : ε} :
    o.elim (Except.error e) Except.ok = .error e' ↔ o = none ∧ e = e' := by
  cases o <;> simp

theorem exists_of_mapM_eq_error {f : α → Except ε β} {xs : List α} {e : ε}
    (failed : xs.mapM f = .error e) : ∃ x ∈ xs, f x = .error e := by
  induction xs with
  | nil => cases failed
  | cons x xs ih =>
    rw [mapM_cons, bind_eq_error] at failed
    rcases failed with here | ⟨y, -, later⟩
    · exact ⟨x, mem_cons_self, here⟩
    · rcases bind_eq_error.1 later with later | ⟨ys, -, nothing⟩
      · obtain ⟨x', member, here⟩ := ih later
        exact ⟨x', mem_cons_of_mem _ member, here⟩
      · cases nothing

theorem exists_partner {R : α → β → Prop} {xs : List α} {ys : List β}
    (partners : List.Forall₂ R xs ys) {y : β} (member : y ∈ ys) : ∃ x ∈ xs, R x y := by
  induction partners with
  | nil => cases member
  | @cons x z xs ys first rest ih =>
    rcases mem_cons.1 member with rfl | later
    · exact ⟨x, mem_cons_self, first⟩
    · obtain ⟨x', there, partner⟩ := ih later
      exact ⟨x', mem_cons_of_mem _ there, partner⟩

/-! ## Results that report errors -/

/-- A result that reports the first of some errors, if there is one. -/
def Reports (errors : List ε) (r : Except ε α) : Prop :=
  match errors with
  | [] => ∃ a, r = .ok a
  | e :: _ => r = .error e

theorem Reports.bind {errors more : List ε} {x : Except ε α} {f : α → Except ε β}
    (first : Reports errors x) (next : ∀ a, Reports more (f a)) :
    Reports (errors ++ more) (x >>= f) := by
  cases errors with
  | nil =>
    obtain ⟨a, rfl⟩ := first
    exact next a
  | cons e rest =>
    have stopped : x = .error e := first
    rw [stopped]
    rfl

theorem Reports.after {errors : List ε} {x : Except ε α} {f : α → Except ε β}
    (first : Reports errors x) (next : ∀ a, Reports [] (f a)) : Reports errors (x >>= f) :=
  append_nil errors ▸ first.bind next

theorem Reports.mapM {f : α → Except ε β} {errors : α → List ε} {xs : List α}
    (each : ∀ a ∈ xs, Reports (errors a) (f a)) : Reports (xs.flatMap errors) (xs.mapM f) := by
  induction xs with
  | nil => exact ⟨[], rfl⟩
  | cons a rest ih =>
    rw [forall_mem_cons] at each
    rw [mapM_cons, flatMap_cons]
    exact each.1.bind fun b => (ih each.2).after fun bs => ⟨b :: bs, rfl⟩

/-! ## Look-ups and numerals -/

theorem lookup_cons_ite [DecidableEq α] (k key : α) (v : β) (rest : List (α × β)) :
    ((key, v) :: rest).lookup k = if k = key then some v else rest.lookup k := by
  rw [lookup_cons]
  by_cases same : k = key
  · simp [same]
  · rw [if_neg same, beq_eq_false_iff_ne.2 same]

theorem toString_inj {a b : Nat} (same : toString a = toString b) : a = b := by
  rw [Nat.toString_eq_ofList_toDigits, Nat.toString_eq_ofList_toDigits] at same
  have digits : Nat.toDigits 10 a = Nat.toDigits 10 b := by
    simpa using congrArg String.toList same
  rw [← Nat.ofDigitChars_ten_toDigits (n := a), digits, Nat.ofDigitChars_ten_toDigits]

end SlotLang
