import SlotLang.Proofs.Canonical.Words

/-!
# The tokens of a line

The words of a line are its maximal runs of characters that are not blank, from left to right
(`mem_fromColumn`, `pairwise_fromColumn`), for a blank divides both words and runs. The tokens are the
words in front of the first comment, each with its place in the line (`tokens_exact`).
-/

open List

namespace SlotLang

/-- A maximal run of characters that are not blank, in a text that starts at some column. -/
def Word.IsRun (column : Nat) (cs : List Char) (w : Word) : Prop :=
  ∃ before after, cs = before ++ w.chars ++ after ∧ w.column = column + before.length ∧
    w.chars ≠ [] ∧ (∀ c ∈ w.chars, Text.isBlank c = false) ∧
    (∀ c ∈ before.getLast?, Text.isBlank c = true) ∧ ∀ c ∈ after.head?, Text.isBlank c = true

/-- A text without blanks, or two texts with a blank between them. -/
theorem blank_induction {P : Nat → List Char → Prop}
    (solid : ∀ column cs, (∀ c ∈ cs, Text.isBlank c = false) → P column cs)
    (split : ∀ column cs c ds, Text.isBlank c = true → P column cs → P (column + cs.length + 1) ds →
      P column (cs ++ c :: ds)) (column : Nat) (cs : List Char) : P column cs := by
  induction length : cs.length using Nat.strong_induction_on generalizing column cs with
  | _ k ih =>
  by_cases whole : ∀ c ∈ cs, Text.isBlank c = false
  · exact solid column cs whole
  · simp only [not_forall, Bool.not_eq_false] at whole
    obtain ⟨c, member, blank⟩ := whole
    obtain ⟨cs, ds, rfl⟩ := append_of_mem member
    rw [length_append, length_cons] at length
    exact split column cs c ds blank (ih _ (by omega) _ _ rfl) (ih _ (by omega) _ _ rfl)

theorem isRun_split {c : Char} (blank : Text.isBlank c = true) (column : Nat) (cs ds : List Char)
    (w : Word) : w.IsRun column (cs ++ c :: ds) ↔
      w.IsRun column cs ∨ w.IsRun (column + cs.length + 1) ds := by
  constructor
  · rintro ⟨before, after, text, place, nonempty, solid, left, right⟩
    have inside : c ∉ w.chars := fun member => by simp [solid c member] at blank
    rw [append_assoc] at text
    rcases append_eq_append_iff.1 text with ⟨es, rfl, rest⟩ | ⟨es, rfl, rest⟩
    · rcases cons_eq_append_iff.1 rest with ⟨rfl, first⟩ | ⟨fs, rfl, rfl⟩
      · cases chars : w.chars <;> simp_all
      · exact .inr ⟨fs, after, by simp, by simp [place]; omega, nonempty, solid,
          by cases fs <;> simp_all [getLast?_append, getLast?_cons], right⟩
    · rcases append_eq_append_iff.1 rest with ⟨fs, rfl, rfl⟩ | ⟨fs, chars, rest⟩
      · exact .inl ⟨before, fs, by simp, place, nonempty, solid, left, by cases fs <;> simp_all⟩
      · rcases cons_eq_append_iff.1 rest with ⟨rfl, rfl⟩ | ⟨gs, rfl, rfl⟩
        · exact .inl ⟨before, [], by simp [chars], place, nonempty, solid, left, by simp⟩
        · simp [chars] at inside
  · rintro (⟨before, after, rfl, place, nonempty, solid, left, right⟩ |
      ⟨before, after, rfl, place, nonempty, solid, left, right⟩)
    · exact ⟨before, after ++ c :: ds, by simp, place, nonempty, solid, left, by cases after <;> simp_all⟩
    · exact ⟨cs ++ c :: before, after, by simp, by simp [place]; omega, nonempty, solid,
        by cases before <;> simp_all [getLast?_append, getLast?_cons], right⟩

theorem isRun_solid {cs : List Char} (solid : ∀ c ∈ cs, Text.isBlank c = false) (column : Nat)
    (w : Word) : w.IsRun column cs ↔ cs ≠ [] ∧ w = ⟨column, cs⟩ := by
  constructor
  · rintro ⟨before, after, rfl, place, nonempty, -, left, right⟩
    cases last : before.getLast? with
    | some c =>
      have inside := mem_of_getLast? last
      simp [solid c (by simp [inside]), last] at left
    | none =>
      cases first : after.head? with
      | some c =>
        have inside := mem_of_head? first
        simp [solid c (by simp [inside]), first] at right
      | none =>
        obtain rfl := getLast?_eq_none_iff.1 last
        obtain rfl := head?_eq_none_iff.1 first
        obtain ⟨place', chars⟩ := w
        simp_all
  · rintro ⟨nonempty, rfl⟩
    exact ⟨[], [], by simp, rfl, nonempty, solid, by simp, by simp⟩

theorem mem_fromColumn {column : Nat} {cs : List Char} {w : Word} :
    w ∈ Word.fromColumn column cs ↔ w.IsRun column cs := by
  induction column, cs using blank_induction with
  | solid column cs solid =>
    rw [isRun_solid solid]
    by_cases empty : cs = []
    · simp [empty, Word.fromColumn, Word.scan]
    · simp [empty, fromColumn_solid empty solid]
  | split column cs c ds blank first second =>
    rw [fromColumn_split blank, mem_append, isRun_split blank, first, second]

theorem pairwise_fromColumn (column : Nat) (cs : List Char) :
    (Word.fromColumn column cs).Pairwise fun v w => v.column + v.chars.length < w.column := by
  induction column, cs using blank_induction with
  | solid column cs solid =>
    by_cases empty : cs = []
    · simp [empty, Word.fromColumn, Word.scan]
    · simp [fromColumn_solid empty solid]
  | split column cs c ds blank first second =>
    rw [fromColumn_split blank, pairwise_append]
    refine ⟨first, second, fun v left w right => ?_⟩
    obtain ⟨before, after, rfl, place, -⟩ := mem_fromColumn.1 left
    obtain ⟨before', after', -, place', -⟩ := mem_fromColumn.1 right
    simp only [length_append] at place'
    omega

/-- Nothing is taken from a line that is blank or starts with a comment. -/
theorem takeWhile_fromColumn_eq_nil (column : Nat) (cs : List Char) :
    (Word.fromColumn column cs).takeWhile (fun w => !w.isComment) = [] ↔
      (∀ c ∈ cs, Text.isBlank c = true) ∨ (cs.dropWhile Text.isBlank).head? = some ';' := by
  induction cs generalizing column with
  | nil => simp [Word.fromColumn, Word.scan]
  | cons c cs ih =>
    cases blank : Text.isBlank c with
    | true =>
      have split : Word.fromColumn column (c :: cs) = Word.fromColumn (column + 1) cs :=
        fromColumn_split blank column [] cs
      simp [split, ih, blank]
    | false => simp [Word.fromColumn, Word.scan, blank, Word.isComment]

/-- **Tokens and their spans are exact.** The tokens of a line are its maximal runs of characters that
are not blank, from left to right, up to the first one that starts with a semicolon. The text of a
token is what stands in the line from its column up to its end, spans lie apart and in order with a
blank behind each but the last, and there is no token exactly if the line is blank or its first word
starts with a semicolon. -/
theorem tokens_exact (line : Nat) (text : String) :
    let cs := text.toList
    let ts := Token.ofLine line text
    (∃ ws : List Word, (∀ w, w ∈ ws ↔ w.IsRun 1 cs) ∧
        ws.Pairwise (fun v w => v.column + v.chars.length < w.column) ∧
        ts = (ws.takeWhile fun w => !w.isComment).map (Token.ofWord line)) ∧
      (∀ t ∈ ts, t.text.toList =
        (cs.drop (t.span.column - 1)).take (t.span.endColumn - t.span.column)) ∧
      ts.Pairwise (fun t u => t.span.endColumn < u.span.column ∧
        ∃ c, cs[t.span.endColumn - 1]? = some c ∧ Text.isBlank c = true) ∧
      (ts = [] ↔ (∀ c ∈ cs, Text.isBlank c = true) ∨
        (cs.dropWhile Text.isBlank).head? = some ';') := by
  intro cs ts
  have sorted := pairwise_fromColumn 1 cs
  have run {w : Word} (taken : w ∈ (Word.ofLine cs).takeWhile fun w => !w.isComment) : w.IsRun 1 cs :=
    mem_fromColumn.1 (List.takeWhile_subset _ taken)
  refine ⟨⟨Word.ofLine cs, fun w => mem_fromColumn, sorted, rfl⟩, fun t member => ?_, ?_, ?_⟩
  · obtain ⟨w, taken, rfl⟩ := List.mem_map.1 member
    obtain ⟨before, after, text, place, -⟩ := run taken
    have column : w.column - 1 = before.length := by omega
    simp [Token.ofWord, text, column]
  · refine List.pairwise_map.2 ((sorted.sublist (List.takeWhile_sublist _)).imp_of_mem ?_)
    intro v w left right apart
    obtain ⟨before, after, text, place, -, -, -, blank⟩ := run left
    obtain ⟨before', after', text', place', -⟩ := run right
    have length := congrArg List.length (text.symm.trans text')
    refine ⟨apart, ?_⟩
    cases after with
    | nil =>
      simp only [List.length_append, List.length_nil] at length
      omega
    | cons c after =>
      have stop : v.column + v.chars.length - 1 = (before ++ v.chars).length := by
        rw [List.length_append]
        omega
      exact ⟨c, by simp [Token.ofWord, stop, text], blank c rfl⟩
  · exact List.map_eq_nil_iff.trans (takeWhile_fromColumn_eq_nil 1 cs)

end SlotLang
