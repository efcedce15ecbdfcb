import SlotLang.Proofs.Canonical.RoundTrip
import SlotLang.Proofs.Positions

/-!
# Units that are joined

The lines of two texts with a line feed between them are the lines of the first and those of the second,
which keep their forms under other numbers (`Source.Reads.join`). A well-built unit ends outside all
functions, so what comes behind it is gathered on its own. Hence the program of the joined text is the
two programs one behind the other, but for the numbers of the lines of the second (`parse_join`).
-/

open List

namespace SlotLang

/-! ## Lines of joined texts -/

theorem pieces_join (cs ds : List Char) :
    Text.pieces (cs ++ '\n' :: ds) = Text.pieces cs ++ Text.pieces ds := by
  induction cs with
  | nil => rfl
  | cons c cs ih =>
    have step (es : List Char) : Text.cutAtFeeds (c :: es) = if c = '\n' then
        ([], (Text.cutAtFeeds es).1 :: (Text.cutAtFeeds es).2)
      else (c :: (Text.cutAtFeeds es).1, (Text.cutAtFeeds es).2) := rfl
    simp only [Text.pieces, cons_append, List.cons.injEq] at ih ⊢
    rw [step, step]
    by_cases feed : c = '\n'
    · simp [feed, ih.1, ih.2]
    · simp [feed, ih.1, ih.2]

/-- A text and another one below it. -/
def Source.IsJoin (s first second : Source) : Prop :=
  s.text = first.text ++ "\n" ++ second.text

theorem Source.IsJoin.lines {s first second : Source} (join : s.IsJoin first second) :
    s.lines = first.lines ++ second.lines := by
  have text : s.text.toList = first.text.toList ++ '\n' :: second.text.toList := by
    rw [join, String.toList_append, String.toList_append, append_assoc]
    rfl
  simp only [Source.lines, Text.sourceLines, text, pieces_join, map_append]

/-- A numbered line with its tokens. -/
def SourceLine.ofText (line : String × Nat) : SourceLine :=
  ⟨line.2, line.1, Token.ofLine line.2 line.1⟩

theorem Source.significantLines_eq (s : Source) : s.significantLines =
    ((s.lines.zipIdx 1).map SourceLine.ofText).filter fun l => !l.tokens.isEmpty := rfl

/-- A line as it is found further below. -/
def FormedLine.below (n : Nat) (x : FormedLine) : FormedLine :=
  ⟨x.number + n, x.form.onLine (x.number + n)⟩

theorem isEmpty_ofLine (line line' : Nat) (text : String) :
    (Token.ofLine line' text).isEmpty = (Token.ofLine line text).isEmpty := by
  simp [Token.ofLine]

theorem forall₂_below {lines : List (String × Nat)} {xs : List FormedLine} (n : Nat)
    (reads : List.Forall₂
      (fun l x => x.number = l.number ∧ LineForm.ofTokens l.number l.tokens = .ok x.form)
      ((lines.map SourceLine.ofText).filter fun l => !l.tokens.isEmpty) xs) :
    List.Forall₂ (fun l x => x.number = l.number ∧ LineForm.ofTokens l.number l.tokens = .ok x.form)
      ((lines.map fun line => SourceLine.ofText (line.1, line.2 + n)).filter fun l => !l.tokens.isEmpty)
      (xs.map (FormedLine.below n)) := by
  induction lines generalizing xs with
  | nil =>
    cases reads
    exact .nil
  | cons line lines ih =>
    obtain ⟨text, number⟩ := line
    have same := isEmpty_ofLine number (number + n) text
    rw [map_cons, filter_cons] at reads ⊢
    cases empty : (Token.ofLine number text).isEmpty with
    | true =>
      rw [if_neg (by simp [SourceLine.ofText, empty])] at reads
      rw [if_neg (by simp [SourceLine.ofText, same, empty])]
      exact ih reads
    | false =>
      rw [if_pos (by simp [SourceLine.ofText, empty])] at reads
      rw [if_pos (by simp [SourceLine.ofText, same, empty])]
      cases reads with
      | cons first rest =>
        refine .cons ⟨congrArg (· + n) first.1, ?_⟩ (ih rest)
        have formed : LineForm.ofText number text = .ok _ := first.2
        have moved := LineForm.ofText_of_ofText formed (number + n)
        have number : _ = number := first.1
        rw [FormedLine.below, number]
        exact moved

theorem Source.Reads.join {s first second : Source} {xs ys : List FormedLine}
    (join : s.IsJoin first second) (above : first.Reads xs) (behind : second.Reads ys) :
    s.Reads (xs ++ ys.map (FormedLine.below first.lines.length)) := by
  have numbers : second.lines.zipIdx (1 + first.lines.length) =
      (second.lines.zipIdx 1).map fun line => (line.1, line.2 + first.lines.length) := by
    rw [Nat.add_comm, ← map_snd_add_zipIdx_eq_zipIdx]
    rfl
  rw [Source.Reads, Source.significantLines_eq, join.lines, zipIdx_append, map_append,
    filter_append, numbers, map_map]
  exact rel_append above (forall₂_below _ behind)

theorem Source.Reads.unique {s : Source} {xs ys : List FormedLine} (reads : s.Reads xs)
    (others : s.Reads ys) : xs = ys := by
  unfold Source.Reads at reads others
  generalize s.significantLines = lines at reads others
  induction reads generalizing ys with
  | nil =>
    cases others
    rfl
  | @cons l x _ _ here _ ih =>
    cases others with
    | @cons _ y _ _ there rest =>
      have number : x.number = y.number := here.1.trans there.1.symm
      have form : x.form = y.form := Except.ok.inj (here.2.symm.trans there.2)
      rw [ih rest]
      obtain ⟨k, form⟩ := x
      cases number
      cases form
      rfl

/-! ## Functions and code behind a unit -/

theorem blocks_layout_append (items : List Item) (ys : List FormedLine) :
    blocks (layout items ++ ys) = blocks (layout items) ++ blocks ys := by
  induction items with
  | nil => rfl
  | cons item items ih =>
    cases item with
    | code c => exact ih
    | block line index paramCount body last =>
      simp [blocks, takeWhile_formed, blocks_formed, ih]

theorem outside_layout_append (items : List Item) (ys : List FormedLine) :
    outside false (layout items ++ ys) = outside false (layout items) ++ outside false ys := by
  induction items with
  | nil => rfl
  | cons item items ih =>
    cases item with
    | code c => exact congrArg (c.instruction :: ·) ih
    | block line index paramCount body last =>
      simp [outside, outside_formed, ih]

theorem sameCode_outside (n : Nat) (inside : Bool) (xs : List FormedLine) :
    SameCode (outside inside (xs.map (FormedLine.below n))) (outside inside xs) := by
  induction xs generalizing inside with
  | nil => rfl
  | cons x xs ih =>
    obtain ⟨number, form⟩ := x
    cases form with
    | empty | opener index paramCount | closer => cases inside <;> exact ih _
    | instruction i =>
      cases inside with
      | true => exact ih true
      | false => exact congrArg (i.bare :: ·) (ih false)

theorem sameCode_instructionsOf (n : Nat) (xs : List FormedLine) :
    SameCode (instructionsOf (xs.map (FormedLine.below n))) (instructionsOf xs) := by
  induction xs with
  | nil => rfl
  | cons x xs ih =>
    obtain ⟨number, form⟩ := x
    cases form with
    | empty | opener index paramCount | closer => exact ih
    | instruction i => exact congrArg (i.bare :: ·) ih

theorem bare_blocks (n : Nat) (xs : List FormedLine) :
    ((blocks (xs.map (FormedLine.below n))).map Block.func).map Func.bare =
      ((blocks xs).map Block.func).map Func.bare := by
  induction xs with
  | nil => rfl
  | cons x xs ih =>
    obtain ⟨number, form⟩ := x
    cases form with
    | empty | closer | instruction i => exact ih
    | opener index paramCount =>
      have closers : ((fun x : FormedLine => !x.isCloser) ∘ FormedLine.below n) =
          fun x => !x.isCloser := by
        funext ⟨number, form⟩
        cases form <;> rfl
      have body := sameCode_instructionsOf n (xs.takeWhile fun x => !x.isCloser)
      have cut : (xs.map (FormedLine.below n)).takeWhile (fun x => !x.isCloser) =
          (xs.takeWhile fun x => !x.isCloser).map (FormedLine.below n) := by
        rw [takeWhile_map, closers]
      rw [← cut] at body
      refine cons_eq_cons.2 ⟨?_, ih⟩
      simp only [Func.bare, Block.func, Func.mk.injEq, true_and, and_true]
      exact ⟨body.slotCount_eq Operand.varIndex?, body⟩

/-- The program of a joined text: the functions and the code of the first unit, and behind them those of
the second with other lines. -/
theorem parse_join {s first second : Source} {known : UInt32} {p q r : Program}
    (join : s.IsJoin first second) (above : Program.parse first 0 = .ok p)
    (behind : Program.parse second known = .ok q) (joined : Program.parse s 0 = .ok r) :
    ∃ code funcs, r.code = p.code ++ code ∧ SameCode code q.code ∧
      r.funcs = p.funcs ++ funcs ∧ funcs.map Func.bare = q.funcs.map Func.bare := by
  obtain ⟨xs, readsFirst, builtFirst, rfl⟩ := parse_eq_ok_iff.1 above
  obtain ⟨ys, readsSecond, -, rfl⟩ := parse_eq_ok_iff.1 behind
  obtain ⟨zs, reads, -, rfl⟩ := parse_eq_ok_iff.1 joined
  obtain rfl := reads.unique (readsFirst.join join readsSecond)
  obtain ⟨items, rfl⟩ := (exists_items_of_alternating readsFirst.solid).1 builtFirst.alternating
  refine ⟨_, _, outside_layout_append items _, sameCode_outside _ false ys, ?_,
    bare_blocks first.lines.length ys⟩
  rw [programOf, blocks_layout_append, map_append]
  rfl

end SlotLang
