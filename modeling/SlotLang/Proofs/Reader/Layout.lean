import SlotLang.Proofs.Reader.Scanning

/-!
# What a scan finds in a text

A text consists of lines of code and of lines that hold nothing for the parser: empty ones and
comments. Code stands four blanks deep for each level of nesting. The scan finds the pieces of every
line of code, with the indents and dedents between lines of different depth.
-/

open List

namespace SlotLang.Reader

variable {p : Piece} {c : Cursor} {d d' : Nat} {l : Lexeme} {lines : List TextLine}
  {ls : List Lexeme}

/-! ## Indentation -/

theorem Cursor.next?_shorter {after : Cursor} {ch : Char} (next : c.next? = some (ch, after)) :
    after.rest.length < c.rest.length := by
  unfold Cursor.next? at next
  split at next
  · cases next
  all_goals
    next here =>
      cases next
      rw [here]
      simp only [length_cons]
      omega

/-- Reading the indentation takes no more steps than there are characters. -/
theorem readIndentation_fuel {fuel fuel' : Nat} (enough : c.rest.length < fuel)
    (enough' : c.rest.length < fuel') :
    readIndentation fuel level c = readIndentation fuel' level c := by
  induction fuel generalizing fuel' level c with
  | zero => omega
  | succ fuel ih =>
    obtain ⟨fuel', rfl⟩ := Nat.exists_eq_add_of_le' (show 1 ≤ fuel' by omega)
    have shorter : ∀ {level : Indentation} {c' : Cursor}, c'.rest.length < c.rest.length →
        readIndentation fuel level c' = readIndentation fuel' level c' :=
      fun less => ih (by omega) (by omega)
    unfold readIndentation
    split
    · rfl
    · exact shorter (by simp_all [Cursor.skipTo])
    · split
      · rfl
      · exact shorter (by simp_all [Cursor.skipTo])
    · exact shorter (by simp_all [Cursor.skipTo])
    · next rest here =>
      refine shorter (Nat.lt_of_le_of_lt (dropWhile_sublist _).length_le ?_)
      rw [here]
      exact Nat.lt_succ_self _
    · split
      · split
        · next next => exact shorter (Cursor.next?_shorter next)
        · rfl
      · rfl

/-- The indentation in front of some characters, with the place behind it and whether a lexeme
follows. -/
def indentation (level : Indentation) (cs : List Char) (line : Nat) :
    Except Nat (Indentation × Cursor × Bool) :=
  readIndentation (cs.length + 1) level ⟨cs, line⟩

variable {level : Indentation} {line depth : Nat} {after : List Char}

theorem indentation_blanks (blanks : Nat) :
    indentation level (List.replicate blanks ' ' ++ after) line =
      indentation { level with spaces := level.spaces + blanks } after line := by
  induction blanks generalizing level with
  | zero => rfl
  | succ blanks ih =>
    have next : indentation level (' ' :: (List.replicate blanks ' ' ++ after)) line =
        indentation { level with spaces := level.spaces + 1 } (List.replicate blanks ' ' ++ after)
          line := rfl
    rw [replicate_succ, cons_append, next, ih, Nat.add_assoc, Nat.add_comm 1]

theorem indentation_feed :
    indentation level ('\n' :: after) line = indentation {} after (line + 1) :=
  rfl

theorem indentation_comment {text : List Char} (inLine : ∀ c ∈ text, isLineEnd c = false)
    (ended : Piece.AtEnd after) :
    indentation level ('#' :: (text ++ after)) line = indentation {} after line := by
  have dropped : (text ++ after).dropWhile (fun ch => !isLineEnd ch) = after := by
    rw [dropWhile_append_of_pos (by simpa using inLine)]
    rcases ended with rfl | ⟨rest, rfl⟩
    · rfl
    · exact dropWhile_cons_of_neg (by decide)
  change readIndentation ((text ++ after).length + 1) {}
    ⟨(text ++ after).dropWhile (fun ch => !isLineEnd ch), line⟩ = _
  rw [dropped]
  have enough : after.length < (text ++ after).length + 1 := by
    rw [length_append]
    omega
  exact readIndentation_fuel enough (Nat.lt_succ_self _)

/-- A line without a lexeme. -/
inductive IsSilent : List Char → Prop where
  | empty : IsSilent []
  | comment (blanks : Nat) {text : List Char} (inLine : ∀ c ∈ text, isLineEnd c = false) :
    IsSilent (List.replicate blanks ' ' ++ '#' :: text)

theorem indentation_silent {cs : List Char} (silent : IsSilent cs) (ended : Piece.AtEnd after) :
    indentation {} (cs ++ after) line = indentation {} after line := by
  cases silent with
  | empty => rfl
  | comment blanks inLine =>
    rw [append_assoc, indentation_blanks, cons_append, indentation_comment inLine ended]

/-- The first character of a piece that is no blank is the start of a lexeme. -/
theorem Piece.first_char (valid : p.isValid = true) (visible : p ≠ .gap) :
    ∃ f rest, p.chars = f :: rest ∧ f ≠ ' ' ∧ f ≠ '\t' ∧ f ≠ '\x0c' ∧ f ≠ '#' ∧
      isLineEnd f = false := by
  cases p with
  | word text =>
    obtain ⟨a, b, rest, shape, start, -⟩ := isValid_word valid
    refine ⟨a, b :: rest, shape, ?_, ?_, ?_, ?_, ?_⟩
    · rintro rfl; exact absurd start (by decide)
    · rintro rfl; exact absurd start (by decide)
    · rintro rfl; exact absurd start (by decide)
    · rintro rfl; exact absurd start (by decide)
    · refine Bool.eq_false_iff.2 fun ends => ?_
      simp only [isLineEnd, Bool.or_eq_true, beq_iff_eq] at ends
      rcases ends with rfl | rfl <;> exact absurd start (by decide)
  | number n =>
    match run : digits n with
    | [] => exact absurd run (digits_ne_nil n)
    | d :: rest =>
      have digit : d.isDigit = true := isDigit_of_mem_digits (n := n) (by simp [run])
      refine ⟨d, rest, run, ?_, ?_, ?_, ?_, ?_⟩
      · rintro rfl; exact absurd digit (by decide)
      · rintro rfl; exact absurd digit (by decide)
      · rintro rfl; exact absurd digit (by decide)
      · rintro rfl; exact absurd digit (by decide)
      · exact digit_induction digit (P := fun f => isLineEnd f = false) (by decide)
  | sign text =>
    obtain ⟨f, rest, shape, -, -, -, -, -, noComment, noBlank, noEnd, -⟩ :=
      first_of_sign (contains_iff_mem.1 valid)
    simp only [isInnerBlank, Bool.or_eq_false_iff, beq_eq_false_iff_ne] at noBlank noComment
    exact ⟨f, rest, shape, noBlank.1.1, noBlank.1.2, noBlank.2, noComment, noEnd⟩
  | gap => exact absurd rfl visible

theorem indentation_piece (valid : p.isValid = true) (visible : p ≠ .gap) :
    indentation level (p.chars ++ after) line = .ok (level, ⟨p.chars ++ after, line⟩, true) := by
  obtain ⟨f, rest, shape, noBlank, noTab, noFeed, noComment, noEnd⟩ := p.first_char valid visible
  rw [shape, cons_append]
  unfold indentation readIndentation
  split <;> simp_all

/-! ## Levels -/

/-- The indentation of code at a depth of nesting. -/
def indentationAt (depth : Nat) : Indentation :=
  { spaces := 4 * depth }

/-- The levels around code at a depth of nesting. -/
def levelsAt : Nat → List Indentation
  | 0 => []
  | depth + 1 => indentationAt (depth + 1) :: levelsAt depth

theorem length_levelsAt (depth : Nat) : (levelsAt depth).length = depth := by
  induction depth with
  | zero => rfl
  | succ depth ih => exact congrArg (· + 1) ih

theorem compare?_indentationAt (d d' : Nat) :
    (indentationAt d).compare? (indentationAt d') = some (compare d d') := by
  have scaled : compare (4 * d) (4 * d') = compare d d' := by
    rcases Nat.lt_trichotomy d d' with below | rfl | above
    · rw [Nat.compare_eq_lt.2 below, Nat.compare_eq_lt.2 (by omega)]
    · rw [Nat.compare_eq_eq.2 rfl, Nat.compare_eq_eq.2 rfl]
    · rw [Nat.compare_eq_gt.2 above, Nat.compare_eq_gt.2 (by omega)]
  unfold Indentation.compare?
  exact congrArg some scaled

/-- What stands between lines of two depths. -/
def shift (d d' : Nat) : List Kind :=
  if d < d' then [.indent] else List.replicate (d - d') .dedent

theorem closeLevels_levelsAt (shallower : d' ≤ d) :
    closeLevels (indentationAt d') line (levelsAt d) =
      .ok (List.replicate (d - d') (.onLine .dedent line), levelsAt d') := by
  induction d with
  | zero =>
    obtain rfl := Nat.le_zero.1 shallower
    rfl
  | succ d ih =>
    rw [levelsAt, closeLevels, compare?_indentationAt]
    by_cases same : d' = d + 1
    · subst same
      rw [Nat.compare_eq_eq.2 rfl, Nat.sub_self]
      rfl
    · have below : d' < d + 1 := by omega
      rw [Nat.compare_eq_lt.2 below]
      dsimp only
      rw [ih (by omega), show d + 1 - d' = (d - d') + 1 by omega]
      rfl

/-- At the start of a line the levels are brought to its depth. -/
theorem adjustLevels_levelsAt {s : Scan} (line : Nat) (levels : s.levels = levelsAt d)
    (step : d' ≤ d + 1) : ∃ shifts : List Lexeme, shifts.map Lexeme.kind = shift d d' ∧
      s.adjustLevels (indentationAt d') line = .ok (shifts, levelsAt d') := by
  have head : s.levels.headD {} = indentationAt d := by
    rw [levels]
    cases d <;> rfl
  unfold Scan.adjustLevels shift
  rw [head, compare?_indentationAt]
  rcases Nat.lt_trichotomy d' d with below | rfl | above
  · rw [Nat.compare_eq_lt.2 below, if_neg (by omega), levels]
    exact ⟨_, by simp [Lexeme.onLine], closeLevels_levelsAt (Nat.le_of_lt below)⟩
  · rw [Nat.compare_eq_eq.2 rfl, if_neg (by omega), Nat.sub_self, levels]
    exact ⟨[], rfl, rfl⟩
  · obtain rfl : d' = d + 1 := by omega
    rw [Nat.compare_eq_gt.2 above, if_pos above, levels]
    exact ⟨_, rfl, rfl⟩

/-! ## Texts -/

/-- A line of a text. -/
inductive TextLine where
  | silent (chars : List Char)
  | code (depth : Nat) (pieces : List Piece)

/-- A line of code with its number. -/
structure Row where
  depth : Nat
  line : Nat
  pieces : List Piece

namespace TextLine

/-- The characters of a line. -/
def chars : TextLine → List Char
  | silent cs => cs
  | code depth ps => List.replicate (4 * depth) ' ' ++ Piece.spell ps

/-- A line of code starts with a lexeme, and its brackets are closed. -/
def CodeSound (ps : List Piece) : Prop :=
  ps ≠ [] ∧ ∃ e, Piece.walk .blank 0 ps = some (e, 0)

/-- A line that the scan understands. -/
def Sound : TextLine → Prop
  | silent cs => IsSilent cs
  | code _ ps => CodeSound ps

/-- The characters of lines with a line feed between each two. -/
def joined : List TextLine → List Char
  | [] => []
  | [l] => l.chars
  | l :: rest => l.chars ++ '\n' :: joined rest

def following : List TextLine → List Char
  | [] => []
  | rest => '\n' :: joined rest

theorem joined_cons (l : TextLine) (rest : List TextLine) :
    joined (l :: rest) = l.chars ++ following rest := by
  cases rest with
  | nil => exact (append_nil _).symm
  | cons l' rest => rfl

theorem atEnd_following (rest : List TextLine) : Piece.AtEnd (following rest) := by
  cases rest with
  | nil => exact .inl rfl
  | cons l rest => exact .inr ⟨_, rfl⟩

/-- The lines of code, numbered. -/
def rowsFrom (line : Nat) : List TextLine → List Row
  | [] => []
  | silent _ :: rest => rowsFrom (line + 1) rest
  | code depth ps :: rest => ⟨depth, line, ps⟩ :: rowsFrom (line + 1) rest

/-- Each line of code is at most one level deeper than the one before. -/
def StepsFrom (depth : Nat) : List TextLine → Prop
  | [] => True
  | silent _ :: rest => StepsFrom depth rest
  | code depth' _ :: rest => depth' ≤ depth + 1 ∧ StepsFrom depth' rest

theorem joined_eq (lines : List TextLine) : joined lines = ['\n'].intercalate (lines.map chars) := by
  induction lines with
  | nil => rfl
  | cons l rest ih =>
    cases rest with
    | nil => simp [joined]
    | cons l' rest =>
      rw [joined_cons, following, ih]
      · simp
      · nofun

end TextLine

/-- Lexemes that lay out rows behind code at some depth. Where shifts and ends of lines are reported
does not matter. -/
inductive Laid : Nat → List Row → List Lexeme → Prop where
  | done {depth : Nat} {dedents : List Lexeme} {last : Lexeme}
    (closed : dedents.map Lexeme.kind = List.replicate depth .dedent) (ended : last.kind = .eof) :
    Laid depth [] (dedents ++ [last])
  | row {depth : Nat} {r : Row} {rows : List Row} {shifts rest : List Lexeme} {newline : Lexeme}
    (shifted : shifts.map Lexeme.kind = shift depth r.depth) (ended : newline.kind = .newline)
    (more : Laid r.depth rows rest) :
    Laid depth (r :: rows) (shifts ++ (Piece.lexemes r.line r.pieces ++ newline :: rest))

namespace Laid

variable {r : Row} {rows : List Row}

/-- A row at the current depth comes first. -/
theorem first (laid : Laid depth (r :: rows) ls) (same : r.depth = depth) :
    ∃ newline rest, newline.kind = .newline ∧
      ls = Piece.lexemes r.line r.pieces ++ newline :: rest ∧ Laid depth rows rest := by
  cases laid with
  | @row _ _ _ shifts rest newline shifted ended more =>
    subst same
    rw [shift, if_neg (Nat.lt_irrefl _), Nat.sub_self] at shifted
    obtain rfl := map_eq_nil_iff.1 shifted
    exact ⟨newline, rest, ended, rfl, more⟩

theorem indent (laid : Laid depth (r :: rows) ls) (deeper : r.depth = depth + 1) :
    ∃ indent rest, indent.kind = .indent ∧ ls = indent :: rest ∧
      Laid (depth + 1) (r :: rows) rest := by
  cases laid with
  | @row _ _ _ shifts rest newline shifted ended more =>
    rw [shift, deeper, if_pos (Nat.lt_succ_self _)] at shifted
    obtain ⟨l, rfl, kind⟩ := map_eq_singleton_iff.1 shifted
    refine ⟨l, _, kind, rfl, .row (?_ : [].map Lexeme.kind = _) ended more⟩
    rw [shift, deeper, if_neg (Nat.lt_irrefl _), Nat.sub_self]
    rfl

/-- A dedent comes before what is not as deep. -/
theorem dedent (laid : Laid (depth + 1) rows ls) (shallow : ∀ r ∈ rows.head?, r.depth ≤ depth) :
    ∃ dedent rest, dedent.kind = .dedent ∧ ls = dedent :: rest ∧ Laid depth rows rest := by
  cases laid with
  | @done _ dedents last closed ended =>
    rw [replicate_succ] at closed
    obtain ⟨l, others, rfl, kind, closed⟩ := map_eq_cons_iff.1 closed
    exact ⟨l, _, kind, rfl, .done closed ended⟩
  | @row _ r rows shifts rest newline shifted ended more =>
    have above : r.depth ≤ depth := shallow r rfl
    rw [shift, if_neg (by omega), Nat.succ_sub above, replicate_succ] at shifted
    obtain ⟨l, others, rfl, kind, shifted⟩ := map_eq_cons_iff.1 shifted
    refine ⟨l, _, kind, rfl, .row ?_ ended more⟩
    rw [shift, if_neg (by omega), shifted]

end Laid

namespace Scan

variable {fuel : Nat} {depth' : Nat} {ps : List Piece}

def atStart (cs : List Char) (line depth : Nat) : Scan :=
  ⟨⟨cs, line⟩, true, 0, levelsAt depth⟩

theorem step_atStart (cs : List Char) (line depth : Nat) :
    (atStart cs line depth).step =
      match indentation {} cs line with
      | .error line => .failed line
      | .ok (level, cursor, hasLexeme) =>
        match (atStart cs line depth).adjustLevels level cursor.line with
        | .error line => .failed line
        | .ok (lexemes, levels) =>
          (({ cursor, atLineStart := !hasLexeme, nesting := 0, levels } : Scan).readNext).prepend
            lexemes :=
  rfl

theorem run_congr {s t : Scan} (steps : s.step = t.step) (some : 0 < fuel) (last : Nat) :
    run fuel last s = run fuel last t := by
  obtain ⟨fuel, rfl⟩ := Nat.exists_eq_add_of_le' some
  rw [run, run, steps]

/-- At the end of the text all levels are closed. -/
theorem run_end (some : 0 < fuel) (last line depth : Nat) :
    Laid depth [] (run fuel last (atStart [] line depth)) := by
  obtain ⟨fuel, rfl⟩ := Nat.exists_eq_add_of_le' some
  obtain ⟨shifts, shifted, adjusted⟩ :=
    adjustLevels_levelsAt (s := atStart [] line depth) line rfl (Nat.zero_le (depth + 1))
  have stepped : (atStart [] line depth).step = .finished (shifts ++ []) := by
    rw [step_atStart]
    change (match (atStart [] line depth).adjustLevels (indentationAt 0) line with
      | .error line => _
      | .ok (lexemes, levels) => _) = _
    rw [adjusted]
    rfl
  rw [run, stepped]
  dsimp only
  rw [append_nil]
  refine .done ?_ rfl
  rwa [shift, if_neg (Nat.not_lt_zero _), Nat.sub_zero] at shifted

/-- The first step of a line of code finds its first piece. -/
theorem step_code (line : Nat) (sound : Piece.Sound (p :: ps)) (visible : p ≠ .gap)
    (deeper : depth' ≤ depth + 1) {nesting : Nat} (nested : p.nesting? 0 = some nesting)
    (ended : Piece.AtEnd after) :
    ∃ shifts : List Lexeme, shifts.map Lexeme.kind = shift depth depth' ∧
      (atStart (List.replicate (4 * depth') ' ' ++ (p.chars ++ (Piece.spell ps ++ after))) line
        depth).step =
        .found (shifts ++ p.kinds.map (.onLine · line))
          (within (Piece.spell ps ++ after) line nesting (levelsAt depth')) := by
  have valid := sound.valid p mem_cons_self
  obtain ⟨shifts, shifted, adjusted⟩ := adjustLevels_levelsAt (s := atStart
    (List.replicate (4 * depth') ' ' ++ (p.chars ++ (Piece.spell ps ++ after))) line depth)
    line rfl deeper
  refine ⟨shifts, shifted, ?_⟩
  have level : indentation {} (List.replicate (4 * depth') ' ' ++
      (p.chars ++ (Piece.spell ps ++ after))) line =
        .ok (indentationAt depth', ⟨p.chars ++ (Piece.spell ps ++ after), line⟩, true) := by
    rw [indentation_blanks, indentation_piece valid visible, Nat.zero_add]
    rfl
  rw [step_atStart, level]
  dsimp only
  rw [adjusted]
  dsimp only
  have found := Piece.readNext_piece line (levelsAt depth') valid
    (sound.endsAt ended) nested
  change ((within (p.chars ++ (Piece.spell ps ++ after)) line 0 (levelsAt depth')).readNext).prepend
    shifts = _
  rw [found]
  rfl

theorem leads_code (line : Nat) (sound : TextLine.CodeSound ps) (deeper : depth' ≤ depth + 1)
    (ended : Piece.AtEnd after) :
    ∃ shifts : List Lexeme, shifts.map Lexeme.kind = shift depth depth' ∧
      (atStart ((TextLine.code depth' ps).chars ++ after) line depth).Leads
        (shifts ++ Piece.lexemes line ps) (within after line 0 (levelsAt depth')) := by
  obtain ⟨nonempty, e, walk⟩ := sound
  obtain ⟨walked, closed⟩ := Piece.walked_of_walk walk
  obtain ⟨p, rest, rfl⟩ := exists_cons_of_ne_nil nonempty
  have visible : p ≠ .gap := fun gap => absurd (Piece.walk_cons walk).1 (by rw [gap]; decide)
  obtain ⟨nesting, nested, later⟩ := Option.bind_eq_some_iff.1 closed
  obtain ⟨shifts, shifted, stepped⟩ :=
    step_code line walked.toSound visible deeper nested ended
  refine ⟨shifts, shifted, ?_⟩
  have chars : (TextLine.code depth' (p :: rest)).chars ++ after =
      List.replicate (4 * depth') ' ' ++ (p.chars ++ (Piece.spell rest ++ after)) := by
    simp [TextLine.chars, Piece.spell]
  have lexemes : Piece.lexemes line (p :: rest) =
      p.kinds.map (.onLine · line) ++ Piece.lexemes line rest := by
    simp [Piece.lexemes]
  rw [chars, lexemes, ← append_assoc shifts]
  refine (Leads.step stepped ?_).trans (Piece.leads_pieces walked.toSound.tail later ended)
  have some := length_pos_iff.2 (Piece.chars_ne_nil (walked.valid p mem_cons_self))
  simp only [within, atStart, length_append]
  omega

theorem leads_feed (cs : List Char) (line depth : Nat) :
    (within ('\n' :: cs) line 0 (levelsAt depth)).Leads [⟨.newline, line, line + 1⟩]
      (atStart cs (line + 1) depth) :=
  .step rfl (Nat.lt_succ_self _)

theorem run_lastEnd (some : 0 < fuel) (last line depth : Nat) :
    ∃ newline rest, newline.kind = .newline ∧ Laid depth [] rest ∧
      run fuel last (within [] line 0 (levelsAt depth)) = newline :: rest := by
  obtain ⟨fuel, rfl⟩ := Nat.exists_eq_add_of_le' some
  let dedents : List Lexeme := List.replicate (levelsAt depth).length (.onLine .dedent line)
  refine ⟨.onLine .newline line, dedents ++ [.onLine .eof (lastLine last (.onLine .newline line ::
    dedents))], rfl, .done ?_ rfl, rfl⟩
  rw [map_replicate, length_levelsAt]
  rfl

theorem laid_run {lines : List TextLine} (sound : ∀ l ∈ lines, l.Sound)
    (steps : TextLine.StepsFrom depth lines) (line last : Nat)
    (enough : (TextLine.joined lines).length < fuel) : Laid depth (TextLine.rowsFrom line lines)
      (run fuel last (atStart (TextLine.joined lines) line depth)) := by
  induction lines generalizing depth line last fuel with
  | nil => exact run_end (by omega) last line depth
  | cons l rest ih =>
    have later : ∀ l ∈ rest, l.Sound := fun l member => sound l (mem_cons_of_mem _ member)
    have ended := TextLine.atEnd_following rest
    rw [TextLine.joined_cons] at enough ⊢
    cases l with
    | silent cs =>
      have silent : IsSilent cs := sound _ mem_cons_self
      cases rest with
      | nil =>
        have same : (atStart (cs ++ []) line depth).step = (atStart [] line depth).step := by
          rw [step_atStart, indentation_silent silent (.inl rfl)]
          rfl
        rw [TextLine.chars, TextLine.following, run_congr same (by omega)]
        exact run_end (by omega) last line depth
      | cons l rest =>
        have same : (atStart (cs ++ '\n' :: TextLine.joined (l :: rest)) line depth).step =
            (atStart (TextLine.joined (l :: rest)) (line + 1) depth).step := by
          rw [step_atStart, indentation_silent silent (.inr ⟨_, rfl⟩), indentation_feed]
          rfl
        change Laid depth _ (run fuel last (atStart (cs ++ '\n' :: TextLine.joined (l :: rest)) line
          depth))
        rw [run_congr same (by omega)]
        refine ih later steps (line + 1) last ?_
        simp only [TextLine.following, length_append, length_cons] at enough
        omega
    | code depth' ps =>
      obtain ⟨shifts, shifted, leads⟩ :=
        leads_code line (sound _ mem_cons_self) steps.1 ended
      cases rest with
      | nil =>
        obtain ⟨fuel', enough', reached⟩ := leads.run_eq enough last
        obtain ⟨newline, others, kind, laid, ends⟩ := run_lastEnd (Nat.zero_lt_of_lt enough')
          (lastLine last (shifts ++ Piece.lexemes line ps)) line depth'
        rw [reached, TextLine.following, ends, append_assoc]
        exact .row shifted kind laid
      | cons l rest =>
        obtain ⟨fuel', enough', reached⟩ :=
          (leads.trans (leads_feed (TextLine.joined (l :: rest)) line depth')).run_eq enough last
        have laid := ih later steps.2 (line + 1)
          (lastLine last (shifts ++ Piece.lexemes line ps ++ [⟨.newline, line, line + 1⟩])) enough'
        rw [reached, append_assoc, append_assoc]
        exact .row shifted (show (⟨.newline, line, line + 1⟩ : Lexeme).kind = .newline from rfl) laid

end Scan

/-! ## Soft words -/

/-- Whether a lexeme is a word that is reserved in some places only. -/
def Lexeme.isSoft (l : Lexeme) : Bool :=
  match l.kind with
  | .word text => Piece.softWords.contains text
  | _ => false

theorem resolveSoft_eq (hard : ∀ l ∈ ls, l.isSoft = false) (atStart : Bool) :
    resolveSoft atStart ls = ls := by
  induction ls generalizing atStart with
  | nil => rfl
  | cons l ls ih =>
    have first := hard l mem_cons_self
    rw [resolveSoft, ih fun l member => hard l (mem_cons_of_mem _ member)]
    congr 1
    obtain ⟨kind, line, endLine⟩ := l
    cases kind with
    | word text =>
      have plain : (text == "match" || text == "case" || text == "type") = false := by
        simpa [Lexeme.isSoft, Piece.softWords, and_assoc] using first
      dsimp only
      rw [plain]
      rfl
    | _ => rfl

theorem Piece.isSoft_of_mem_lexemes {ps : List Piece} (hard : ∀ p ∈ ps, p.isSoft = false)
    (member : l ∈ lexemes line ps) : l.isSoft = false := by
  simp only [lexemes, mem_map, mem_flatMap] at member
  obtain ⟨kind, ⟨p, there, has⟩, rfl⟩ := member
  cases p with
  | word text =>
    obtain rfl := mem_singleton.1 has
    have plain := hard _ there
    unfold Lexeme.isSoft Lexeme.onLine
    dsimp only
    split
    · next text' same =>
      split at same
      · cases same
        exact plain
      · cases same
    · rfl
  | number n | sign text =>
    obtain rfl := mem_singleton.1 has
    rfl
  | gap => cases has

theorem Laid.isSoft_of_mem {rows : List Row} (laid : Laid depth rows ls)
    (hard : ∀ r ∈ rows, ∀ p ∈ r.pieces, p.isSoft = false) (member : l ∈ ls) : l.isSoft = false := by
  induction laid with
  | @done depth dedents last closed ended =>
    rcases mem_append.1 member with inside | final
    · have kind := closed ▸ mem_map_of_mem (f := Lexeme.kind) inside
      unfold Lexeme.isSoft
      rw [(mem_replicate.1 kind).2]
    · obtain rfl := mem_singleton.1 final
      unfold Lexeme.isSoft
      rw [ended]
  | @row depth r rows shifts rest newline shifted ended more ih =>
    simp only [mem_append, mem_cons] at member
    rcases member with inside | inside | rfl | inside
    · have kind := shifted ▸ mem_map_of_mem (f := Lexeme.kind) inside
      have layout : l.kind = .indent ∨ l.kind = .dedent := by
        unfold shift at kind
        split at kind
        · exact .inl (mem_singleton.1 kind)
        · exact .inr (mem_replicate.1 kind).2
      unfold Lexeme.isSoft
      rcases layout with same | same <;> rw [same]
    · exact Piece.isSoft_of_mem_lexemes (hard r mem_cons_self) inside
    · unfold Lexeme.isSoft
      rw [ended]
    · exact ih (fun r member => hard r (mem_cons_of_mem _ member)) inside

theorem TextLine.hard_of_mem_rowsFrom (sound : ∀ l ∈ lines, l.Sound) {r : Row}
    (member : r ∈ rowsFrom line lines) : ∀ p ∈ r.pieces, p.isSoft = false := by
  induction lines generalizing line with
  | nil => cases member
  | cons l rest ih =>
    have later : ∀ l ∈ rest, l.Sound := fun l member => sound l (mem_cons_of_mem _ member)
    cases l with
    | silent cs => exact ih later member
    | code depth ps =>
      rcases mem_cons.1 member with rfl | member
      · obtain ⟨-, e, walk⟩ := sound _ mem_cons_self
        exact (Piece.walked_of_walk walk).1.hard
      · exact ih later member

theorem Piece.inLine (valid : p.isValid = true) : ∀ c ∈ p.chars, isLineEnd c = false := by
  intro c member
  cases p with
  | word text =>
    obtain ⟨a, b, rest, shape, -, inside⟩ := isValid_word valid
    have ident := all_eq_true.1 inside c (shape ▸ member)
    simp only [isLineEnd, Bool.or_eq_false_iff, beq_eq_false_iff_ne]
    constructor
    · rintro rfl
      exact absurd ident (by decide)
    · rintro rfl
      exact absurd ident (by decide)
  | number n =>
    exact digit_induction (isDigit_of_mem_digits (n := n) member)
      (P := fun c => isLineEnd c = false) (by decide)
  | sign text =>
    have all : knownSigns.all (fun text => text.toList.all fun c => !isLineEnd c) = true := by decide
    have inside := all_eq_true.1 all text (contains_iff_mem.1 valid)
    simpa using all_eq_true.1 inside c member
  | gap =>
    obtain rfl := mem_singleton.1 member
    rfl

theorem TextLine.inLine {l : TextLine} (sound : l.Sound) : ∀ c ∈ l.chars, isLineEnd c = false := by
  intro c member
  have blank {k : Nat} (there : c ∈ List.replicate k ' ') : isLineEnd c = false := by
    rw [(mem_replicate.1 there).2]
    rfl
  cases l with
  | silent cs =>
    cases sound with
    | empty => cases member
    | comment blanks inside =>
      rcases mem_append.1 member with there | there
      · exact blank there
      · rcases mem_cons.1 there with rfl | there
        · rfl
        · exact inside c there
  | code depth ps =>
    obtain ⟨-, e, walk⟩ := sound
    rcases mem_append.1 member with there | there
    · exact blank there
    · obtain ⟨p, inside, has⟩ := mem_flatMap.1 there
      exact Piece.inLine ((Piece.walked_of_walk walk).1.valid p inside) c has

/-- A text without a mark of the byte order is laid out as its rows. -/
theorem laid_lexemes (sound : ∀ l ∈ lines, l.Sound) (steps : TextLine.StepsFrom 0 lines)
    (unmarked : dropMark (TextLine.joined lines) =
      TextLine.joined lines) :
    Laid 0 (TextLine.rowsFrom 1 lines) (lexemes (TextLine.joined lines)) := by
  have laid := Scan.laid_run sound steps 1 1 (Nat.lt_succ_self _)
  unfold lexemes
  rw [unmarked]
  change Laid 0 _ (resolveSoft true (Scan.run _ 1 (Scan.atStart (TextLine.joined lines) 1 0)))
  rwa [resolveSoft_eq fun l => laid.isSoft_of_mem
    (fun r member => TextLine.hard_of_mem_rowsFrom sound member)]

end SlotLang.Reader
