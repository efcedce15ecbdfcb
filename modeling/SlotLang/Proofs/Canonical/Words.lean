import Mathlib.Data.List.TakeWhile
import SlotLang.Proofs.Numerals
import SlotLang.Source

/-!
# Words and lines of written text

Words that are written with single blanks between them are the words that `Word.ofLine` finds, and
lines that are each ended by a line feed are the lines that `Text.sourceLines` finds, but for an
empty one at the end. So the significant lines of such a text are known (`significantLines_written`).
-/

open List

namespace SlotLang

variable {l : List Char} {lines ws : List (List Char)}

def spaced : List (List Char) → List Char
  | [] => []
  | w :: ws => w ++ ws.flatMap (' ' :: ·)

/-- A word that is found where it is written. -/
structure IsWord (w : List Char) : Prop where
  nonempty : w ≠ []
  solid : ∀ c ∈ w, Text.isBlank c = false
  visible : w.head? ≠ some ';'

/-! ## Words -/

/-- The words of a text whose first character has the given column. -/
def Word.fromColumn (column : Nat) (cs : List Char) : List Word :=
  (Word.scan column cs).1.toList ++ (Word.scan column cs).2

/-- A blank divides a line: no word reaches across it. -/
theorem scan_split {c : Char} (blank : Text.isBlank c = true) (column : Nat) (cs ds : List Char) :
    Word.scan column (cs ++ c :: ds) = ((Word.scan column cs).1,
      (Word.scan column cs).2 ++ Word.fromColumn (column + cs.length + 1) ds) := by
  induction cs generalizing column with
  | nil => simp [Word.scan, Word.fromColumn, blank]
  | cons d cs ih =>
    have place : column + (cs.length + 1) = column + 1 + cs.length := by omega
    cases solid : Text.isBlank d <;> simp [Word.scan, ih, solid, place]

theorem fromColumn_split {c : Char} (blank : Text.isBlank c = true) (column : Nat)
    (cs ds : List Char) : Word.fromColumn column (cs ++ c :: ds) =
      Word.fromColumn column cs ++ Word.fromColumn (column + cs.length + 1) ds := by
  simp [Word.fromColumn, scan_split blank]

theorem fromColumn_solid {w : List Char} (nonempty : w ≠ [])
    (solid : ∀ c ∈ w, Text.isBlank c = false) (column : Nat) :
    Word.fromColumn column w = [⟨column, w⟩] := by
  have whole : Word.scan column w = (some ⟨column, w⟩, []) := by
    induction w generalizing column with
    | nil => exact absurd rfl nonempty
    | cons c w ih =>
      rw [forall_mem_cons] at solid
      cases w with
      | nil => simp [Word.scan, solid.1]
      | cons d w =>
        rw [Word.scan, ih (by simp) solid.2]
        simp [solid.1]
  rw [Word.fromColumn, whole]
  rfl

theorem chars_ofLine (words : ∀ w ∈ ws, IsWord w) :
    (Word.ofLine (spaced ws)).map Word.chars = ws := by
  have general (w : List Char) (ws : List (List Char)) (words : ∀ v ∈ w :: ws, IsWord v)
      (column : Nat) :
      (Word.fromColumn column (w ++ ws.flatMap (' ' :: ·))).map Word.chars = w :: ws := by
    induction ws generalizing w column with
    | nil =>
      have first := words w mem_cons_self
      rw [flatMap_nil, append_nil, fromColumn_solid first.nonempty first.solid]
      rfl
    | cons v ws ih =>
      rw [forall_mem_cons] at words
      rw [flatMap_cons, cons_append, fromColumn_split rfl, map_append, ih v words.2,
        fromColumn_solid words.1.nonempty words.1.solid]
      rfl
  cases ws with
  | nil => rfl
  | cons w ws => exact general w ws words 1

theorem kinds_ofLine (words : ∀ w ∈ ws, IsWord w) (line : Nat) :
    (Token.ofLine line (String.ofList (spaced ws))).map Token.kind = ws.map TokenKind.ofWord := by
  have found := chars_ofLine words
  have visible : ∀ v ∈ Word.ofLine (spaced ws), (!v.isComment) = true := by
    intro v member
    have word : v.chars ∈ ws := found ▸ mem_map_of_mem member
    simpa [Word.isComment] using (words _ word).visible
  rw [Token.ofLine, String.toList_ofList, takeWhile_eq_self_iff.2 visible, map_map]
  conv_rhs => rw [← found, map_map]
  rfl

/-! ## Lines -/

/-- Lines that are each ended by a line feed. -/
def ended (lines : List (List Char)) : List Char :=
  lines.flatMap (· ++ ['\n'])

theorem cutAtFeeds_append (single : '\n' ∉ l) (rest : List Char) :
    Text.cutAtFeeds (l ++ '\n' :: rest) = (l, Text.pieces rest) := by
  induction l with
  | nil => rfl
  | cons c l ih =>
    have other : c ≠ '\n' := fun same => single (same ▸ mem_cons_self)
    have step : Text.cutAtFeeds (c :: (l ++ '\n' :: rest)) =
        (c :: (Text.cutAtFeeds (l ++ '\n' :: rest)).1, (Text.cutAtFeeds (l ++ '\n' :: rest)).2) :=
      if_neg other
    rw [cons_append, step, ih fun member => single (mem_cons_of_mem _ member)]

theorem pieces_ended (single : ∀ l ∈ lines, '\n' ∉ l) :
    Text.pieces (ended lines) = lines ++ [[]] := by
  induction lines with
  | nil => rfl
  | cons l lines ih =>
    have text : ended (l :: lines) = l ++ '\n' :: ended lines := by
      simp [ended]
    rw [text, Text.pieces, cutAtFeeds_append (single l mem_cons_self),
      ih fun k member => single k (mem_cons_of_mem _ member)]
    rfl

theorem dropReturns_eq_self (none : '\r' ∉ l) : Text.dropReturns l = l := by
  have kept : l.reverse.dropWhile (· = '\r') = l.reverse := by
    rw [dropWhile_eq_self_iff]
    intro positive first
    have member : l.reverse[0] ∈ l := mem_reverse.1 (getElem_mem positive)
    exact none (of_decide_eq_true first ▸ member)
  rw [Text.dropReturns, kept, reverse_reverse]

theorem sourceLines_ended (plain : ∀ l ∈ lines, ∀ c ∈ l, c ≠ '\n' ∧ c ≠ '\r') :
    Text.sourceLines (ended lines) = lines ++ [[]] := by
  rw [Text.sourceLines, pieces_ended fun l member feed => (plain l member _ feed).1 rfl]
  have kept : lines.map Text.dropReturns = lines := by
    conv_rhs => rw [← map_id lines]
    exact map_congr_left fun l member =>
      dropReturns_eq_self fun back => (plain l member _ back).2 rfl
  rw [map_append, kept]
  rfl

theorem toList_unlines (lines : List String) :
    (Text.unlines lines).toList = ended (lines.map String.toList) := by
  have general (lines : List String) (s : String) :
      (lines.foldl (fun text line => text ++ line ++ "\n") s).toList =
        s.toList ++ ended (lines.map String.toList) := by
    induction lines generalizing s with
    | nil => simp [ended]
    | cons line lines ih =>
      rw [foldl_cons, ih]
      simp [ended]
  rw [Text.unlines, general]
  rfl

theorem dropReturn_eq_self (none : '\r' ∉ l) : Text.dropReturn l = l := by
  unfold Text.dropReturn
  split
  · next rest reversed =>
    exact absurd (mem_reverse.1 (reversed ▸ mem_cons_self)) none
  · rfl

theorem terminatedLines_ended (plain : ∀ l ∈ lines, ∀ c ∈ l, c ≠ '\n' ∧ c ≠ '\r') :
    Text.terminatedLines (ended lines) = lines := by
  rw [Text.terminatedLines, pieces_ended fun l member feed => (plain l member _ feed).1 rfl]
  induction lines with
  | nil => rfl
  | cons l lines ih =>
    have later := ih fun l member => plain l (mem_cons_of_mem _ member)
    have kept := dropReturn_eq_self fun back => (plain l mem_cons_self _ back).2 rfl
    obtain ⟨next, rest, more⟩ : ∃ next rest, lines ++ [[]] = next :: rest :=
      exists_cons_of_ne_nil (by simp)
    rw [cons_append, more, Text.endedLines, ← more, later, kept]
    nofun

theorem plain_spaced (words : ∀ w ∈ ws, IsWord w) : ∀ c ∈ spaced ws, c ≠ '\n' ∧ c ≠ '\r' := by
  have solid (c : Char) (member : ∃ w ∈ ws, c ∈ w) : c ≠ '\n' ∧ c ≠ '\r' := by
    obtain ⟨w, there, inside⟩ := member
    have visible := (words w there).solid c inside
    constructor
    · rintro rfl
      exact absurd visible (by decide)
    · rintro rfl
      exact absurd visible (by decide)
  intro c member
  cases ws with
  | nil => cases member
  | cons w ws =>
    rcases mem_append.1 member with first | later
    · exact solid c ⟨w, mem_cons_self, first⟩
    · obtain ⟨v, there, inside⟩ := mem_flatMap.1 later
      rcases mem_cons.1 inside with rfl | inside
      · decide
      · exact solid c ⟨v, mem_cons_of_mem _ there, inside⟩

theorem significantLines_written {s : Source} {lines : List (List (List Char))}
    (text : s.text.toList = ended (lines.map spaced))
    (words : ∀ ws ∈ lines, ws ≠ [] ∧ ∀ w ∈ ws, IsWord w) :
    s.significantLines = (lines.zipIdx 1).map fun (ws, n) =>
      ⟨n, String.ofList (spaced ws), Token.ofLine n (String.ofList (spaced ws))⟩ := by
  have plain : ∀ l ∈ lines.map spaced, ∀ c ∈ l, c ≠ '\n' ∧ c ≠ '\r' := by
    intro l member
    obtain ⟨ws, there, rfl⟩ := mem_map.1 member
    exact plain_spaced (words ws there).2
  have found : s.lines = lines.map (fun ws => String.ofList (spaced ws)) ++ [""] := by
    rw [Source.lines, text, sourceLines_ended plain, map_append, map_map]
    rfl
  rw [Source.significantLines, Source.tokenLines, found, zipIdx_append, map_append,
    filter_append, zipIdx_map, map_map, length_map]
  have nothing : ((([""].zipIdx (1 + lines.length)).map fun line =>
      (⟨line.2, line.1, Token.ofLine line.2 line.1⟩ : SourceLine)).filter
        fun l => !l.tokens.isEmpty) = [] := rfl
  refine (congrArg (_ ++ ·) nothing).trans ?_
  rw [append_nil, filter_eq_self.2]
  · rfl
  · intro l member
    obtain ⟨⟨ws, n⟩, there, rfl⟩ := mem_map.1 member
    have inside := words ws (fst_mem_of_mem_zipIdx there)
    have some : Token.ofLine n (String.ofList (spaced ws)) ≠ [] := by
      intro none
      have kinds := kinds_ofLine inside.2 n
      rw [none] at kinds
      exact inside.1 (map_eq_nil_iff.1 kinds.symm)
    simpa using some

end SlotLang
