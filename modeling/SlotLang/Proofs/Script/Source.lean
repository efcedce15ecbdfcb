import SlotLang.Proofs.Canonical.RoundTrip
import SlotLang.Proofs.Script.Parsing
import SlotLang.Subset.Source

/-!
# Scripts as sources

The text of a script is read back as the trees of its functions and statements. Cut into lines, the
text gives the lines of the script. Blanking the preamble and the helpers leaves a comment and blank
lines in their place and keeps everything else, so that what is read starts on the line where the
script has it.
-/

open List

namespace SlotLang

open Reader.TextLine

/-! ## Blanked lines -/

namespace Subset

variable {cs : List Char} {c : Char}

theorem startsWith_eq (s pat : String) : s.startsWith pat = pat.toList.isPrefixOf s.toList := by
  rw [Bool.eq_iff_iff, String.startsWith_string_iff, isPrefixOf_iff_prefix]

/-- Whether a line belongs to a preamble, by its characters. -/
def isPreambleLine (cs : List Char) : Bool :=
  cs == "import sys".toList || "sys.setrecursionlimit(".toList.isPrefixOf cs

/-- Whether a line starts a helper function, by its characters. -/
def isHelperLine (cs : List Char) : Bool :=
  Script.helperNames.any fun name => ("def " ++ name ++ "(").toList.isPrefixOf cs

/-- Whether a line can be inside a helper function, by its characters. -/
def isInnerLine (cs : List Char) : Bool :=
  " ".toList.isPrefixOf cs || "\t".toList.isPrefixOf cs || cs.all Text.isBlank

/-- What becomes of one line: whether a helper function goes on, and the line that is left. -/
def blanked (inHelper : Bool) (cs : List Char) : Bool × List Char :=
  if isPreambleLine cs then (inHelper, [])
  else
    let inHelper := isHelperLine cs || (inHelper && isInnerLine cs)
    (inHelper, if inHelper then [] else cs)

/-- What becomes of some lines. -/
def blankedAll (inHelper : Bool) : List (List Char) → List (List Char)
  | [] => []
  | cs :: rest => (blanked inHelper cs).2 :: blankedAll (blanked inHelper cs).1 rest

/-- Whether a helper function goes on behind some lines. -/
def inHelperAfter (inHelper : Bool) (lines : List (List Char)) : Bool :=
  lines.foldl (fun inHelper cs => (blanked inHelper cs).1) inHelper

theorem blankedAll_append (inHelper : Bool) (xs ys : List (List Char)) :
    blankedAll inHelper (xs ++ ys) =
      blankedAll inHelper xs ++ blankedAll (inHelperAfter inHelper xs) ys := by
  induction xs generalizing inHelper with
  | nil => rfl
  | cons cs xs ih => exact congrArg (_ :: ·) (ih _)

theorem isPreamble_eq (line : String) : isPreamble line = isPreambleLine line.toList := by
  have same : decide (line = "import sys") = (line.toList == "import sys".toList) := by
    rw [Bool.eq_iff_iff, decide_eq_true_iff, beq_iff_eq, String.toList_inj]
  rw [isPreamble, isPreambleLine, startsWith_eq, same]

theorem isHelperDef_eq (line : String) : isHelperDef line = isHelperLine line.toList := by
  simp only [isHelperDef, isHelperLine, startsWith_eq]

theorem map_blankHelpers (inHelper : Bool) (lines : List String) :
    (blankHelpers inHelper lines).map String.toList = blankedAll inHelper (lines.map String.toList) := by
  induction lines generalizing inHelper with
  | nil => rfl
  | cons line rest ih =>
    have inner : (isIndented line || Text.isBlankText line) = isInnerLine line.toList := by
      simp only [isIndented, isInnerLine, startsWith_eq, Text.isBlankText]
    rw [blankHelpers, map_cons, blankedAll, blanked, isPreamble_eq, isHelperDef_eq, inner]
    split
    · rw [map_cons, ih]
      rfl
    · rw [map_cons, ih]
      dsimp only
      split <;> rfl

/-- Whether a line is left as it is outside of helper functions. -/
def isKept (cs : List Char) : Bool :=
  !isPreambleLine cs && !isHelperLine cs

/-- Whether the first line that is not empty stands at the left margin. -/
def opensAtMargin : List (List Char) → Bool
  | [] => true
  | [] :: rest => opensAtMargin rest
  | cs :: _ => !isInnerLine cs

theorem blanked_of_isKept (kept : isKept cs = true) (inHelper : Bool) :
    blanked inHelper cs = (inHelper && isInnerLine cs,
      if (inHelper && isInnerLine cs) = true then [] else cs) := by
  simp only [isKept, Bool.and_eq_true, Bool.not_eq_true'] at kept
  rw [blanked, kept.1, kept.2]
  rfl

theorem blankedAll_eq_self {lines : List (List Char)} (kept : ∀ cs ∈ lines, isKept cs = true)
    {inHelper : Bool} (outside : inHelper = true → opensAtMargin lines = true) :
    blankedAll inHelper lines = lines := by
  induction lines generalizing inHelper with
  | nil => rfl
  | cons cs rest ih =>
    have here := blanked_of_isKept (kept cs mem_cons_self) inHelper
    have later := fun cs member => kept cs (mem_cons_of_mem _ member)
    rw [blankedAll, here]
    cases inHelper with
    | false => exact congrArg (cs :: ·) (ih later nofun)
    | true =>
      cases cs with
      | nil => exact congrArg ([] :: ·) (ih later outside)
      | cons c cs =>
        have margin : isInnerLine (c :: cs) = false := by simpa [opensAtMargin] using outside rfl
        rw [margin]
        exact congrArg ((c :: cs) :: ·) (ih later nofun)

/-- The first two characters tell that a line is kept. -/
theorem isKept_of_ne (other : c ≠ 's' ∧ c ≠ 'd') (second : c = 'i' → cs.head? ≠ some 'm') :
    isKept (c :: cs) = true := by
  have noImport : (c :: cs == "import sys".toList) = false := by
    refine beq_eq_false_iff_ne.2 fun same => ?_
    obtain ⟨rfl, rfl⟩ := List.cons.inj same
    exact second rfl rfl
  have preamble : isPreambleLine (c :: cs) = false := by
    rw [isPreambleLine, noImport]
    simp [List.isPrefixOf, other.1.symm]
  have helper : isHelperLine (c :: cs) = false := by
    simp [isHelperLine, Script.helperNames, List.isPrefixOf, other.2.symm]
  rw [isKept, preamble, helper]
  rfl

theorem isInnerLine_of_visible (visible : Text.isBlank c = false) :
    isInnerLine (c :: cs) = false := by
  have noSpace : ' ' ≠ c := by
    rintro rfl
    cases visible
  have noTab : '\t' ≠ c := by
    rintro rfl
    cases visible
  simp [isInnerLine, List.isPrefixOf, visible, noSpace, noTab]

end Subset

namespace Script

variable {s : Script} {c : Char} {cs : List Char} {d : Def} {defs : List Def}

open Reader Reader.Parsing

/-! ## Lines of statements -/

/-- Characters that no line of a preamble or a helper function starts with. -/
inductive Opens : List Char → Prop where
  | mk {c : Char} {cs : List Char} (visible : Text.isBlank c = false) (other : c ≠ 's' ∧ c ≠ 'd')
    (second : c = 'i' → cs.head? ≠ some 'm') : Opens (c :: cs)

theorem Opens.isKept (opens : Opens cs) (blanks : Nat) :
    Subset.isKept (List.replicate blanks ' ' ++ cs) = true := by
  cases blanks with
  | zero =>
    obtain ⟨-, other, second⟩ := opens
    exact Subset.isKept_of_ne other second
  | succ blanks => exact Subset.isKept_of_ne (by decide) nofun

/-- A line that opens with visible characters somewhere. -/
def IsInset (depth : Nat) (l : TextLine) : Prop :=
  ∃ cs, l.chars = List.replicate (4 * depth) ' ' ++ cs ∧ Opens cs

theorem isInset_word {text : String} (depth : Nat) (ps : List Piece) (shape : text.toList = c :: cs)
    (opens : ∀ rest, Opens (c :: (cs ++ rest))) :
    IsInset depth (.code depth (.word text :: ps)) := by
  refine ⟨c :: (cs ++ Piece.spell ps), ?_, opens _⟩
  rw [chars, spell_cons, Piece.chars, shape]
  rfl

/-- The lines of a statement: the first one at its depth, the others deeper. -/
def IsInsetBlock (depth : Nat) (lines : List TextLine) : Prop :=
  (∀ l ∈ lines.head?, IsInset depth l) ∧ ∀ l ∈ lines, ∃ depth, IsInset depth l

theorem isInsetBlock_cons {depth : Nat} {l : TextLine} {more : List TextLine} (first : IsInset depth l)
    (later : ∀ l ∈ more, ∃ depth, IsInset depth l) : IsInsetBlock depth (l :: more) := by
  refine ⟨?_, forall_mem_cons.2 ⟨⟨depth, first⟩, later⟩⟩
  rintro _ ⟨⟩
  exact first

theorem isInset_slot {o : Operand} (slot : o.isSlot = true) (depth : Nat) (ps : List Piece) :
    IsInset depth (.code depth (operandPieces o ++ ps)) := by
  cases o with
  | lit v => cases slot
  | global n | var n | arg n =>
    exact isInset_word depth ps (toList_slot slot) fun _ => .mk rfl ⟨nofun, nofun⟩ nofun

mutual

theorem Stmt.isInsetBlock_source {s : Stmt} (known : s.IsKnown) (depth : Nat) :
    IsInsetBlock depth (s.source depth) := by
  cases s with
  | assign dest t =>
    rw [Stmt.source]
    exact isInsetBlock_cons (isInset_slot known.1 depth _) nofun
  | print o | ret o | setPc k | again | leave =>
    rw [Stmt.source]
    exact isInsetBlock_cons (isInset_word depth _ rfl fun _ => .mk rfl (by decide) nofun) nofun
  | raise message => cases known
  | note label =>
    rw [Stmt.source]
    exact isInsetBlock_cons ⟨_, rfl, .mk rfl (by decide) nofun⟩ nofun
  | whenNonzero o body | whenPc k body =>
    rw [Stmt.source]
    have shape : "if".toList = ['i', 'f'] := by decide
    exact isInsetBlock_cons (isInset_word depth _ shape fun _ => .mk rfl (by decide) fun _ => nofun)
      (isInsetBlock_blockSource known.2 (depth + 1)).2
  | forever body =>
    rw [Stmt.source]
    exact isInsetBlock_cons (isInset_word depth _ rfl fun _ => .mk rfl (by decide) nofun)
      (isInsetBlock_blockSource known.2 (depth + 1)).2

theorem isInsetBlock_blockSource {body : List Stmt} (known : AllKnown body) (depth : Nat) :
    IsInsetBlock depth (blockSource depth body) := by
  cases body with
  | nil => exact ⟨nofun, nofun⟩
  | cons s rest =>
    obtain ⟨first, lines⟩ := s.isInsetBlock_source known.1 depth
    rw [blockSource]
    refine ⟨?_, forall_mem_append.2 ⟨lines, (isInsetBlock_blockSource known.2 depth).2⟩⟩
    intro l member
    cases source : s.source depth with
    | nil =>
      rw [source] at member
      exact (isInsetBlock_blockSource known.2 depth).1 l member
    | cons l' more =>
      rw [source] at member first
      exact first l member

end

/-! ## Lines of scripts -/

/-- What blanking leaves of the lines in front of a script. -/
def opening : List TextLine :=
  .silent ('#' :: " Generated by sui2py.".toList) :: List.replicate 25 (.silent [])

theorem blankedAll_preamble : Subset.blankedAll false (preambleLines.map String.toList) =
    opening.map chars := by
  decide +kernel

/-- The lines in front of a script end with a helper function. -/
theorem inHelperAfter_preamble :
    Subset.inHelperAfter false (preambleLines.map String.toList) = true := by
  decide +kernel

/-- The lines of functions, each behind two empty lines. -/
def defsSource (defs : List Def) : List TextLine :=
  defs.flatMap fun d => .silent [] :: .silent [] :: d.source

/-- The lines of the module code behind two empty lines, if there is some. -/
def bodySource (s : Script) : List TextLine :=
  if s.hasBody then .silent [] :: .silent [] :: blockSource 0 s.body else []

/-- The lines of a script that are read. -/
def source (s : Script) : List TextLine :=
  opening ++ (defsSource s.defs ++ s.bodySource)

/-- A script that can be read back: its statements are known, and blocks are not nested deeply. -/
structure Readable (s : Script) : Prop where
  defs : ∀ d ∈ s.defs, AllKnown d.body ∧ d.levels ≤ 20
  body : AllKnown s.body
  levels : blockLevels s.body ≤ 20

theorem map_chars_defsSource (defs : List Def) :
    (defsSource defs).map chars =
      (defs.flatMap fun d => ["", ""] ++ d.lines).map String.toList := by
  induction defs with
  | nil => rfl
  | cons d rest ih =>
    rw [defsSource, flatMap_cons, ← defsSource, flatMap_cons, map_append, ih, map_append]
    exact congrArg (fun lines => [] :: [] :: lines ++ _) d.chars_source

theorem map_chars_bodySource (s : Script) :
    s.bodySource.map chars =
      (if s.hasBody then ["", ""] ++ blockLines 0 s.body else []).map String.toList := by
  unfold bodySource
  split
  · exact congrArg (fun lines => [] :: [] :: lines) (chars_blockSource 0 s.body)
  · rfl

theorem map_toList_lines (s : Script) :
    (preambleLines ++ (s.defs.flatMap fun d => ["", ""] ++ d.lines) ++
      if s.hasBody then ["", ""] ++ blockLines 0 s.body else []).map String.toList =
      preambleLines.map String.toList ++ (defsSource s.defs ++ s.bodySource).map chars := by
  rw [map_append, map_append, map_append, map_chars_defsSource, map_chars_bodySource, append_assoc]

theorem sound_source (readable : s.Readable) :
    ∀ l ∈ defsSource s.defs ++ s.bodySource, l.Sound := by
  refine forall_mem_append.2 ⟨fun l member => ?_, ?_⟩
  · obtain ⟨d, there, inside⟩ := mem_flatMap.1 member
    simp only [mem_cons] at inside
    rcases inside with rfl | rfl | inside
    · exact IsSilent.empty
    · exact IsSilent.empty
    · exact Def.sound_source (readable.defs d there).1 l inside
  · unfold bodySource
    split
    · exact forall_mem_cons.2 ⟨.empty, forall_mem_cons.2
        ⟨.empty, sound_blockSource readable.body 0⟩⟩
    · exact nofun

theorem isKept_header (cs : List Char) :
    Subset.isKept ('d' :: 'e' :: 'f' :: ' ' :: 'f' :: cs) = true := by
  simp [Subset.isKept, Subset.isPreambleLine, Subset.isHelperLine, helperNames, List.isPrefixOf]

theorem Def.map_chars_source (d : Def) : ∃ cs, d.source.map chars =
    ('d' :: 'e' :: 'f' :: ' ' :: 'f' :: cs) ::
      (d.declaration ++ blockSource 1 d.stmts).map chars := by
  have header : (code 0 (.word "def" :: .gap :: (applied (funcName d.index)
      (listed (d.params.map fun name => [.word name])) ++ [.sign ":"]))).chars =
      'd' :: 'e' :: 'f' :: ' ' :: 'f' :: (digits d.index.toNat ++ '(' :: (Piece.spell
        (listed (d.params.map fun name => [.word name])) ++ [')', ':'])) := by
    simp [chars, spell_cons, spell_append, spell_applied, toList_funcName, Piece.chars]
  exact ⟨_, congrArg (· :: _) header⟩

theorem Def.isKept_source (known : AllKnown d.body) :
    ∀ cs ∈ d.source.map chars, Subset.isKept cs = true := by
  obtain ⟨cs, lines⟩ := d.map_chars_source
  rw [lines]
  refine forall_mem_cons.2 ⟨isKept_header cs, fun cs member => ?_⟩
  obtain ⟨l, there, rfl⟩ := mem_map.1 member
  rcases mem_append.1 there with declared | inside
  · unfold Def.declaration at declared
    split at declared
    · cases declared
    · obtain rfl := mem_singleton.1 declared
      have globals : "global".toList = ['g', 'l', 'o', 'b', 'a', 'l'] := by decide
      obtain ⟨cs, shape, opens⟩ := isInset_word 1 _ globals fun _ => .mk rfl (by decide) nofun
      rw [shape]
      exact opens.isKept _
  · obtain ⟨depth, cs, shape, opens⟩ :=
      (isInsetBlock_blockSource (Def.allKnown_stmts known) 1).2 l inside
    rw [shape]
    exact opens.isKept _

/-- No line of a script but those of its preamble is blanked. -/
theorem isKept_source (readable : s.Readable) :
    ∀ cs ∈ (defsSource s.defs ++ s.bodySource).map chars, Subset.isKept cs = true := by
  have empty : Subset.isKept [] = true := rfl
  intro cs member
  obtain ⟨l, there, rfl⟩ := mem_map.1 member
  rcases mem_append.1 there with inDefs | inBody
  · obtain ⟨d, known, inside⟩ := mem_flatMap.1 inDefs
    simp only [mem_cons] at inside
    rcases inside with rfl | rfl | inside
    · exact empty
    · exact empty
    · exact Def.isKept_source (readable.defs d known).1 _ (mem_map_of_mem inside)
  · unfold bodySource at inBody
    split at inBody
    · simp only [mem_cons] at inBody
      rcases inBody with rfl | rfl | inside
      · exact empty
      · exact empty
      · obtain ⟨depth, cs, shape, opens⟩ := (isInsetBlock_blockSource readable.body 0).2 l inside
        rw [shape]
        exact opens.isKept _
    · cases inBody

/-- What follows the preamble starts at the left margin. -/
theorem opensAtMargin_source (readable : s.Readable) :
    Subset.opensAtMargin ((defsSource s.defs ++ s.bodySource).map chars) = true := by
  cases defs : s.defs with
  | cons d rest =>
    obtain ⟨cs, lines⟩ := d.map_chars_source
    rw [defsSource, flatMap_cons, cons_append, cons_append, cons_append,
      cons_append, map_cons, map_cons, append_assoc, map_append, lines]
    rfl
  | nil =>
    change Subset.opensAtMargin (s.bodySource.map chars) = true
    unfold bodySource
    split
    · have first := (isInsetBlock_blockSource readable.body 0).1
      cases body : blockSource 0 s.body with
      | nil => rfl
      | cons l more =>
        rw [body] at first
        obtain ⟨cs, shape, ⟨visible, -, -⟩⟩ := first l rfl
        rw [map_cons, map_cons, map_cons, shape]
        change (!Subset.isInnerLine (_ :: _)) = true
        rw [Subset.isInnerLine_of_visible visible]
        rfl
    · rfl

theorem sound_opening : ∀ l ∈ opening, l.Sound := by
  refine forall_mem_cons.2 ⟨?_, fun l member => ?_⟩
  · have plain : " Generated by sui2py.".toList.all (fun c => !isLineEnd c) = true := by decide
    refine IsSilent.comment 0 fun c member => ?_
    simpa using all_eq_true.1 plain c member
  · rw [(mem_replicate.1 member).2]
    exact IsSilent.empty

theorem ne_of_isLineEnd (inside : isLineEnd c = false) : c ≠ '\n' ∧ c ≠ '\r' := by
  simpa [isLineEnd] using inside

/-- What is read of a text is the lines that are read of its script. -/
theorem toList_withoutHelpers (readable : s.Readable) :
    (Subset.withoutHelpers s.text).toList = joined s.source := by
  have preamble : ∀ l ∈ preambleLines.map String.toList, ∀ c ∈ l, c ≠ '\n' ∧ c ≠ '\r' := by
    have plain : (preambleLines.map String.toList).all (fun l => l.all fun c => !isLineEnd c) =
        true := by decide +kernel
    intro l member c inside
    have visible := all_eq_true.1 (all_eq_true.1 plain l member) c inside
    exact ne_of_isLineEnd (by simpa using visible)
  have own : ∀ l ∈ (defsSource s.defs ++ s.bodySource).map chars,
      ∀ c ∈ l, c ≠ '\n' ∧ c ≠ '\r' := by
    intro l member c inside
    obtain ⟨l, there, rfl⟩ := mem_map.1 member
    exact ne_of_isLineEnd (inLine (sound_source readable l there) c inside)
  have cut : Text.terminatedLines s.text.toList = preambleLines.map String.toList ++
      (defsSource s.defs ++ s.bodySource).map chars := by
    rw [text, toList_unlines, map_toList_lines]
    exact terminatedLines_ended (forall_mem_append.2 ⟨preamble, own⟩)
  have back (lines : List (List Char)) : (lines.map String.ofList).map String.toList = lines := by
    simp [Function.comp_def]
  rw [Subset.withoutHelpers, String.toList_intercalate, Subset.map_blankHelpers, cut, back,
    Subset.blankedAll_append, blankedAll_preamble, inHelperAfter_preamble,
    Subset.blankedAll_eq_self (isKept_source readable) fun _ => opensAtMargin_source readable,
    joined_eq, source, ← map_append]
  rfl

/-! ## Trees of scripts -/

/-- The trees of functions behind a line, each with two empty lines in front of it. -/
def defsTrees (line : Nat) : List Def → List Reader.Stmt
  | [] => []
  | d :: rest => d.tree (line + 2) :: defsTrees (line + 2 + d.source.length) rest

/-- The trees of the module code behind a line. -/
def bodyTrees (line : Nat) (s : Script) : List Reader.Stmt :=
  if s.hasBody then blockTrees (line + 2) s.body else []

def trees (s : Script) : List Reader.Stmt :=
  defsTrees 27 s.defs ++ s.bodyTrees (27 + (defsSource s.defs).length)

variable {fuel line : Nat} {rows : List Row} {ls : List Lexeme}

theorem isPlainRow_bodySource (known : AllKnown s.body) (line : Nat) :
    ∀ r ∈ rowsFrom line s.bodySource, IsPlainRow r := by
  unfold bodySource
  split
  · exact isPlainRow_blockSource known (line + 2) 0
  · exact nofun

theorem Def.isPlainRow_source (known : AllKnown d.body) (line : Nat) :
    ∀ r ∈ rowsFrom line d.source, IsPlainRow r := by
  refine forall_mem_cons.2 ⟨isPlainRow_word _ (by decide), ?_⟩
  rw [rowsFrom_append]
  refine forall_mem_append.2 ⟨?_, isPlainRow_blockSource (Def.allKnown_stmts known) _ 1⟩
  unfold Def.declaration
  split
  · exact nofun
  · exact forall_mem_singleton.2 (isPlainRow_word _ (by decide))

theorem rowsFrom_defsSource_cons (line : Nat) (d : Def) (rest : List Def) :
    rowsFrom line (defsSource (d :: rest)) = rowsFrom (line + 2) d.source ++
      rowsFrom (line + 2 + d.source.length) (defsSource rest) := by
  change rowsFrom (line + 2) (d.source ++ defsSource rest) = _
  rw [rowsFrom_append]

theorem isPlainRow_defsSource (known : ∀ d ∈ defs, AllKnown d.body) (line : Nat) :
    ∀ r ∈ rowsFrom line (defsSource defs), IsPlainRow r := by
  induction defs generalizing line with
  | nil => exact nofun
  | cons d rest ih =>
    rw [rowsFrom_defsSource_cons]
    exact forall_mem_append.2 ⟨Def.isPlainRow_source (known d mem_cons_self) _,
      ih (fun d member => known d (mem_cons_of_mem _ member)) _⟩

/-- A function starts at the left margin. -/
theorem head_defsSource_le (line : Nat) (defs : List Def) (shallow : ∀ r ∈ rows.head?, r.depth ≤ 0) :
    ∀ r ∈ (rowsFrom line (defsSource defs) ++ rows).head?, r.depth ≤ 0 := by
  cases defs with
  | nil => exact shallow
  | cons d rest =>
    rw [rowsFrom_defsSource_cons]
    rintro _ ⟨⟩
    exact Nat.le_refl 0

theorem yields_defs (depth : Nat) (known : ∀ d ∈ defs, AllKnown d.body ∧ d.levels ≤ fuel)
    (laid : Laid 0 (rowsFrom line (defsSource defs) ++ rows) ls)
    (shallow : ∀ r ∈ rows.head?, r.depth ≤ 0) (unrelated : ∀ r ∈ rows, IsPlainRow r) :
    Yields depth fuel 0 ls (defsTrees line defs) rows := by
  induction defs generalizing line ls with
  | nil => exact ⟨ls, laid, .nil ls⟩
  | cons d rest ih =>
    have later := fun d member => known d (mem_cons_of_mem _ member)
    rw [rowsFrom_defsSource_cons, append_assoc] at laid
    obtain ⟨first, enough⟩ := known d mem_cons_self
    obtain ⟨between, laidBetween, read⟩ := Def.yields depth fuel first enough laid
      (head_defsSource_le _ rest shallow) (forall_mem_append.2
        ⟨isPlainRow_defsSource (fun d member => (later d member).1) _, unrelated⟩)
    obtain ⟨after, laidAfter, others⟩ := ih later laidBetween
    exact ⟨after, laidAfter, read.append others⟩

theorem yields_body (depth : Nat) (known : AllKnown s.body) (enough : blockLevels s.body ≤ fuel)
    (laid : Laid 0 (rowsFrom line s.bodySource) ls) :
    Yields depth fuel 0 ls (s.bodyTrees line) [] := by
  unfold bodySource at laid
  unfold bodyTrees
  split at laid
  · next some =>
    rw [if_pos some]
    have block : Laid 0 (rowsFrom (line + 2) (blockSource 0 s.body) ++ []) ls := by
      rwa [append_nil]
    exact yields_block depth fuel known enough block nofun nofun
  · next none =>
    rw [if_neg none]
    exact ⟨ls, laid, .nil ls⟩

theorem head_bodySource_le (known : AllKnown s.body) (line : Nat) :
    ∀ r ∈ (rowsFrom line s.bodySource).head?, r.depth ≤ 0 := by
  unfold bodySource
  split
  · have shallow : ∀ r ∈ (rowsFrom (line + 2) (blockSource 0 s.body) ++ []).head?,
        r.depth ≤ 0 := head_depth_le known (line + 2) nofun
    rwa [append_nil] at shallow
  · exact nofun

theorem stepsFrom_source : TextLine.StepsFrom 0 s.source := by
  have body : TextLine.StepsFrom 0 s.bodySource := by
    unfold bodySource
    split
    · have steps : TextLine.StepsFrom 0 (blockSource 0 s.body ++ []) :=
        stepsFrom_blockSource s.body (Nat.zero_le 1) trivial
      rwa [append_nil] at steps
    · trivial
  have defs : ∀ defs : List Def, TextLine.StepsFrom 0 (defsSource defs ++ s.bodySource) := by
    intro defs
    induction defs with
    | nil => exact body
    | cons d rest ih =>
      rw [defsSource, flatMap_cons, ← defsSource, append_assoc]
      exact d.stepsFrom_source ih
  exact defs s.defs

/-- The text of a script is read as the trees of the script. -/
theorem parseModule_text (readable : s.Readable) :
    parseModule (Subset.withoutHelpers s.text) = .ok s.trees := by
  have chars := toList_withoutHelpers readable
  have sound : ∀ l ∈ s.source, l.Sound :=
    forall_mem_append.2 ⟨sound_opening, sound_source readable⟩
  have laid := laid_lexemes sound stepsFrom_source rfl
  have rows : rowsFrom 1 s.source = rowsFrom 27 (defsSource s.defs) ++
      rowsFrom (27 + (defsSource s.defs).length) s.bodySource := by
    rw [source, rowsFrom_append, rowsFrom_append]
    rfl
  rw [rows, ← chars] at laid
  -- The first comment alone is longer than blocks are deep.
  have enough : 20 ≤ (Subset.withoutHelpers s.text).length + 1 := by
    rw [← String.length_toList, chars]
    have comment : ('#' :: " Generated by sui2py.".toList).length = 22 := by decide
    rw [source, opening, cons_append, joined_cons, length_append, TextLine.chars, comment]
    omega
  obtain ⟨depth, long⟩ := Nat.exists_eq_add_of_le' (Nat.le_trans (show 6 ≤ 20 by decide) enough)
  rw [long] at enough
  have known : ∀ d ∈ s.defs, AllKnown d.body ∧ d.levels ≤ depth + 6 := fun d member =>
    ⟨(readable.defs d member).1, Nat.le_trans (readable.defs d member).2 enough⟩
  obtain ⟨between, laidBetween, first⟩ := yields_defs depth known laid
    (head_bodySource_le readable.body _) (isPlainRow_bodySource readable.body _)
  obtain ⟨rest, laidRest, second⟩ := yields_body depth readable.body
    (Nat.le_trans readable.levels enough) laidBetween
  have ended : kindOf rest = .eof := by
    cases laidRest with
    | @done _ dedents last closed ended =>
      obtain rfl := map_eq_nil_iff.1 closed
      exact ended
  have read := moduleOfDepth_of_many (first.append second) ended
  rw [← map_append, flatten_map_singleton, ← long] at read
  exact parseModule_of_module read

end Script

end SlotLang
