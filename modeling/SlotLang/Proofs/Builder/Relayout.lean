import SlotLang.Proofs.Builder.Blocks
import SlotLang.Proofs.Canonical.RoundTrip
import SlotLang.Proofs.Tokens

/-!
# Layout

A source means what its tokens mean. Erasing every line number and every place from a draft is kept in
step with taking in lines (`Draft.bare_feed`), so sources whose lines carry the same texts lead to
programs and reports that agree but for numbers of lines (`Draft.bare_foldl`). White space, comments and
blank lines leave no trace in these texts (`texts_of_relaid`).
-/

open List

namespace SlotLang

/-! ## Drafts without places -/

/-- The problem without the number of a line. -/
def Problem.bare : Problem → Problem
  | .duplicateLabel label _ scope => .duplicateLabel label 0 scope
  | problem => problem

/-- The finding without its place. -/
def Finding.bare (f : Finding) : Finding :=
  .onLine f.problem.bare 0

/-- The open function without the numbers of its lines. -/
def OpenFunc.bare (o : OpenFunc) : OpenFunc :=
  { o with line := 0, body := o.body.map Instruction.bare }

/-- The draft without places. -/
def Draft.bare (d : Draft) : Draft where
  code := d.code.map Instruction.bare
  funcs := d.funcs.map Func.bare
  current := d.current.map OpenFunc.bare
  findings := d.findings.map Finding.bare

/-- The line without places. -/
def SourceLine.bare (l : SourceLine) : SourceLine :=
  ⟨0, "", l.tokens.map (Token.moved fun _ => default)⟩

theorem Problem.code_bare (p : Problem) : p.bare.code = p.code := by
  cases p <;> rfl

@[simp] theorem Finding.bare_bare (f : Finding) : f.bare.bare = f.bare := by
  cases f with
  | mk problem span => cases problem <;> rfl

@[simp] theorem Finding.bare_onLine (p : Problem) (line : Nat) :
    (Finding.onLine p line).bare = .onLine p.bare 0 := rfl

@[simp] theorem Instruction.bare_bare (i : Instruction) : i.bare.bare = i.bare := rfl

@[simp] theorem Func.bare_bare (f : Func) : f.bare.bare = f.bare := by
  simp [Func.bare, Function.comp_def]

@[simp] theorem OpenFunc.bare_bare (o : OpenFunc) : o.bare.bare = o.bare := by
  simp [OpenFunc.bare, Function.comp_def]

theorem slotCount_bare (pick : Operand → Option UInt32) (code : List Instruction) :
    slotCount pick (code.map Instruction.bare) = slotCount pick code :=
  SameCode.slotCount_eq (by simp [SameCode, Function.comp_def]) pick

theorem bodies_bare (funcs : List Func) (code : List Instruction) :
    (funcs.map Func.bare).flatMap Func.body ++ code.map Instruction.bare =
      (funcs.flatMap Func.body ++ code).map Instruction.bare := by
  rw [map_append, flatMap_map, map_flatMap]
  rfl

/-! ## Findings without places -/

namespace Draft

/-- What is found instruction by instruction does not depend on lines, if it does not for any one. -/
theorem bare_flatMap {g : Instruction → List Finding}
    (inert : ∀ i, (g i.bare).map Finding.bare = (g i).map Finding.bare) (code : List Instruction) :
    ((code.map Instruction.bare).flatMap g).map Finding.bare = (code.flatMap g).map Finding.bare := by
  rw [map_flatMap, map_flatMap, flatMap_map]
  exact flatMap_congr fun i _ => inert i

theorem bare_filterMap {g : Instruction → Option Finding}
    (inert : ∀ i, (g i.bare).map Finding.bare = (g i).map Finding.bare) (code : List Instruction) :
    ((code.map Instruction.bare).filterMap g).map Finding.bare =
      (code.filterMap g).map Finding.bare := by
  rw [map_filterMap, map_filterMap, filterMap_map]
  exact filterMap_congr fun i _ => inert i

theorem bare_argumentFindings (index paramCount : UInt32) (body : List Instruction) :
    (argumentFindings index paramCount (body.map Instruction.bare)).map Finding.bare =
      (argumentFindings index paramCount body).map Finding.bare := by
  refine bare_flatMap (fun i => ?_) body
  rw [map_filterMap, map_filterMap]
  refine filterMap_congr fun o _ => ?_
  cases o with
  | arg n =>
    dsimp only
    split <;> rfl
  | global n | var n | lit v => rfl

theorem bare_moduleFindings (code : List Instruction) :
    (moduleFindings (code.map Instruction.bare)).map Finding.bare =
      (moduleFindings code).map Finding.bare := by
  refine bare_flatMap (fun i => ?_) code
  rw [map_append, map_append, map_filterMap, map_filterMap]
  congr 1
  · by_cases ret : i.opcode = .ret <;> simp [Instruction.bare, ret]
  · refine filterMap_congr fun o _ => ?_
    cases o <;> rfl

theorem bare_duplicateFindings (scope : Scope) (seen : List (UInt32 × Nat)) (code : List Instruction) :
    (duplicateFindings scope (seen.map fun e => (e.1, 0)) (code.map Instruction.bare)).map Finding.bare =
      (duplicateFindings scope seen code).map Finding.bare := by
  induction code generalizing seen with
  | nil => rfl
  | cons i rest ih =>
    have found (label : UInt32) : (seen.map fun e => (e.1, 0)).lookup label =
        (seen.lookup label).map fun _ => 0 := by
      induction seen with
      | nil => rfl
      | cons e seen ih =>
        rw [map_cons, lookup_cons, lookup_cons, ih]
        cases label == e.1 <;> rfl
    have label : i.bare.definedLabel? = i.definedLabel? := rfl
    rw [map_cons, duplicateFindings, duplicateFindings, label]
    cases i.definedLabel? with
    | none => exact ih seen
    | some label =>
      dsimp only
      rw [map_append, map_append, found, ← ih ((label, i.line) :: seen)]
      congr 1
      cases seen.lookup label <;> rfl

theorem bare_labelFindings (scope : Scope) (code : List Instruction) :
    (labelFindings scope (code.map Instruction.bare)).map Finding.bare =
      (labelFindings scope code).map Finding.bare := by
  have duplicate := bare_duplicateFindings scope [] code
  have defined : (code.map Instruction.bare).filterMap Instruction.definedLabel? =
      code.filterMap Instruction.definedLabel? := filterMap_map
  have undefined : (undefinedFindings scope (code.map Instruction.bare)).map Finding.bare =
      (undefinedFindings scope code).map Finding.bare := by
    rw [undefinedFindings, undefinedFindings, defined]
    refine bare_filterMap (fun i => ?_) code
    have target : i.bare.label? = i.label? := rfl
    have opcode : i.bare.opcode = i.opcode := rfl
    rw [target, opcode]
    by_cases jump : i.opcode = .jump ∨ i.opcode = .jumpIf
    · rw [if_pos jump, if_pos jump]
      cases i.label? with
      | none => rfl
      | some label =>
        dsimp only
        split <;> rfl
    · rw [if_neg jump, if_neg jump]
  rw [labelFindings, labelFindings, map_append, map_append, undefined]
  exact congrArg (· ++ _) duplicate

theorem bare_callFindings (known : UInt32) (funcs : List Func) (code : List Instruction) :
    (callFindings known (funcs.map Func.bare) (code.map Instruction.bare)).map Finding.bare =
      (callFindings known funcs code).map Finding.bare := by
  have same (index : UInt32) : ((funcs.map Func.bare).any fun f => f.index == index) =
      funcs.any fun f => f.index == index := any_map
  simp only [callFindings, bodies_bare, same]
  refine bare_filterMap (fun i => ?_) _
  have target : i.bare.callTarget? = i.callTarget? := rfl
  rw [target]
  cases i.callTarget? with
  | none => rfl
  | some call =>
    dsimp only [Option.bind_some]
    split <;> rfl

variable {known : UInt32} {d : Draft}

theorem bare_allFindings : (d.bare.allFindings known).map Finding.bare =
    (d.allFindings known).map Finding.bare := by
  have labels : ((d.funcs.toList.map Func.bare).flatMap fun f =>
        labelFindings (.ofFunc f.index) f.body).map Finding.bare =
      (d.funcs.toList.flatMap fun f => labelFindings (.ofFunc f.index) f.body).map Finding.bare := by
    rw [map_flatMap, map_flatMap, flatMap_map]
    exact flatMap_congr fun f _ => bare_labelFindings _ f.body
  have unclosed : d.bare.unclosedFindings.map Finding.bare = d.unclosedFindings.map Finding.bare := by
    unfold unclosedFindings bare
    cases d.current <;> rfl
  simp only [allFindings, map_append, unclosed]
  simp [bare, bare_moduleFindings, bare_labelFindings, bare_callFindings, labels, Function.comp_def]

/-! ## Steps without places -/

theorem bare_bare : d.bare.bare = d.bare := by
  simp [bare, Function.comp_def]

theorem bare_note (f : Finding) : (d.note f).bare = d.bare.note f.bare := by
  simp [bare, note]

theorem indexProblem?_bare (index : UInt32) :
    d.bare.indexProblem? known index = d.indexProblem? known index := by
  have funcs : d.bare.funcs.toList = d.funcs.toList.map Func.bare := Array.toList_map
  have next : d.bare.nextIndex known = d.nextIndex known := by
    rw [nextIndex, funcs, filter_map, length_map]
    rfl
  have defined : (d.bare.funcs.any fun f => f.index == index) =
      d.funcs.any fun f => f.index == index := by
    rw [← Array.any_toList, ← Array.any_toList, funcs, any_map]
    rfl
  simp only [indexProblem?, next, defined]

theorem bare_openFunc (index paramCount : UInt32) (line : Nat) :
    (d.openFunc known index paramCount line).bare = (d.bare.openFunc known index paramCount 0).bare := by
  have same : d.bare.current.isSome = d.current.isSome := Option.isSome_map
  simp only [openFunc, same, indexProblem?_bare]
  split
  · simp [bare, note, Function.comp_def]
  · simp [bare, noteAll_eq, Function.comp_def, OpenFunc.bare]

theorem bare_openDropped (line : Nat) : (d.openDropped line).bare = (d.bare.openDropped 0).bare := by
  have same : d.bare.current.isSome = d.current.isSome := Option.isSome_map
  simp only [openDropped, same]
  split
  · simp [bare, note, Function.comp_def]
  · simp [bare, Function.comp_def, OpenFunc.bare]

theorem bare_closeFunc (line : Nat) : (d.closeFunc line).bare = (d.bare.closeFunc 0).bare := by
  have finished (o : OpenFunc) : (finish o).bare = (finish o.bare).bare := by
    simp [finish, Func.bare, OpenFunc.bare, slotCount_bare, Function.comp_def]
  cases opened : d.current with
  | none => simp [closeFunc, bare, opened, note, Function.comp_def]
  | some o =>
    have arguments := bare_argumentFindings o.index o.paramCount o.body.toList
    cases dropped : o.dropped with
    | true => simp [closeFunc, bare, opened, dropped, OpenFunc.bare, Function.comp_def]
    | false =>
      simp [closeFunc, bare, opened, dropped, OpenFunc.bare, noteAll_eq, Function.comp_def, arguments,
        finished]

theorem bare_addInstruction (i : Instruction) :
    (d.addInstruction i).bare = (d.bare.addInstruction i.bare).bare := by
  unfold addInstruction
  cases opened : d.current with
  | none => simp [bare, opened, Function.comp_def]
  | some o => simp [bare, opened, OpenFunc.bare, Function.comp_def]

/-- Taking in a line without places is taking in the line. -/
theorem bare_feed (l : SourceLine) : (d.feed known l).bare = (d.bare.feed known l.bare).bare := by
  have formed : LineForm.ofTokens l.bare.number l.bare.tokens = _ :=
    LineForm.ofTokens_moved _ l.number 0 l.tokens
  have role : LineRole.ofTokens l.bare.tokens = _ := LineRole.ofTokens_moved _ l.tokens
  unfold feed
  rw [formed, role]
  cases LineForm.ofTokens l.number l.tokens with
  | ok form =>
    cases form with
    | empty => exact bare_bare.symm
    | opener index paramCount => exact bare_openFunc index paramCount l.number
    | closer => exact bare_closeFunc l.number
    | instruction i => exact bare_addInstruction i
  | error e =>
    have noted : (d.bare.note ⟨.ofLine e.fault, default⟩).bare =
        (d.note ⟨.ofLine e.fault, e.span⟩).bare := by
      rw [bare_note, bare_note, bare_bare]
      rfl
    cases LineRole.ofTokens l.tokens with
    | opener => exact (bare_openDropped _).trans (noted ▸ (bare_openDropped _).symm)
    | closer => exact (bare_closeFunc _).trans (noted ▸ (bare_closeFunc _).symm)
    | skip | plain => exact noted.symm

/-- Lines that agree but for places lead to drafts that agree but for places. -/
theorem bare_foldl {lines lines' : List SourceLine}
    (same : lines.map SourceLine.bare = lines'.map SourceLine.bare) {d' : Draft}
    (alike : d.bare = d'.bare) :
    (lines.foldl (feed known) d).bare = (lines'.foldl (feed known) d').bare := by
  induction lines generalizing lines' d d' with
  | nil =>
    obtain rfl := map_eq_nil_iff.1 same.symm
    exact alike
  | cons l lines ih =>
    obtain ⟨l', rest, rfl, first, others⟩ := map_eq_cons_iff.1 same.symm
    exact ih others.symm (by rw [bare_feed, bare_feed l', alike, first])

theorem bare_toProgram : d.bare.toProgram.withoutLines = d.toProgram.withoutLines := by
  have counted := slotCount_bare Operand.globalIndex? (d.funcs.toList.flatMap Func.body ++ d.code.toList)
  rw [← bodies_bare] at counted
  simp [toProgram, Program.withoutLines, bare, counted, Function.comp_def]

end Draft

/-! ## Texts of tokens -/

/-- The texts of the tokens of each significant line. -/
def Source.tokenTexts (s : Source) : List (List String) :=
  s.significantLines.map fun l => l.tokens.map Token.text

/-- Two sources whose lines carry the same texts are both accepted, with programs that agree but for the
numbers of lines, or are both rejected for the same problems. -/
def Source.Agree (known : UInt32) (s s' : Source) : Prop :=
  (∃ p p', Program.parse s known = .ok p ∧ Program.parse s' known = .ok p' ∧
      p.withoutLines = p'.withoutLines) ∨
    ∃ r r', Program.parse s known = .error r ∧ Program.parse s' known = .error r' ∧
      r.total = r'.total ∧ r.kept.map Diagnostic.code = r'.kept.map Diagnostic.code

theorem Source.bare_significantLines (s : Source) : s.significantLines.map SourceLine.bare =
    s.tokenTexts.map fun ts =>
      ⟨0, "", ts.map fun text => ⟨TokenKind.ofWord text.toList, text, default⟩⟩ := by
  rw [tokenTexts, map_map]
  refine map_congr_left fun l member => ?_
  obtain ⟨line, -, rfl⟩ := mem_map.1 (mem_filter.1 member).1
  simp [SourceLine.bare, Token.ofLine, Token.moved, Token.ofWord]

theorem Source.agree_of_tokenTexts {known : UInt32} {s s' : Source}
    (same : s.tokenTexts = s'.tokenTexts) : s.Agree known s' := by
  have alike : (Draft.ofLines known s.significantLines).bare =
      (Draft.ofLines known s'.significantLines).bare :=
    Draft.bare_foldl (by rw [bare_significantLines, bare_significantLines, same]) rfl
  have found : (s.findings known).map Finding.bare = (s'.findings known).map Finding.bare := by
    rw [findings, findings, ← Draft.bare_allFindings, alike, Draft.bare_allFindings]
  have codes (s : Source) (fs : List Finding) : (fs.map (Finding.diagnostic s)).map Diagnostic.code =
      (fs.map Finding.bare).map fun f => f.problem.code := by
    simp [Finding.diagnostic, Finding.bare, Finding.onLine, Problem.code_bare]
  rw [Agree, Program.parse_eq, Program.parse_eq]
  by_cases none : s.findings known = []
  · rw [none] at found
    rw [if_pos none, if_pos (map_eq_nil_iff.1 found.symm)]
    refine .inl ⟨_, _, rfl, rfl, ?_⟩
    rw [← Draft.bare_toProgram, alike, Draft.bare_toProgram]
  · have some : s'.findings known ≠ [] := by
      intro none'
      rw [none'] at found
      exact none (map_eq_nil_iff.1 found)
    rw [if_neg none, if_neg some]
    refine .inr ⟨_, _, rfl, rfl, ?_, ?_⟩
    · rw [← length_map Finding.bare, found, length_map]
    · simp only [codes, map_take, found]

/-! ## Layout -/

/-- The texts between the blanks of a line. -/
def solidTexts (cs : List Char) : List (List Char) :=
  (Word.ofLine cs).map Word.chars

def lineTexts (cs : List Char) : List String :=
  ((solidTexts cs).takeWhile fun w => !(w.head? == some ';')).map String.ofList

theorem texts_ofLine (line : Nat) (text : String) :
    (Token.ofLine line text).map Token.text = lineTexts text.toList := by
  rw [Token.ofLine, lineTexts, solidTexts, takeWhile_map, map_map, map_map]
  rfl

theorem lineTexts_dropReturns (cs : List Char) : lineTexts (Text.dropReturns cs) = lineTexts cs := by
  obtain ⟨blanks, all, same⟩ := exists_dropReturns cs
  have texts (cs : List Char) := texts_ofLine 0 (String.ofList cs)
  simp only [String.toList_ofList] at texts
  conv_rhs => rw [same]
  rw [← texts, ← texts, ofLine_append_blanks all]

theorem Source.tokenTexts_eq (s : Source) : s.tokenTexts =
    ((Text.pieces s.text.toList).map lineTexts).filter fun ts => !ts.isEmpty := by
  have lines : s.tokenLines.map (fun l => l.tokens.map Token.text) =
      (Text.pieces s.text.toList).map lineTexts := calc
    _ = ((s.lines.zipIdx 1).map Prod.fst).map fun l => lineTexts l.toList := by
      simp only [tokenLines, map_map, Function.comp_def, texts_ofLine]
    _ = _ := by
      simp [Source.lines, Text.sourceLines, lineTexts_dropReturns, Function.comp_def]
  rw [tokenTexts, significantLines, ← lines, filter_map]
  simp [Function.comp_def]

/-- A text starts or ends here, or a blank stands on one side. -/
def Beside (before after : List Char) : Prop :=
  (∀ c ∈ before.getLast?, Text.isBlank c = true) ∨ ∀ c ∈ after.head?, Text.isBlank c = true

theorem chars_fromColumn (column column' : Nat) (cs : List Char) :
    (Word.fromColumn column cs).map Word.chars = (Word.fromColumn column' cs).map Word.chars := by
  induction column, cs using blank_induction generalizing column' with
  | solid column cs solid =>
    by_cases empty : cs = []
    · simp [empty, Word.fromColumn, Word.scan]
    · simp [fromColumn_solid empty solid]
  | split column cs c ds blank first second =>
    rw [fromColumn_split blank, fromColumn_split blank, map_append, map_append,
      first column', second (column' + cs.length + 1)]

theorem solidTexts_split {c : Char} (blank : Text.isBlank c = true) (cs ds : List Char) :
    solidTexts (cs ++ c :: ds) = solidTexts cs ++ solidTexts ds := by
  refine (congrArg (List.map Word.chars) (fromColumn_split blank 1 cs ds)).trans ?_
  rw [map_append, chars_fromColumn _ 1 ds]
  rfl

theorem solidTexts_append {before after : List Char} (beside : Beside before after) :
    solidTexts (before ++ after) = solidTexts before ++ solidTexts after := by
  have nothing : solidTexts [] = [] := rfl
  rcases beside with left | right
  · rcases eq_nil_or_concat before with rfl | ⟨before, c, rfl⟩
    · rfl
    · have blank := left c (by simp)
      simp only [concat_eq_append, append_assoc, singleton_append]
      rw [solidTexts_split blank, solidTexts_split blank, nothing, append_nil]
  · cases after with
    | nil => rw [append_nil, nothing, append_nil]
    | cons c after =>
      have split := solidTexts_split (right c rfl)
      rw [split, ← nil_append (c :: after), split, nothing, nil_append]

/-- White space or a comment is added to a line: a blank where words do not touch, or a comment behind
a blank. -/
inductive LineEdit : List Char → List Char → Prop
  | blank {before after : List Char} {c : Char} (beside : Beside before after)
      (blank : Text.isBlank c = true) : LineEdit (before ++ after) (before ++ c :: after)
  | comment {line : List Char} (text : List Char)
      (beside : ∀ c ∈ line.getLast?, Text.isBlank c = true) :
      LineEdit line (line ++ ';' :: text)

/-- A line is edited, or a blank line is added. -/
inductive Relaid : List (List Char) → List (List Char) → Prop
  | edit (above below : List (List Char)) {line line' : List Char} (edit : LineEdit line line') :
      Relaid (above ++ line :: below) (above ++ line' :: below)
  | blankLine (above below : List (List Char)) : Relaid (above ++ below) (above ++ [] :: below)

theorem lineTexts_of_edit {line line' : List Char} (edit : LineEdit line line') :
    lineTexts line' = lineTexts line := by
  cases edit with
  | blank beside blank => rw [lineTexts, solidTexts_split blank, ← solidTexts_append beside, ← lineTexts]
  | comment text beside =>
    have hidden : (solidTexts (';' :: text)).takeWhile (fun w => !(w.head? == some ';')) = [] := by
      simp [solidTexts, Word.ofLine, Word.scan, Text.isBlank]
    rw [lineTexts, solidTexts_append (.inl beside), lineTexts, takeWhile_append, hidden]
    split
    · next whole => rw [append_nil, (List.takeWhile_prefix _).eq_of_length whole]
    · rfl

theorem texts_of_relaid {lines lines' : List (List Char)} (relaid : Relaid lines lines') :
    (lines'.map lineTexts).filter (fun ts => !ts.isEmpty) =
      (lines.map lineTexts).filter fun ts => !ts.isEmpty := by
  cases relaid with
  | edit above below edit =>
    simp only [map_append, map_cons, lineTexts_of_edit edit]
  | blankLine above below =>
    have empty : lineTexts [] = [] := rfl
    simp [empty]

/-- **Layout never changes meaning.** Sources whose significant lines carry the same texts of tokens
are either both accepted, with programs that agree but for the numbers of lines, or both rejected with
as many findings and the same sequence of numbers in what is kept of them. White space beside blanks
and at the ends of lines, carriage returns among it, comments and blank lines can be added and removed
in any number, and the texts stay the same. -/
theorem layout_never_matters (known : UInt32) (s s' : Source) :
    (s.tokenTexts = s'.tokenTexts → s.Agree known s') ∧
      (Relation.EqvGen Relaid (Text.pieces s.text.toList) (Text.pieces s'.text.toList) →
        s.tokenTexts = s'.tokenTexts) := by
  refine ⟨Source.agree_of_tokenTexts, fun relaid => ?_⟩
  rw [Source.tokenTexts_eq, Source.tokenTexts_eq]
  generalize Text.pieces s.text.toList = lines, Text.pieces s'.text.toList = lines' at relaid
  induction relaid with
  | rel _ _ step => exact (texts_of_relaid step).symm
  | refl => rfl
  | symm _ _ _ ih => exact ih.symm
  | trans _ _ _ _ _ first second => exact first.trans second

end SlotLang
