import SlotLang.Proofs.Builder.Drafts

/-!
# What the builder accepts

`WellBuilt` says when the lines of a unit make up a program: how borders follow each other, how
functions are numbered, which arguments, slots and returns stand where, and that labels and calls
have targets. It speaks of the lines only. `parse_eq_ok_iff` proves that these are exactly the units
that `Program.parse` accepts, and that the program is `programOf` the lines. `Describes` says what is
in that program without naming how it is computed.
-/

open List

namespace SlotLang

variable {known n : UInt32} {pick : Operand → Option UInt32} {source : Source}
  {xs : List FormedLine}

open Draft

/-! ## Checks of whole units -/

/-- The instruction can stand outside all functions: it does not return, and it uses no slot that
only functions have. -/
def Instruction.Placeable (i : Instruction) : Prop :=
  i.opcode ≠ .ret ∧ ∀ n, .var n ∉ i.operands ∧ .arg n ∉ i.operands

namespace Draft

variable {code : List Instruction} {scope : Scope}

theorem moduleFindings_eq_nil : moduleFindings code = [] ↔ ∀ i ∈ code, i.Placeable := by
  refine ⟨fun none i member => outside_of_moduleFindings none member, fun fit => ?_⟩
  unfold moduleFindings
  rw [flatMap_eq_nil_iff]
  intro i member
  obtain ⟨noReturn, noSlot⟩ := fit i member
  rw [if_neg noReturn, nil_append, filterMap_eq_nil_iff]
  intro o operand
  cases o with
  | var n => exact absurd operand (noSlot n).1
  | arg n => exact absurd operand (noSlot n).2
  | global n | lit v => rfl

theorem duplicateFindings_eq_nil {seen : List (UInt32 × Nat)} (nodup : (definedLabels code).Nodup)
    (unseen : ∀ label ∈ definedLabels code, seen.lookup label = none) :
    duplicateFindings scope seen code = [] := by
  induction code generalizing seen with
  | nil => rfl
  | cons i rest ih =>
    unfold duplicateFindings
    cases defined : i.definedLabel? with
    | none =>
      have labels : definedLabels (i :: rest) = definedLabels rest :=
        filterMap_cons_none defined
      rw [labels] at nodup unseen
      exact ih nodup unseen
    | some label =>
      have labels : definedLabels (i :: rest) = label :: definedLabels rest :=
        filterMap_cons_some defined
      rw [labels, nodup_cons] at nodup
      rw [labels, forall_mem_cons] at unseen
      simp only [unseen.1, Option.toList_none, map_nil, nil_append]
      refine ih nodup.2 fun l member => ?_
      have other : l ≠ label := fun same => nodup.1 (same ▸ member)
      rw [lookup_cons, beq_eq_false_iff_ne.2 other]
      exact unseen.2 l member

theorem labelFindings_eq_nil : labelFindings scope code = [] ↔ LabelsSound code := by
  refine ⟨labelsSound_of_labelFindings, fun sound => ?_⟩
  refine append_eq_nil_iff.2 ⟨duplicateFindings_eq_nil sound.nodup fun _ _ => rfl, ?_⟩
  unfold undefinedFindings
  rw [filterMap_eq_nil_iff]
  intro i member
  by_cases jump : i.opcode = .jump ∨ i.opcode = .jumpIf
  · rw [if_pos jump]
    cases target : i.label? with
    | none => rfl
    | some label =>
      have defined := sound.defined i member jump label target
      exact if_pos (contains_iff_mem.2 defined)
  · rw [if_neg jump]

theorem callFindings_eq_nil {known : UInt32} {funcs : List Func} :
    callFindings known funcs code = [] ↔ ∀ i ∈ funcs.flatMap Func.body ++ code,
      ∀ index args, i.callTarget? = some (index, args) →
        index < known ∨ index ∈ funcs.map Func.index := by
  unfold callFindings
  rw [filterMap_eq_nil_iff]
  refine forall_congr' fun i => forall_congr' fun _ => ?_
  cases target : i.callTarget? with
  | none => simp
  | some call =>
    obtain ⟨index, args⟩ := call
    simp only [Option.bind_some, ite_eq_left_iff, Bool.or_eq_true, decide_eq_true_eq,
      any_eq_true, beq_iff_eq, reduceCtorEq, imp_false, not_not, Option.some.injEq,
      Prod.mk.injEq, mem_map]
    constructor
    · rintro target index args ⟨rfl, rfl⟩
      exact target
    · intro target
      exact target index args ⟨rfl, rfl⟩

end Draft

/-! ## Units -/

/-- The indices of the openers. -/
def openers (xs : List FormedLine) : List UInt32 :=
  xs.filterMap FormedLine.index?

/-- What the lines of a unit have to be like. -/
structure WellBuilt (known : UInt32) (xs : List FormedLine) : Prop where
  alternating : Alternating (xs.filter FormedLine.isBorder)
  numbered : EachAfter (IndexFits known) [] (openers xs)
  arguments : ∀ b ∈ blocks xs, b.ArgumentsFit
  placed : ∀ i ∈ outside false xs, i.Placeable
  blockLabels : ∀ b ∈ blocks xs, LabelsSound b.body
  codeLabels : LabelsSound (outside false xs)
  calls : ∀ i ∈ instructionsOf xs, ∀ index args, i.callTarget? = some (index, args) →
    index < known ∨ index ∈ openers xs

/-- The program of the lines of a unit. -/
def programOf (xs : List FormedLine) : Program where
  code := outside false xs
  funcs := (blocks xs).map Block.func
  globalCount := slotCount Operand.globalIndex? ((blocks xs).flatMap Block.body ++ outside false xs)

theorem openers_eq (xs : List FormedLine) : openers xs = (blocks xs).map Block.index := by
  induction xs with
  | nil => rfl
  | cons x xs ih =>
    obtain ⟨number, form⟩ := x
    cases form with
    | opener index paramCount => exact congrArg (index :: ·) ih
    | empty | closer | instruction i => exact ih

theorem mem_instructionsOf (solid : ∀ x ∈ xs, x.form ≠ .empty)
    (alternating : Alternating (xs.filter FormedLine.isBorder)) {i : Instruction} :
    i ∈ instructionsOf xs ↔ i ∈ (blocks xs).flatMap Block.body ++ outside false xs := by
  obtain ⟨items, rfl⟩ := (exists_items_of_alternating solid).1 alternating
  rw [mem_instructionsOf_layout, mem_append, mem_flatMap]

theorem flatMap_body_func (bs : List Block) :
    (bs.map Block.func).flatMap Func.body = bs.flatMap Block.body := by
  rw [flatMap_map]
  rfl

namespace Source.Reads

variable {s : Source}

theorem exists_line (reads : s.Reads xs) {x : FormedLine} (member : x ∈ xs) :
    ∃ l ∈ s.significantLines, LineForm.ofTokens l.number l.tokens = .ok x.form := by
  obtain ⟨l, line, -, formed⟩ := exists_partner reads member
  exact ⟨l, line, formed⟩

theorem solid (reads : s.Reads xs) : ∀ x ∈ xs, x.form ≠ .empty := by
  intro x member empty
  obtain ⟨l, there, formed⟩ := reads.exists_line member
  have tokens := (mem_filter.1 there).2
  rw [empty] at formed
  cases words : l.tokens with
  | nil => simp [words] at tokens
  | cons head operands =>
    rw [words, LineForm.ofTokens] at formed
    split at formed
    · next op _ =>
      obtain ⟨-, os, -, form⟩ := LineForm.ofOpcode_ok formed
      cases op <;> cases form
    · cases formed

end Source.Reads

section Units

variable (solid : ∀ x ∈ xs, x.form ≠ .empty)

include solid

/-- What a draft gathers from lines with alternating borders. -/
theorem gathered (known : UInt32) (alternating : Alternating (xs.filter FormedLine.isBorder)) :
    (xs.foldl (take known) {}).current = none ∧
      (xs.foldl (take known) {}).code.toList = outside false xs ∧
      (xs.foldl (take known) {}).funcs.toList = (blocks xs).map Block.func ∧
      ((xs.foldl (take known) {}).findings = #[] ↔
        EachAfter (IndexFits known) [] (openers xs) ∧ ∀ b ∈ blocks xs, b.ArgumentsFit) := by
  obtain ⟨items, rfl⟩ := (exists_items_of_alternating solid).1 alternating
  obtain ⟨current, code, funcs, findings⟩ := take_layout known {} rfl items
  rw [← outside_layout] at code
  rw [← blocks_layout] at funcs findings
  rw [← openers_eq] at findings
  refine ⟨current, code, funcs, findings.trans ?_⟩
  rw [← eachAfter_passes_iff (packed_nil known)]
  exact and_iff_right rfl

/-- Nothing is found in a unit exactly if its lines are as they have to be. -/
theorem allFindings_eq_nil_iff :
    (xs.foldl (take known) {}).allFindings known = [] ↔ WellBuilt known xs := by
  constructor
  · intro none
    simp only [allFindings, append_eq_nil_iff, Array.toList_eq_nil_iff] at none
    obtain ⟨⟨⟨⟨⟨quiet, unclosed⟩, placed⟩, funcLabels⟩, codeLabels⟩, calls⟩ := none
    have closed : (xs.foldl (take known) {}).current = Option.none := by
      simpa [unclosedFindings] using unclosed
    have alternating := (alternating_of_quiet quiet closed).1 rfl
    obtain ⟨-, code, funcs, findings⟩ := gathered solid known alternating
    obtain ⟨numbered, arguments⟩ := findings.1 quiet
    rw [code] at placed codeLabels calls
    rw [funcs] at funcLabels calls
    rw [callFindings_eq_nil, flatMap_body_func, map_map] at calls
    refine ⟨alternating, numbered, arguments, moduleFindings_eq_nil.1 placed, ?_,
      labelFindings_eq_nil.1 codeLabels, ?_⟩
    · intro b member
      exact labelFindings_eq_nil.1
        (flatMap_eq_nil_iff.1 funcLabels b.func (mem_map_of_mem member))
    · intro i member
      rw [openers_eq]
      exact calls i ((mem_instructionsOf solid alternating).1 member)
  · intro built
    obtain ⟨current, code, funcs, findings⟩ := gathered solid known built.alternating
    have quiet := findings.2 ⟨built.numbered, built.arguments⟩
    have funcLabels : ((blocks xs).map Block.func).flatMap
        (fun f => labelFindings (.ofFunc f.index) f.body) = [] := by
      simp only [flatMap_eq_nil_iff, forall_mem_map]
      exact fun b member => labelFindings_eq_nil.2 (built.blockLabels b member)
    have calls : callFindings known ((blocks xs).map Block.func) (outside false xs) = [] := by
      rw [callFindings_eq_nil, flatMap_body_func, map_map]
      intro i member
      have target := built.calls i ((mem_instructionsOf solid built.alternating).2 member)
      rwa [openers_eq] at target
    simp [allFindings, unclosedFindings, code, funcs, current, quiet, funcLabels, calls,
      moduleFindings_eq_nil.2 built.placed, labelFindings_eq_nil.2 built.codeLabels]

theorem toProgram_eq (built : WellBuilt known xs) :
    (xs.foldl (take known) {}).toProgram = programOf xs := by
  obtain ⟨-, code, funcs, -⟩ := gathered solid known built.alternating
  rw [toProgram, code, funcs, flatMap_body_func]
  rfl

end Units

/-- The builder accepts exactly the units whose lines are as they have to be. -/
theorem parse_eq_ok_iff {p : Program} : Program.parse source known = .ok p ↔
      ∃ xs, source.Reads xs ∧ WellBuilt known xs ∧ p = programOf xs := by
  have draft {xs : List FormedLine} (reads : source.Reads xs) :
      ofLines known source.significantLines = xs.foldl (take known) {} :=
    foldl_feed_eq_take reads
  constructor
  · intro parsed
    simp only [Program.parse] at parsed
    split at parsed
    · next none =>
      have quiet : (ofLines known source.significantLines).findings = #[] := by
        simp only [allFindings, append_eq_nil_iff, Array.toList_eq_nil_iff] at none
        exact none.1.1.1.1.1
      obtain ⟨xs, reads⟩ := formed_of_quiet quiet
      rw [draft reads] at none parsed
      have built := (allFindings_eq_nil_iff (Source.Reads.solid reads)).1 none
      cases parsed
      exact ⟨xs, reads, built, toProgram_eq (Source.Reads.solid reads) built⟩
    · cases parsed
  · rintro ⟨xs, reads, built, rfl⟩
    unfold Program.parse
    rw [draft reads]
    simp only [(allFindings_eq_nil_iff reads.solid).2 built, toProgram_eq reads.solid built]

/-! ## Slots of the text -/

/-- The numbers of the slots in the text that `pick` selects. -/
def Source.slots (pick : Operand → Option UInt32) (s : Source) : List UInt32 :=
  s.significantLines.flatMap fun l => l.tokens.filterMap fun t => t.kind.operand?.bind pick

namespace LineForm

variable {o : Operand} {os : List Operand} {ts : List Token}

theorem operand?_of_accept? {expected : OperandKind} {k : TokenKind}
    (accepted : accept? expected k = some os) (member : o ∈ os) : k.operand? = some o := by
  cases expected with
  | blockOpen => cases k <;> simp_all [accept?]
  | dest =>
    obtain ⟨a, rfl, rfl⟩ := accept?_dest accepted
    rw [mem_singleton.1 member]
    rfl
  | value =>
    simp only [accept?, Option.map_eq_some_iff] at accepted
    obtain ⟨a, operand, rfl⟩ := accepted
    rw [mem_singleton.1 member, operand]
  | label | funcIndex | count =>
    cases k with
    | integer v =>
      simp only [accept?, Option.ite_none_right_eq_some, Option.some.injEq] at accepted
      obtain ⟨-, rfl⟩ := accepted
      rw [mem_singleton.1 member]
      rfl
    | opcode op | slot a | blockOpen | outOfRange | invalid => cases accepted

theorem operand?_of_checkOperands {op : Opcode} {expected : List OperandKind}
    (checked : checkOperands op expected ts = .ok os) (member : o ∈ os) :
    ∃ t ∈ ts, t.kind.operand? = some o := by
  induction ts generalizing expected os with
  | nil => simp [checkOperands_nil checked] at member
  | cons t ts ih =>
    obtain ⟨first, rest, accepted, others, rfl⟩ := checkOperands_cons checked
    rcases mem_append.1 member with here | later
    · exact ⟨t, mem_cons_self, operand?_of_accept? accepted here⟩
    · obtain ⟨u, there, operand⟩ := ih others later
      exact ⟨u, mem_cons_of_mem _ there, operand⟩

theorem operand?_of_ofTokens {line : Nat} {i : Instruction}
    (formed : ofTokens line ts = .ok (.instruction i)) (member : o ∈ i.operands) :
    ∃ t ∈ ts, t.kind.operand? = some o := by
  cases ts with
  | nil => cases formed
  | cons head operands =>
    simp only [ofTokens] at formed
    split at formed
    · next op _ =>
      obtain ⟨-, os, checked, result⟩ := ofOpcode_ok formed
      have same : i.operands = os := by
        cases op <;> cases result <;> rfl
      obtain ⟨t, there, operand⟩ := operand?_of_checkOperands checked (same ▸ member)
      exact ⟨t, mem_cons_of_mem _ there, operand⟩
    · cases formed

end LineForm

theorem Source.Reads.mem_slots {s : Source} (reads : s.Reads xs)
    (used : n ∈ slotsIn pick (instructionsOf xs)) : n ∈ s.slots pick := by
  obtain ⟨i, member, o, operand, picked⟩ := mem_slotsIn.1 used
  obtain ⟨x, there, instruction⟩ := mem_filterMap.1 member
  obtain ⟨number, form⟩ := x
  obtain ⟨l, line, formed⟩ := reads.exists_line there
  cases form with
  | empty | opener index paramCount | closer => cases instruction
  | instruction j =>
    cases instruction
    obtain ⟨t, word, kind⟩ := LineForm.operand?_of_ofTokens formed operand
    refine mem_flatMap.2 ⟨l, line, mem_filterMap.2 ⟨t, word, ?_⟩⟩
    rw [kind, Option.bind_some, picked]

/-! ## Programs -/

/-- The function of a block: the block's own data, and a count of its local slots. -/
structure Block.Describes (b : Block) (f : Func) : Prop where
  index : f.index = b.index
  paramCount : f.paramCount = b.paramCount
  body : f.body = b.body
  line : f.line = b.line
  localCount : IsCount (slotsIn Operand.varIndex? b.body) f.localCount

/-- The program that stands in some lines: functions in the order of their openers, the other
instructions in theirs, and a count of the global slots. -/
structure Describes (xs : List FormedLine) (p : Program) : Prop where
  funcs : List.Forall₂ Block.Describes (blocks xs) p.funcs
  code : p.code = outside false xs
  globalCount : IsCount (slotsIn Operand.globalIndex? (instructionsOf xs)) p.globalCount

theorem mem_slotsIn_of_subset {code larger : List Instruction} (subset : ∀ i ∈ code, i ∈ larger)
    (used : n ∈ slotsIn pick code) : n ∈ slotsIn pick larger := by
  obtain ⟨i, member, operand⟩ := mem_slotsIn.1 used
  exact mem_slotsIn.2 ⟨i, subset i member, operand⟩

theorem Block.Describes.eq_func {b : Block} {f : Func} (describes : b.Describes f) :
    f = b.func := by
  obtain ⟨index, paramCount, localCount, body, line⟩ := f
  obtain ⟨rfl, rfl, rfl, rfl, counted⟩ := describes
  have same := counted.eq_slotCount
  subst same
  rfl

theorem funcs_eq {bs : List Block} {fs : List Func} (described : List.Forall₂ Block.Describes bs fs) :
    fs = bs.map Block.func := by
  induction described with
  | nil => rfl
  | cons first rest ih => rw [map_cons, first.eq_func, ih]

section Description

variable {p : Program} (solid : ∀ x ∈ xs, x.form ≠ .empty) (built : WellBuilt known xs)

include solid built

theorem mem_slotsIn_instructionsOf (pick : Operand → Option UInt32) (n : UInt32) :
    n ∈ slotsIn pick (instructionsOf xs) ↔
      n ∈ slotsIn pick ((blocks xs).flatMap Block.body ++ outside false xs) :=
  ⟨mem_slotsIn_of_subset fun _ => (mem_instructionsOf solid built.alternating).1,
    mem_slotsIn_of_subset fun _ => (mem_instructionsOf solid built.alternating).2⟩

theorem Describes.eq_programOf (describes : Describes xs p) : p = programOf xs := by
  obtain ⟨code, funcs, globalCount⟩ := p
  obtain ⟨described, rfl, counted⟩ := describes
  have listed : funcs = (blocks xs).map Block.func := funcs_eq described
  have same := (counted.of_mem_iff fun n =>
    (mem_slotsIn_instructionsOf solid built Operand.globalIndex? n).symm).eq_slotCount
  rw [programOf, ← listed, ← same]

theorem describes_programOf
    (locals : ∀ n ∈ slotsIn Operand.varIndex? (instructionsOf xs), n < 0xFFFFFFFF)
    (globals : ∀ n ∈ slotsIn Operand.globalIndex? (instructionsOf xs), n < 0xFFFFFFFF) :
    Describes xs (programOf xs) where
  funcs := by
    rw [programOf, forall₂_map_right_iff, forall₂_same]
    intro b member
    refine ⟨rfl, rfl, rfl, rfl, isCount_slotCount fun n used => locals n ?_⟩
    rw [mem_slotsIn_instructionsOf solid built]
    refine mem_slotsIn_of_subset (fun i there => ?_) used
    exact mem_append_left _ (mem_flatMap.2 ⟨b, member, there⟩)
  code := rfl
  globalCount := by
    have same := mem_slotsIn_instructionsOf solid built Operand.globalIndex?
    exact (isCount_slotCount fun n used => globals n ((same n).2 used)).of_mem_iff same

end Description

/-- The builder accepts exactly the sources whose lines all pass their checks and make up a
well-built unit, and answers with the program that stands in these lines. All other sources are
answered by a report. -/
theorem builder_accepts_exactly (source : Source) (known : UInt32)
    (locals : ∀ n ∈ source.slots Operand.varIndex?, n < 0xFFFFFFFF)
    (globals : ∀ n ∈ source.slots Operand.globalIndex?, n < 0xFFFFFFFF) :
    ((∃ p, Program.parse source known = .ok p) ↔ ∃ xs, source.Reads xs ∧ WellBuilt known xs) ∧
      (∀ p, Program.parse source known = .ok p ↔
        ∃ xs, source.Reads xs ∧ WellBuilt known xs ∧ Describes xs p) ∧
      ∀ report, Program.parse source known = .error report → report.kept ≠ [] := by
  refine ⟨?_, fun p => ?_, fun report => Program.kept_of_parse⟩
  · constructor
    · rintro ⟨p, parsed⟩
      obtain ⟨xs, reads, built, -⟩ := parse_eq_ok_iff.1 parsed
      exact ⟨xs, reads, built⟩
    · rintro ⟨xs, reads, built⟩
      exact ⟨programOf xs, parse_eq_ok_iff.2 ⟨xs, reads, built, rfl⟩⟩
  · rw [parse_eq_ok_iff]
    refine exists_congr fun xs => and_congr_right fun reads => and_congr_right fun built => ?_
    constructor
    · rintro rfl
      exact describes_programOf reads.solid built (fun n used => locals n (reads.mem_slots used))
        fun n used => globals n (reads.mem_slots used)
    · exact Describes.eq_programOf reads.solid built

/-- A unit that redefines a known function and adds one, with code in between. -/
def redefinition : Source :=
  ⟨"unit", "# 0 1 \x7b\n= v2 a0\n^ v2\n\x7d\n= g1 4\n# 1 0 \x7b\n$ g0 0 g1\n\x7d\n$ g3 1\n. g0\n"⟩

set_option maxRecDepth 4000 in
theorem builder_accepts_exactly_redefinition :
    ((∀ n ∈ redefinition.slots Operand.varIndex?, n < 0xFFFFFFFF) ∧
      ∀ n ∈ redefinition.slots Operand.globalIndex?, n < 0xFFFFFFFF) ∧
      ∃ p xs, (redefinition.Reads xs ∧ WellBuilt 1 xs ∧ Describes xs p) ∧
        p.funcs.map Func.index = [0, 1] ∧ p.globalCount = 4 := by
  have localSlots : redefinition.slots Operand.varIndex? = [2, 2] := by cbv
  have globalSlots : redefinition.slots Operand.globalIndex? = [1, 0, 1, 3, 0] := by cbv
  have locals : ∀ n ∈ redefinition.slots Operand.varIndex?, n < 0xFFFFFFFF := by
    simp [localSlots]
  have globals : ∀ n ∈ redefinition.slots Operand.globalIndex?, n < 0xFFFFFFFF := by
    simp [globalSlots]
  have parsed : Program.parse redefinition 1 = .ok
      { code := [⟨.assign, [.global 1, .lit 4], 5⟩, ⟨.call, [.global 3, .lit 1], 9⟩,
          ⟨.output, [.global 0], 10⟩]
        funcs := [⟨0, 1, 3, [⟨.assign, [.var 2, .arg 0], 2⟩, ⟨.ret, [.var 2], 3⟩], 1⟩,
          ⟨1, 0, 0, [⟨.call, [.global 0, .lit 0, .global 1], 7⟩], 6⟩]
        globalCount := 4 } := by cbv
  obtain ⟨xs, built⟩ := ((builder_accepts_exactly redefinition 1 locals globals).2.1 _).1 parsed
  exact ⟨⟨locals, globals⟩, _, xs, built, rfl, rfl⟩

end SlotLang
