import SlotLang.Proofs.Grammar
import SlotLang.Program.Build

/-!
# What the builder guarantees

A program that comes out of `Program.parse` has instructions of the right shape (`Instruction.Shaped`),
arguments and labels that exist where they are used, calls of functions that exist, and functions
that are numbered by their position. `Program.Sound` collects these facts and `sound_of_parse` proves
them. The argument follows the lines: as long as nothing was found, the draft is `Draft.Clean`, and
taking in a line without a finding keeps it so.
-/

open List

namespace SlotLang

variable {known : UInt32}

/-- A slot, and not an integer. -/
def Operand.isSlot : Operand → Bool
  | .lit _ => false
  | _ => true

/-- An instruction with exactly the operands that its opcode asks for. -/
inductive Instruction.Shaped : Instruction → Prop where
  | assign {dest a : Operand} {line : Nat} (slot : dest.isSlot = true) :
    Shaped ⟨.assign, [dest, a], line⟩
  | binary {op : BinaryOp} {dest a b : Operand} {line : Nat} (slot : dest.isSlot = true) :
    Shaped ⟨.binary op, [dest, a, b], line⟩
  | not {dest a : Operand} {line : Nat} (slot : dest.isSlot = true) :
    Shaped ⟨.not, [dest, a], line⟩
  | label {v : Value} {line : Nat} (index : LineForm.isIndex v = true) :
    Shaped ⟨.label, [.lit v], line⟩
  | jump {v : Value} {line : Nat} (index : LineForm.isIndex v = true) :
    Shaped ⟨.jump, [.lit v], line⟩
  | jumpIf {a : Operand} {v : Value} {line : Nat} (index : LineForm.isIndex v = true) :
    Shaped ⟨.jumpIf, [a, .lit v], line⟩
  | call {dest : Operand} {v : Value} {args : List Operand} {line : Nat}
    (slot : dest.isSlot = true) (index : LineForm.isIndex v = true) :
    Shaped ⟨.call, dest :: .lit v :: args, line⟩
  | ret {a : Operand} {line : Nat} : Shaped ⟨.ret, [a], line⟩
  | output {a : Operand} {line : Nat} : Shaped ⟨.output, [a], line⟩

/-- Results go to slots. -/
theorem Instruction.Shaped.dest_isSlot {i : Instruction} (shaped : i.Shaped) {dest : Operand}
    (stores : i.dest? = some dest) : dest.isSlot = true ∧ dest ∈ i.operands := by
  cases shaped with
  | assign slot | binary slot | not slot | call slot index =>
    cases stores
    exact ⟨slot, mem_cons_self⟩
  | label index | jump index | jumpIf index | ret | output => cases stores

/-! ## Shapes of lines -/

namespace LineForm

variable {k : TokenKind} {op : Opcode} {os : List Operand} {expected : OperandKind} {t : Token}

theorem accept?_dest (accepted : accept? .dest k = some os) : ∃ o, k = .slot o ∧ os = [o] := by
  cases k <;> simp_all [accept?]

theorem accept?_value (accepted : accept? .value k = some os) : ∃ o, os = [o] := by
  simp only [accept?, Option.map_eq_some_iff] at accepted
  obtain ⟨o, -, rfl⟩ := accepted
  exact ⟨o, rfl⟩

/-- Labels, function indices and counts are literals in the range of an index. -/
theorem accept?_index (kind : expected = .label ∨ expected = .funcIndex ∨ expected = .count)
    (accepted : accept? expected k = some os) : ∃ v, isIndex v = true ∧ os = [.lit v] := by
  cases k with
  | integer v =>
    have found : (if isIndex v then some [Operand.lit v] else none) = some os := by
      rcases kind with rfl | rfl | rfl <;> exact accepted
    simp only [Option.ite_none_right_eq_some, Option.some.injEq] at found
    exact ⟨v, found.1, found.2.symm⟩
  | _ => rcases kind with rfl | rfl | rfl <;> cases accepted

theorem accept?_of_checkOperand (checked : checkOperand op expected t = .ok os) :
    accept? expected t.kind = some os := by
  unfold checkOperand at checked
  split at checked
  · cases checked
  · split at checked
    · next accepted => cases checked; exact accepted
    · cases checked

theorem checkOperands_cons {expected : List OperandKind} {ts : List Token}
    (checked : checkOperands op expected (t :: ts) = .ok os) :
    ∃ first rest, accept? (expected.headD .value) t.kind = some first ∧
      checkOperands op expected.tail ts = .ok rest ∧ os = first ++ rest := by
  rw [checkOperands] at checked
  obtain ⟨first, firstChecked, checked⟩ := bind_eq_ok.1 checked
  obtain ⟨rest, restChecked, result⟩ := bind_eq_ok.1 checked
  cases result
  exact ⟨first, rest, accept?_of_checkOperand firstChecked, restChecked, rfl⟩

theorem checkOperands_nil {expected : List OperandKind}
    (checked : checkOperands op expected [] = .ok os) : os = [] := by
  cases expected <;> simpa [checkOperands] using checked.symm

end LineForm

/-- The tokens of a line never call an integer a slot. -/
def Token.SlotsAreSlots (ts : List Token) : Prop :=
  ∀ t ∈ ts, ∀ o, t.kind = .slot o → o.isSlot = true

theorem TokenKind.isSlot_of_ofWord {cs : List Char} {o : Operand}
    (classified : TokenKind.ofWord cs = .slot o) : o.isSlot = true := by
  cases (ofWord_iff (by simp)).1 classified <;> rfl

theorem Token.slotsAreSlots_ofLine (line : Nat) (text : String) :
    SlotsAreSlots (Token.ofLine line text) := by
  intro t member o kind
  obtain ⟨w, -, rfl⟩ := mem_map.1 member
  exact TokenKind.isSlot_of_ofWord kind

namespace LineForm

variable {expected : List OperandKind} {line : Nat} {op : Opcode} {os : List Operand} {t : Token}
  {ts : List Token}

theorem ofOpcode_ok {head : Span} {form : LineForm} (formed : ofOpcode line op head ts = .ok form) :
    op.takesCount ts.length = true ∧
      ∃ os, checkOperands op op.signature ts = .ok os ∧ form = ofOperands line op os := by
  unfold ofOpcode at formed
  by_cases brace : op = .defineFunc ∧ ts.getLast?.map Token.kind ≠ some .blockOpen
  · rw [if_pos brace] at formed
    cases formed
  · rw [if_neg brace] at formed
    by_cases count : op.takesCount ts.length = false
    · simp only [count, if_true] at formed
      cases formed
    · simp only [count] at formed
      obtain ⟨os, checked, result⟩ := bind_eq_ok.1 formed
      cases result
      exact ⟨by simpa using count, os, checked, rfl⟩

theorem checkOperands_dest (slots : Token.SlotsAreSlots (t :: ts))
    (checked : checkOperands op (.dest :: expected) (t :: ts) = .ok os) :
    ∃ o rest, o.isSlot = true ∧ checkOperands op expected ts = .ok rest ∧ os = o :: rest := by
  obtain ⟨first, rest, accepted, others, rfl⟩ := checkOperands_cons checked
  obtain ⟨o, kind, rfl⟩ := accept?_dest accepted
  exact ⟨o, rest, slots t mem_cons_self o kind, others, rfl⟩

theorem checkOperands_value (checked : checkOperands op (.value :: expected) (t :: ts) = .ok os) :
    ∃ a rest, checkOperands op expected ts = .ok rest ∧ os = a :: rest := by
  obtain ⟨first, rest, accepted, others, rfl⟩ := checkOperands_cons checked
  obtain ⟨a, rfl⟩ := accept?_value accepted
  exact ⟨a, rest, others, rfl⟩

theorem checkOperands_index {kind : OperandKind}
    (index : kind = .label ∨ kind = .funcIndex ∨ kind = .count)
    (checked : checkOperands op (kind :: expected) (t :: ts) = .ok os) :
    ∃ v rest, isIndex v = true ∧ checkOperands op expected ts = .ok rest ∧
      os = .lit v :: rest := by
  obtain ⟨first, rest, accepted, others, rfl⟩ := checkOperands_cons checked
  obtain ⟨v, range, rfl⟩ := accept?_index index accepted
  exact ⟨v, rest, range, others, rfl⟩

theorem shaped_of_checkOperands (plain : op ≠ .defineFunc ∧ op ≠ .blockClose)
    (slots : Token.SlotsAreSlots ts) (count : op.takesCount ts.length = true)
    (checked : checkOperands op op.signature ts = .ok os) : Instruction.Shaped ⟨op, os, line⟩ := by
  cases op with
  | defineFunc => exact absurd rfl plain.1
  | blockClose => exact absurd rfl plain.2
  | assign | not =>
    match ts, count with
    | [_, _], _ =>
      obtain ⟨dest, _, slot, others, rfl⟩ := checkOperands_dest slots checked
      obtain ⟨a, _, done, rfl⟩ := checkOperands_value others
      cases checkOperands_nil done
      constructor
      exact slot
  | binary op =>
    match ts, count with
    | [_, _, _], _ =>
      obtain ⟨dest, _, slot, others, rfl⟩ := checkOperands_dest slots checked
      obtain ⟨a, _, last, rfl⟩ := checkOperands_value others
      obtain ⟨b, _, done, rfl⟩ := checkOperands_value last
      cases checkOperands_nil done
      exact .binary slot
  | label =>
    match ts, count with
    | [_], _ =>
      obtain ⟨v, _, index, done, rfl⟩ := checkOperands_index (.inl rfl) checked
      cases checkOperands_nil done
      exact .label index
  | jump =>
    match ts, count with
    | [_], _ =>
      obtain ⟨v, _, index, done, rfl⟩ := checkOperands_index (.inl rfl) checked
      cases checkOperands_nil done
      exact .jump index
  | jumpIf =>
    match ts, count with
    | [_, _], _ =>
      obtain ⟨a, _, others, rfl⟩ := checkOperands_value checked
      obtain ⟨v, _, index, done, rfl⟩ := checkOperands_index (.inl rfl) others
      cases checkOperands_nil done
      exact .jumpIf index
  | call =>
    match ts, count with
    | _ :: _ :: _, _ =>
      obtain ⟨dest, _, slot, others, rfl⟩ := checkOperands_dest slots checked
      obtain ⟨v, args, index, _, rfl⟩ := checkOperands_index (.inr (.inl rfl)) others
      exact .call slot index
  | ret =>
    match ts, count with
    | [_], _ =>
      obtain ⟨a, _, done, rfl⟩ := checkOperands_value checked
      cases checkOperands_nil done
      exact .ret
  | output =>
    match ts, count with
    | [_], _ =>
      obtain ⟨a, _, done, rfl⟩ := checkOperands_value checked
      cases checkOperands_nil done
      exact .output

theorem shaped_of_ofTokens {i : Instruction} (slots : Token.SlotsAreSlots ts)
    (formed : ofTokens line ts = .ok (.instruction i)) : i.Shaped := by
  cases ts with
  | nil => cases formed
  | cons head operands =>
    have slots' : Token.SlotsAreSlots operands :=
      fun t member => slots t (mem_cons_of_mem _ member)
    simp only [ofTokens] at formed
    split at formed
    · next op _ =>
      obtain ⟨count, os, checked, result⟩ := ofOpcode_ok formed
      by_cases plain : op ≠ .defineFunc ∧ op ≠ .blockClose
      · have same : ofOperands line op os = .instruction ⟨op, os, line⟩ := by
          cases op <;> simp_all [ofOperands]
        cases result.trans same
        exact shaped_of_checkOperands plain slots' count checked
      · cases op <;> simp_all [ofOperands]
    · cases formed

end LineForm

/-! ## Drafts -/

/-- What holds of every function that the builder closes. -/
structure Func.Built (f : Func) : Prop where
  shaped : ∀ i ∈ f.body, i.Shaped
  args : ∀ i ∈ f.body, ∀ n, .arg n ∈ i.operands → n < f.paramCount
  localCount : f.localCount = slotCount Operand.varIndex? f.body

/-- How many of some functions are new in a unit that knows `known` functions. -/
def newCount (known : UInt32) (fs : List Func) : UInt32 :=
  UInt32.ofNat (fs.filter fun f => known ≤ f.index).length

/-- No index stands twice, and a new function has the next free index. -/
structure Numbered (known : UInt32) (fs : List Func) : Prop where
  nodup : (fs.map Func.index).Nodup
  dense : ∀ before f after, fs = before ++ f :: after →
    f.index < known ∨ f.index = known + newCount known before

theorem Numbered.nil (known : UInt32) : Numbered known [] where
  nodup := .nil
  dense := by simp

theorem Numbered.concat {fs : List Func} {f : Func} (numbered : Numbered known fs)
    (fresh : ∀ g ∈ fs, g.index ≠ f.index)
    (next : f.index < known ∨ f.index = known + newCount known fs) :
    Numbered known (fs ++ [f]) where
  nodup := by
    rw [map_append, nodup_append]
    refine ⟨numbered.nodup, by simp, ?_⟩
    intro a member b last
    obtain ⟨g, gMember, rfl⟩ := mem_map.1 member
    simp only [map_cons, map_nil, mem_singleton] at last
    exact last ▸ fresh g gMember
  dense := by
    intro before g after split
    rcases eq_nil_or_concat after with rfl | ⟨after, last, rfl⟩
    · obtain ⟨rfl, same⟩ := append_inj' split rfl
      cases same
      exact next
    · rw [concat_eq_append, ← cons_append, ← append_assoc] at split
      exact numbered.dense before g after (append_inj' split rfl).1

namespace Draft

variable {d : Draft} {index paramCount : UInt32} {line : Nat} {i : Instruction} {l : SourceLine}
  {lines : List SourceLine}

/-- What holds of a draft as long as nothing was found. -/
structure Clean (known : UInt32) (d : Draft) : Prop where
  code : ∀ i ∈ d.code.toList, i.Shaped
  funcs : ∀ f ∈ d.funcs.toList, f.Built
  numbered : Numbered known d.funcs.toList
  current : ∀ o, d.current = some o → o.dropped = false ∧ (∀ i ∈ o.body.toList, i.Shaped) ∧
    (∀ f ∈ d.funcs.toList, f.index ≠ o.index) ∧
    (o.index < known ∨ o.index = known + newCount known d.funcs.toList)

theorem clean_empty (known : UInt32) : Clean known {} where
  code := by simp
  funcs := by simp
  numbered := .nil known
  current := by simp

theorem findings_note (d : Draft) (f : Finding) : (d.note f).findings ≠ #[] := by
  simp [note]

theorem noteAll_eq (d : Draft) (fs : List Finding) :
    d.noteAll fs = { d with findings := d.findings ++ fs.toArray } := by
  unfold noteAll
  induction fs generalizing d with
  | nil => simp
  | cons f fs ih => simp [ih, note]

theorem findings_noteAll {fs : List Finding} :
    (d.noteAll fs).findings = #[] ↔ d.findings = #[] ∧ fs = [] := by
  simp [noteAll_eq]

theorem indexProblem?_none (fine : d.indexProblem? known index = none) :
    (∀ f ∈ d.funcs.toList, f.index ≠ index) ∧
      (index < known ∨ index = known + newCount known d.funcs.toList) := by
  unfold indexProblem? at fine
  simp only [Array.any_eq_true', beq_iff_eq] at fine
  split at fine
  · cases fine
  · next fresh =>
    split at fine
    · cases fine
    · next order =>
      refine ⟨fun f member same => fresh ⟨f, Array.mem_toList_iff.1 member, same⟩, ?_⟩
      by_cases same : index = d.nextIndex known
      · exact .inr same
      · exact .inl (UInt32.not_le.1 fun le => order ⟨same, le⟩)

theorem quiet_of_openFunc (quiet : (d.openFunc known index paramCount line).findings = #[]) :
    d.findings = #[] ∧ d.indexProblem? known index = none := by
  unfold openFunc at quiet
  split at quiet
  · exact absurd quiet (findings_note d _)
  · simpa [noteAll_eq] using quiet

theorem quiet_of_openDropped (quiet : (d.openDropped line).findings = #[]) : d.findings = #[] := by
  unfold openDropped at quiet
  split at quiet
  · exact absurd quiet (findings_note d _)
  · exact quiet

theorem quiet_of_closeFunc (quiet : (d.closeFunc line).findings = #[]) : d.findings = #[] := by
  unfold closeFunc at quiet
  split at quiet
  · exact absurd quiet (findings_note d _)
  · split at quiet
    · exact quiet
    · exact (findings_noteAll.1 quiet).1

theorem findings_addInstruction (d : Draft) (i : Instruction) :
    (d.addInstruction i).findings = d.findings := by
  unfold addInstruction
  split <;> rfl

/-- A malformed line leaves a finding. -/
theorem quiet_of_feed (quiet : (d.feed known l).findings = #[]) :
    d.findings = #[] ∧ ∃ form, LineForm.ofTokens l.number l.tokens = .ok form := by
  unfold feed at quiet
  split at quiet
  · next formed => exact ⟨quiet, _, formed⟩
  · next formed => exact ⟨(quiet_of_openFunc quiet).1, _, formed⟩
  · next formed => exact ⟨quiet_of_closeFunc quiet, _, formed⟩
  · next formed => exact ⟨(findings_addInstruction d _).symm.trans quiet, _, formed⟩
  · next e _ =>
    have noted : (d.note ⟨.ofLine e.fault, e.span⟩).findings = #[] := by
      split at quiet
      · exact quiet_of_openDropped quiet
      · exact quiet_of_closeFunc quiet
      · exact quiet
      · exact quiet
    exact absurd noted (findings_note d _)

theorem clean_openFunc (clean : d.Clean known)
    (quiet : (d.openFunc known index paramCount line).findings = #[]) :
    (d.openFunc known index paramCount line).Clean known := by
  obtain ⟨-, fine⟩ := quiet_of_openFunc quiet
  obtain ⟨fresh, next⟩ := indexProblem?_none fine
  unfold openFunc at quiet ⊢
  split at quiet
  · exact absurd quiet (findings_note d _)
  · next closed =>
    rw [if_neg closed]
    simp only [fine, Option.toList_none, map_nil, noteAll_eq]
    refine ⟨clean.code, clean.funcs, clean.numbered, ?_⟩
    rintro o ⟨⟩
    exact ⟨rfl, by simp, fresh, next⟩

theorem argument_lt {body : List Instruction} (none : argumentFindings index paramCount body = [])
    (member : i ∈ body) {n : UInt32} (operand : .arg n ∈ i.operands) : n < paramCount := by
  by_contra large
  unfold argumentFindings at none
  rw [flatMap_eq_nil_iff] at none
  have found := none i member
  rw [filterMap_eq_nil_iff] at found
  simpa [UInt32.not_lt.1 large] using found _ operand

theorem clean_closeFunc (clean : d.Clean known) (quiet : (d.closeFunc line).findings = #[]) :
    (d.closeFunc line).Clean known := by
  unfold closeFunc at quiet ⊢
  cases opened : d.current with
  | none => simp only [opened] at quiet; exact absurd quiet (findings_note d _)
  | some o =>
    obtain ⟨kept, shaped, fresh, next⟩ := clean.current o opened
    simp only [opened, kept, Bool.false_eq_true, if_false] at quiet ⊢
    obtain ⟨-, none⟩ := findings_noteAll.1 quiet
    rw [none, noteAll_eq]
    refine ⟨clean.code, ?_, ?_, by simp⟩
    · intro f member
      simp only [Array.toList_push, mem_append, mem_singleton] at member
      rcases member with old | rfl
      · exact clean.funcs f old
      · exact ⟨shaped, fun i member n operand => argument_lt none member operand, rfl⟩
    · simp only [Array.toList_push]
      exact clean.numbered.concat fresh next

theorem clean_addInstruction (clean : d.Clean known) (shaped : i.Shaped) :
    (d.addInstruction i).Clean known := by
  unfold addInstruction
  cases opened : d.current with
  | none =>
    refine ⟨?_, clean.funcs, clean.numbered, by simp⟩
    intro j member
    simp only [Array.toList_push, mem_append, mem_singleton] at member
    rcases member with old | rfl
    · exact clean.code j old
    · exact shaped
  | some o =>
    obtain ⟨kept, body, fresh, next⟩ := clean.current o opened
    refine ⟨clean.code, clean.funcs, clean.numbered, ?_⟩
    rintro o ⟨⟩
    refine ⟨kept, ?_, fresh, next⟩
    intro j member
    simp only [Array.toList_push, mem_append, mem_singleton] at member
    rcases member with old | rfl
    · exact body j old
    · exact shaped

/-- A line on which nothing is found keeps a draft clean. -/
theorem clean_feed (slots : Token.SlotsAreSlots l.tokens) (clean : d.Clean known)
    (quiet : (d.feed known l).findings = #[]) : (d.feed known l).Clean known := by
  obtain ⟨-, form, formed⟩ := quiet_of_feed quiet
  unfold feed at quiet ⊢
  simp only [formed] at quiet ⊢
  cases form with
  | empty => exact clean
  | opener index paramCount => exact clean_openFunc clean quiet
  | closer => exact clean_closeFunc clean quiet
  | instruction i => exact clean_addInstruction clean (LineForm.shaped_of_ofTokens slots formed)

theorem quiet_of_feedAll (quiet : (lines.foldl (feed known) d).findings = #[]) :
    d.findings = #[] := by
  induction lines generalizing d with
  | nil => exact quiet
  | cons l lines ih => exact (quiet_of_feed (ih quiet)).1

theorem clean_feedAll (slots : ∀ l ∈ lines, Token.SlotsAreSlots l.tokens) (clean : d.Clean known)
    (quiet : (lines.foldl (feed known) d).findings = #[]) :
    (lines.foldl (feed known) d).Clean known := by
  induction lines generalizing d with
  | nil => exact clean
  | cons l lines ih =>
    have first : (d.feed known l).findings = #[] := quiet_of_feedAll quiet
    exact ih (fun k member => slots k (mem_cons_of_mem _ member))
      (clean_feed (slots l mem_cons_self) clean first) quiet

end Draft

theorem Source.slotsAreSlots {s : Source} {l : SourceLine} (member : l ∈ s.significantLines) :
    Token.SlotsAreSlots l.tokens := by
  obtain ⟨⟨text, number⟩, -, rfl⟩ := mem_map.1 (mem_of_mem_filter member)
  exact Token.slotsAreSlots_ofLine number text

/-! ## Whole units -/

/-- The labels that some code defines, in order. -/
def definedLabels (code : List Instruction) : List UInt32 :=
  code.filterMap Instruction.definedLabel?

/-- Every label is defined at most once and every jump has a target. -/
structure LabelsSound (code : List Instruction) : Prop where
  nodup : (definedLabels code).Nodup
  defined : ∀ i ∈ code, i.opcode = .jump ∨ i.opcode = .jumpIf →
    ∀ label, i.label? = some label → label ∈ definedLabels code

/-- What holds of every program that was built in the context of `known` functions. -/
structure Program.Sound (known : UInt32) (p : Program) : Prop where
  funcs : ∀ f ∈ p.funcs, f.Built
  code : ∀ i ∈ p.code, i.Shaped
  outside : ∀ i ∈ p.code, i.opcode ≠ .ret ∧
    ∀ n, .var n ∉ i.operands ∧ .arg n ∉ i.operands
  numbered : Numbered known p.funcs
  funcLabels : ∀ f ∈ p.funcs, LabelsSound f.body
  codeLabels : LabelsSound p.code
  calls : ∀ i ∈ p.allCode, ∀ index args, i.callTarget? = some (index, args) →
    index < known ∨ ∃ f ∈ p.funcs, f.index = index
  globalCount : p.globalCount = slotCount Operand.globalIndex? p.allCode

namespace Draft

variable {code : List Instruction} {scope : Scope}

theorem outside_of_moduleFindings (none : moduleFindings code = []) {i : Instruction}
    (member : i ∈ code) : i.opcode ≠ .ret ∧ ∀ n, .var n ∉ i.operands ∧ .arg n ∉ i.operands := by
  unfold moduleFindings at none
  rw [flatMap_eq_nil_iff] at none
  obtain ⟨noReturn, noSlot⟩ := append_eq_nil_iff.1 (none i member)
  rw [filterMap_eq_nil_iff] at noSlot
  refine ⟨fun ret => by simp [ret] at noReturn, fun n => ⟨fun operand => ?_, fun operand => ?_⟩⟩
  · simpa using noSlot _ operand
  · simpa using noSlot _ operand

theorem nodup_of_duplicateFindings {seen : List (UInt32 × Nat)}
    (none : duplicateFindings scope seen code = []) :
    (definedLabels code).Nodup ∧ ∀ label ∈ definedLabels code, seen.lookup label = Option.none := by
  induction code generalizing seen with
  | nil => simp [definedLabels]
  | cons i rest ih =>
    unfold duplicateFindings at none
    cases defined : i.definedLabel? with
    | none =>
      simp only [defined] at none
      simpa [definedLabels, defined] using ih none
    | some label =>
      simp only [defined, append_eq_nil_iff, map_eq_nil_iff, Option.toList_eq_nil_iff] at none
      obtain ⟨nodup, unseen⟩ := ih none.2
      have labels : definedLabels (i :: rest) = label :: definedLabels rest := by
        simp [definedLabels, defined]
      rw [labels, nodup_cons]
      have older : ∀ l ∈ definedLabels rest, l ≠ label ∧ seen.lookup l = Option.none := by
        intro l member
        have missing := unseen l member
        rw [lookup_cons] at missing
        by_cases same : l = label
        · simp [same] at missing
        · rw [beq_eq_false_iff_ne.2 same] at missing
          exact ⟨same, missing⟩
      refine ⟨⟨fun member => (older label member).1 rfl, nodup⟩, ?_⟩
      intro l member
      rcases mem_cons.1 member with rfl | member
      · exact none.1
      · exact (older l member).2

theorem labelsSound_of_labelFindings (none : labelFindings scope code = []) : LabelsSound code := by
  obtain ⟨duplicates, undefined⟩ := append_eq_nil_iff.1 none
  refine ⟨(nodup_of_duplicateFindings duplicates).1, fun i member jump label target => ?_⟩
  unfold undefinedFindings at undefined
  rw [filterMap_eq_nil_iff] at undefined
  have found := undefined i member
  simp only [if_pos jump, target] at found
  by_contra missing
  rw [if_neg (by simpa [definedLabels] using missing)] at found
  cases found

end Draft

/-- A clean draft without findings stands for a sound program. -/
theorem Draft.sound_toProgram {d : Draft} (clean : d.Clean known)
    (none : d.allFindings known = []) : d.toProgram.Sound known := by
  simp only [Draft.allFindings, append_eq_nil_iff] at none
  obtain ⟨⟨⟨-, outside⟩, funcLabels⟩, codeLabels⟩ := none.1
  refine {
    funcs := clean.funcs
    code := clean.code
    outside := fun i => Draft.outside_of_moduleFindings outside
    numbered := clean.numbered
    funcLabels := fun f member => Draft.labelsSound_of_labelFindings
      (flatMap_eq_nil_iff.1 funcLabels f member)
    codeLabels := Draft.labelsSound_of_labelFindings codeLabels
    calls := fun i member index args target => ?_
    globalCount := rfl }
  have calls := none.2
  unfold Draft.callFindings at calls
  rw [filterMap_eq_nil_iff] at calls
  have found := calls i member
  simp only [target, Option.bind_some, ite_eq_left_iff, Bool.or_eq_true, decide_eq_true_eq,
    any_eq_true, beq_iff_eq, reduceCtorEq, imp_false, not_not] at found
  exact found

theorem sound_of_parse {source : Source} {p : Program}
    (parsed : Program.parse source known = .ok p) : p.Sound known := by
  have clean : (Draft.ofLines known source.significantLines).findings = #[] →
      (Draft.ofLines known source.significantLines).Clean known :=
    Draft.clean_feedAll (fun l => Source.slotsAreSlots) (Draft.clean_empty known)
  unfold Program.parse at parsed
  generalize Draft.ofLines known source.significantLines = d at clean parsed
  cases none : d.allFindings known with
  | nil =>
    simp only [none, Except.ok.injEq] at parsed
    have quiet : d.findings = #[] := by
      simp only [Draft.allFindings, append_eq_nil_iff, Array.toList_eq_nil_iff] at none
      exact none.1.1.1.1.1
    exact parsed ▸ Draft.sound_toProgram (clean quiet) none
  | cons f fs => simp only [none, reduceCtorEq] at parsed

/-! ## Programs without a context -/

namespace Program.Sound

variable {p : Program} (sound : p.Sound 0) {i : Instruction}

include sound

theorem func?_index {f : Func} (member : f ∈ p.funcs) : p.func? f.index = some f := by
  have nodup := sound.numbered.nodup
  unfold Program.func?
  generalize p.funcs = fs at member nodup
  induction fs with
  | nil => cases member
  | cons g fs ih =>
    rw [map_cons, nodup_cons] at nodup
    rw [find?_cons]
    rcases mem_cons.1 member with rfl | later
    · simp
    · have other : g.index ≠ f.index := fun same =>
        nodup.1 (same ▸ mem_map_of_mem later)
      rw [beq_eq_false_iff_ne.2 other]
      exact ih later nodup.2

theorem func?_call (member : i ∈ p.allCode) {index : UInt32} {args : List Operand}
    (target : i.callTarget? = some (index, args)) :
    ∃ f ∈ p.funcs, p.func? index = some f ∧ f.index = index := by
  rcases sound.calls i member index args target with below | ⟨f, fMember, rfl⟩
  · exact absurd below (by simp)
  · exact ⟨f, fMember, sound.func?_index fMember, rfl⟩

theorem shaped (member : i ∈ p.allCode) : i.Shaped := by
  rcases mem_append.1 member with inFunc | inCode
  · obtain ⟨f, fMember, inBody⟩ := mem_flatMap.1 inFunc
    exact (sound.funcs f fMember).shaped i inBody
  · exact sound.code i inCode

end Program.Sound

end SlotLang
