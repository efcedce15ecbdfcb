import Mathlib.Data.List.Nodup
import Mathlib.Data.List.Perm.Subperm
import SlotLang.Proofs.Parsed
import SlotLang.Assembly.Emit
import SlotLang.Machine.Environment
import SlotLang.Script.Emit

/-!
# Labels and segments

Code is cut at its labels in two ways, and labels are looked up in three tables. A label's first
definition decides what every table says: the machine's table gives its position, the two others
the number of the segment that starts there.
-/

open List

namespace SlotLang

variable {code : List Instruction} {i : Instruction} {label : UInt32}

/-- How code splits at the first definition of a label. -/
structure FirstDefinition (code : List Instruction) (label : UInt32)
    (before : List Instruction) (i : Instruction) (after : List Instruction) : Prop where
  split : code = before ++ i :: after
  defines : i.definedLabel? = some label
  fresh : label ∉ definedLabels before

theorem FirstDefinition.isLabel {code : List Instruction} {label : UInt32}
    {before after : List Instruction} {i : Instruction}
    (first : FirstDefinition code label before i after) :
    i.isLabel = true ∧ i.label? = some label := by
  have defines := first.defines
  unfold Instruction.definedLabel? at defines
  by_cases isLabel : i.isLabel = true
  · rw [if_pos isLabel] at defines
    exact ⟨isLabel, defines⟩
  · rw [if_neg isLabel] at defines
    cases defines

theorem exists_firstDefinition (defined : label ∈ definedLabels code) :
    ∃ before i after, FirstDefinition code label before i after := by
  induction code with
  | nil => simp [definedLabels] at defined
  | cons i rest ih =>
    by_cases here : i.definedLabel? = some label
    · exact ⟨[], i, rest, rfl, here, by simp [definedLabels]⟩
    · have later : label ∈ definedLabels rest := by
        cases other : i.definedLabel? with
        | none => simpa [definedLabels, other] using defined
        | some l =>
          have different : label ≠ l := fun same => here (same ▸ other)
          simpa [definedLabels, other, different] using defined
      obtain ⟨before, j, after, first⟩ := ih later
      refine ⟨i :: before, j, after, by rw [first.split, cons_append], first.defines, ?_⟩
      intro member
      obtain ⟨k, kMember, defines⟩ := mem_filterMap.1 member
      rcases mem_cons.1 kMember with rfl | kMember
      · exact here defines
      · exact first.fresh (mem_filterMap.2 ⟨k, kMember, defines⟩)

theorem drop_eq_cons {pos : Nat} (current : code[pos]? = some i) :
    code.drop pos = i :: code.drop (pos + 1) := by
  obtain ⟨bound, rfl⟩ := List.getElem?_eq_some_iff.1 current
  exact drop_eq_getElem_cons bound

/-! ## Look-ups in tables made in order -/

variable {α κ β : Type} [BEq κ] [LawfulBEq κ]

/-- The first item that makes an entry under a key decides the look-up. -/
theorem lookup_filterMap {f : α → Option (κ × β)} {xs ys : List α} {y : α} {key : κ} {v : β}
    (before : ∀ x ∈ xs, ∀ e, f x = some e → e.1 ≠ key) (here : f y = some (key, v)) :
    ((xs ++ y :: ys).filterMap f).lookup key = some v := by
  induction xs with
  | nil => simp [here]
  | cons x xs ih =>
    have rest := ih fun x' member => before x' (mem_cons_of_mem _ member)
    cases made : f x with
    | none => simpa [made] using rest
    | some e =>
      have other : key ≠ e.1 := fun same => before x mem_cons_self e made same.symm
      rw [cons_append, filterMap_cons_some made, lookup_cons, beq_eq_false_iff_ne.2 other]
      exact rest

theorem lookup_filterMap_none {f : α → Option (κ × β)} {xs : List α} {key : κ}
    (missing : ∀ x ∈ xs, ∀ e, f x = some e → e.1 ≠ key) :
    (xs.filterMap f).lookup key = none := by
  rw [lookup_eq_none_iff]
  intro e member
  obtain ⟨x, xMember, made⟩ := mem_filterMap.1 member
  exact bne_iff_ne.2 fun same => missing x xMember e made same.symm

/-! ## The machine's table -/

theorem mem_definedLabels (member : i ∈ code) (defines : i.definedLabel? = some label) :
    label ∈ definedLabels code :=
  mem_filterMap.2 ⟨i, member, defines⟩

theorem FirstDefinition.labelPosition? {before after : List Instruction}
    (first : FirstDefinition code label before i after) :
    labelPosition? code label = some before.length := by
  unfold SlotLang.labelPosition? labelTable
  rw [first.split, zipIdx_append, zipIdx_cons, Nat.zero_add]
  refine lookup_filterMap ?_ (by simp [first.defines])
  rintro ⟨j, position⟩ member e made
  obtain ⟨l, defines, rfl⟩ := Option.map_eq_some_iff.1 made
  exact fun same => first.fresh (same ▸ mem_definedLabels (fst_mem_of_mem_zipIdx member) defines)

theorem labelPosition?_eq_none (missing : label ∉ definedLabels code) :
    labelPosition? code label = none := by
  refine lookup_filterMap_none ?_
  rintro ⟨j, position⟩ member e made
  obtain ⟨l, defines, rfl⟩ := Option.map_eq_some_iff.1 made
  exact fun same => missing (same ▸ mem_definedLabels (fst_mem_of_mem_zipIdx member) defines)

/-! ## Segments -/

namespace Assembly

variable {after before : List Instruction}

/-- The number of labels before a position is the number of the segment there. -/
def labelCount (code : List Instruction) : Nat :=
  (code.filter Instruction.isLabel).length

theorem label_mem_of_entry {start : Nat} {entry : Instruction × Nat} {e : UInt32 × Nat}
    (member : entry ∈ (code.filter Instruction.isLabel).zipIdx start)
    (made : entry.1.label?.map (·, entry.2) = some e) : e.1 ∈ definedLabels code := by
  obtain ⟨l, target, rfl⟩ := Option.map_eq_some_iff.1 made
  obtain ⟨member, isLabel⟩ := mem_filter.1 (fst_mem_of_mem_zipIdx member)
  exact mem_definedLabels member (by rwa [Instruction.definedLabel?, if_pos isLabel])

theorem lookup_segmentTable (first : FirstDefinition code label before i after) :
    (segmentTable code).lookup label = some (labelCount before + 1) := by
  obtain ⟨isLabel, named⟩ := first.isLabel
  unfold Assembly.segmentTable
  rw [first.split, filter_append, filter_cons_of_pos isLabel, zipIdx_append, zipIdx_cons]
  refine lookup_filterMap ?_ (by simp [named, labelCount, Nat.add_comm])
  exact fun entry member e made same => first.fresh (same ▸ label_mem_of_entry member made)

theorem segmentTable_eq_none (missing : label ∉ definedLabels code) :
    (segmentTable code).lookup label = none := by
  refine lookup_filterMap_none ?_
  exact fun entry member e made same => missing (same ▸ label_mem_of_entry member made)

theorem cutSegments_label (isLabel : i.isLabel = true) (rest : List Instruction) :
    cutSegments (i :: rest) = ([], (i :: (cutSegments rest).1) :: (cutSegments rest).2) := by
  simp [cutSegments, isLabel]

theorem cutSegments_other (other : i.isLabel = false) (rest : List Instruction) :
    cutSegments (i :: rest) = (i :: (cutSegments rest).1, (cutSegments rest).2) := by
  simp [cutSegments, other]

/-- Cutting at a label separates what stands before it from what it starts. -/
theorem cutSegments_append (isLabel : i.isLabel = true) : cutSegments (before ++ i :: after) =
      ((cutSegments before).1, (cutSegments before).2 ++ (cutSegments (i :: after)).2) := by
  induction before with
  | nil =>
    rw [nil_append, cutSegments_label isLabel]
    rfl
  | cons j before ih =>
    cases jLabel : j.isLabel with
    | true => simp [cutSegments_label jLabel, ih]
    | false => simp [cutSegments_other jLabel, ih]

theorem cutSegments_flatten (code : List Instruction) :
    (cutSegments code).1 ++ (cutSegments code).2.flatten = code := by
  induction code with
  | nil => rfl
  | cons i rest ih =>
    cases isLabel : i.isLabel with
    | true => simp [cutSegments_label isLabel, ih]
    | false => simp [cutSegments_other isLabel, ih]

theorem length_cutSegments (code : List Instruction) :
    (cutSegments code).2.length = labelCount code := by
  induction code with
  | nil => rfl
  | cons i rest ih =>
    cases isLabel : i.isLabel with
    | true =>
      rw [cutSegments_label isLabel, length_cons, ih, labelCount, labelCount,
        filter_cons_of_pos isLabel, length_cons]
    | false =>
      rw [cutSegments_other isLabel, ih, labelCount, labelCount,
        filter_cons_of_neg (by simp [isLabel])]

theorem segments_flatten (code : List Instruction) : (segments code).flatten = code :=
  cutSegments_flatten code

theorem length_segments (code : List Instruction) :
    (segments code).length = labelCount code + 1 := by
  rw [segments, length_cons, length_cutSegments]

/-- There are no more different labels than indices. -/
theorem length_le_of_nodup {labels : List UInt32} (nodup : labels.Nodup) :
    labels.length ≤ 0x100000000 := by
  have inside : labels.map UInt32.toNat ⊆ List.range 0x100000000 := by
    intro n member
    obtain ⟨label, -, rfl⟩ := mem_map.1 member
    exact mem_range.2 label.toNat_lt
  have distinct : (labels.map UInt32.toNat).Nodup := nodup.map fun _ _ => UInt32.toNat_inj.1
  have count := (subperm_of_subset distinct inside).length_le
  rwa [length_map, length_range] at count

theorem labelCount_eq (shaped : ∀ i ∈ code, i.Shaped) :
    labelCount code = (definedLabels code).length := by
  have defines : ∀ i ∈ code, i.isLabel = true ↔ i.definedLabel?.isSome = true := by
    intro i member
    cases shaped i member <;> simp [Instruction.isLabel, Instruction.definedLabel?,
      Instruction.label?, Instruction.operand?, Operand.literal?]
  rw [labelCount, definedLabels, length_filterMap_eq_countP, ← countP_eq_length_filter,
    countP_congr defines]

/-- Code that defines no label twice has a bounded number of segments. -/
theorem length_segments_le (shaped : ∀ i ∈ code, i.Shaped) (labels : LabelsSound code) :
    (segments code).length ≤ 0x100000001 := by
  have count := length_le_of_nodup labels.nodup
  rw [length_segments, labelCount_eq shaped]
  omega

/-- Labels stand at the start of the segments behind the first, and nowhere else. -/
theorem cutSegments_labels (code : List Instruction) :
    (∀ j ∈ (cutSegments code).1, j.isLabel = false) ∧ ∀ segment ∈ (cutSegments code).2,
      ∃ i rest, segment = i :: rest ∧ i.isLabel = true ∧ ∀ j ∈ rest, j.isLabel = false := by
  induction code with
  | nil => exact ⟨nofun, nofun⟩
  | cons i rest ih =>
    cases isLabel : i.isLabel with
    | true =>
      rw [cutSegments_label isLabel]
      exact ⟨nofun, forall_mem_cons.2 ⟨⟨i, _, rfl, isLabel, ih.1⟩, ih.2⟩⟩
    | false =>
      rw [cutSegments_other isLabel]
      exact ⟨forall_mem_cons.2 ⟨isLabel, ih.1⟩, ih.2⟩

theorem segments_append (isLabel : i.isLabel = true) : segments (before ++ i :: after) =
      segments before ++ (i :: (cutSegments after).1) :: (cutSegments after).2 := by
  rw [segments, cutSegments_append isLabel, cutSegments_label isLabel]
  rfl

theorem segment_of_position {position : Nat} (found : labelPosition? code label = some position) :
    ∃ k, (segmentTable code).lookup label = some k ∧ k < (segments code).length ∧
      ((segments code).drop k).flatten = code.drop position := by
  by_cases defined : label ∈ definedLabels code
  · obtain ⟨before, i, after, first⟩ := exists_firstDefinition defined
    obtain ⟨isLabel, -⟩ := first.isLabel
    rw [first.labelPosition?, Option.some.injEq] at found
    subst found
    refine ⟨_, lookup_segmentTable first, ?_, ?_⟩
    · rw [length_segments, first.split]
      simp [labelCount, isLabel]
    · rw [first.split, segments_append isLabel, ← length_segments, drop_left, drop_left]
      exact congrArg (i :: ·) (cutSegments_flatten after)
  · rw [labelPosition?_eq_none defined] at found
    cases found

theorem segments_of_label {k : Nat} (segment : (segmentTable code).lookup label = some k) :
    ∃ position, labelPosition? code label = some position ∧ k < (segments code).length ∧
      ((segments code).drop k).flatten = code.drop position := by
  by_cases defined : label ∈ definedLabels code
  · obtain ⟨before, i, after, first⟩ := exists_firstDefinition defined
    obtain ⟨k', segment', bound, split⟩ := segment_of_position first.labelPosition?
    rw [segment, Option.some.injEq] at segment'
    subst segment'
    exact ⟨before.length, first.labelPosition?, bound, split⟩
  · rw [segmentTable_eq_none defined] at segment
    cases segment

end Assembly

/-! ## The same segments by their bounds -/

namespace Script

def labelPositions (code : List Instruction) : List Nat :=
  code.zipIdx.filterMap fun (i, position) => if i.isLabel then some position else none

theorem labelPositions_cons (i : Instruction) (rest : List Instruction) :
    labelPositions (i :: rest) =
      (if i.isLabel then [0] else []) ++ (labelPositions rest).map (· + 1) := by
  have shifted : (rest.zipIdx 1).filterMap
      (fun (i, position) => if i.isLabel then some position else none) =
        (labelPositions rest).map (· + 1) := by
    unfold labelPositions
    rw [zipIdx_eq_map_add, filterMap_map, map_filterMap]
    refine filterMap_congr ?_
    rintro ⟨j, position⟩ -
    cases j.isLabel <;> simp [Nat.add_comm]
  cases isLabel : i.isLabel <;> simpa [labelPositions, zipIdx_cons, isLabel] using shifted

theorem slice_succ (i : Instruction) (rest : List Instruction) (start stop : Nat) :
    slice (i :: rest) (start + 1) (stop + 1) = slice rest start stop := by
  simp [slice]

theorem slice_zero_succ (i : Instruction) (rest : List Instruction) (stop : Nat) :
    slice (i :: rest) 0 (stop + 1) = i :: slice rest 0 stop := by
  simp [slice]

/-- The bounds after the first one. -/
def laterBounds (code : List Instruction) : List Nat :=
  labelPositions code ++ [code.length]

theorem segments_eq (code : List Instruction) :
    segments code = List.zipWith (slice code) (0 :: laterBounds code) (laterBounds code) :=
  rfl

theorem laterBounds_cons (i : Instruction) (rest : List Instruction) :
    laterBounds (i :: rest) =
      (if i.isLabel then [0] else []) ++ (laterBounds rest).map (· + 1) := by
  simp [laterBounds, labelPositions_cons]

/-- Cutting by bounds and cutting from the end give the same segments. -/
theorem segments_eq_segments (code : List Instruction) : segments code = Assembly.segments code := by
  induction code with
  | nil => rfl
  | cons i rest ih =>
    obtain ⟨bound, bounds, later⟩ : ∃ bound bounds, laterBounds rest = bound :: bounds := by
      cases positions : labelPositions rest with
      | nil | cons bound bounds => exact ⟨_, _, by rw [laterBounds, positions]; rfl⟩
    have shifted : ∀ starts stops : List Nat,
        List.zipWith (slice (i :: rest)) (starts.map (· + 1)) (stops.map (· + 1)) =
          List.zipWith (slice rest) starts stops := by
      intro starts stops
      rw [zipWith_map]
      simp only [slice_succ]
    rw [segments_eq, later, zipWith_cons_cons, Assembly.segments, List.cons.injEq] at ih
    rw [segments_eq, laterBounds_cons, later, map_cons, Assembly.segments]
    have tail := shifted (bound :: bounds) bounds
    rw [map_cons] at tail
    cases isLabel : i.isLabel with
    | true =>
      rw [Assembly.cutSegments_label isLabel, if_pos rfl, singleton_append,
        zipWith_cons_cons, zipWith_cons_cons, slice_zero_succ, tail, ih.1, ih.2]
      rfl
    | false =>
      rw [Assembly.cutSegments_other isLabel, if_neg Bool.false_ne_true, nil_append,
        zipWith_cons_cons, slice_zero_succ, tail, ih.1, ih.2]

theorem flatten_segments (code : List Instruction) : (segments code).flatten = code := by
  rw [segments_eq_segments]
  exact Assembly.segments_flatten code

theorem mem_of_mem_segments {cut : List Instruction} (member : cut ∈ segments code)
    (inside : i ∈ cut) : i ∈ code := by
  rw [← flatten_segments code]
  exact mem_flatten.2 ⟨cut, member, inside⟩

theorem length_segments_pos (code : List Instruction) : 0 < (segments code).length := by
  rw [segments_eq_segments]
  exact Nat.succ_pos _

/-- The entries that some code adds once `count` labels have been seen. -/
def tableFrom (count : Nat) (code : List Instruction) : List (UInt32 × Nat) :=
  ((code.filter Instruction.isLabel).zipIdx (count + 1)).filterMap fun (i, k) => i.label?.map (·, k)

theorem any_eq_isSome_lookup (entries : List (UInt32 × Nat)) (label : UInt32) :
    (entries.any fun entry => entry.1 == label) = (entries.lookup label).isSome := by
  induction entries with
  | nil => rfl
  | cons e rest ih =>
    rw [any_cons, ih, lookup_cons]
    by_cases same : label = e.1
    · simp [same]
    · rw [beq_eq_false_iff_ne.2 same, beq_eq_false_iff_ne.2 (Ne.symm same), Bool.false_or]

/-- The scan looks a label up among what it had found, then among what the code adds. -/
theorem lookup_foldl_step (code : List Instruction) (s : LabelScan) (label : UInt32) :
    (code.foldl LabelScan.step s).found.toList.lookup label =
      (s.found.toList.lookup label).or ((tableFrom s.count code).lookup label) := by
  induction code generalizing s with
  | nil => simp [tableFrom]
  | cons i rest ih =>
    rw [foldl_cons, ih]
    cases isLabel : i.isLabel with
    | false => simp [LabelScan.step, tableFrom, isLabel]
    | true =>
      cases target : i.label? with
      | none => simp [LabelScan.step, tableFrom, isLabel, target, zipIdx_cons]
      | some l =>
        have table : tableFrom s.count (i :: rest) =
            (l, s.count + 1) :: tableFrom (s.count + 1) rest := by
          simp [tableFrom, isLabel, target, zipIdx_cons]
        cases known : s.found.toList.lookup l with
        | some k =>
          have scanned : s.step i = { s with count := s.count + 1 } := by
            simp [LabelScan.step, isLabel, target, ← Array.any_toList, any_eq_isSome_lookup, known]
          rw [scanned, table, lookup_cons]
          by_cases same : label = l
          · simp [same, known]
          · rw [beq_eq_false_iff_ne.2 same]
        | none =>
          have scanned : s.step i =
              { found := s.found.push (l, s.count + 1), count := s.count + 1 } := by
            simp [LabelScan.step, isLabel, target, ← Array.any_toList, any_eq_isSome_lookup, known]
          rw [scanned, table, lookup_cons, Array.toList_push, lookup_append]
          by_cases same : label = l
          · simp [same, known]
          · simp [beq_eq_false_iff_ne.2 same, lookup_cons]

theorem lookup_segmentOfLabel (code : List Instruction) (label : UInt32) :
    (segmentOfLabel code).lookup label = (Assembly.segmentTable code).lookup label := by
  rw [segmentOfLabel, lookup_foldl_step]
  simp [tableFrom, Assembly.segmentTable]

end Script

/-! ## All three tables -/

theorem hasControl_of_jumps {i : Instruction} (member : i ∈ code)
    (jumps : i.opcode = .jump ∨ i.opcode = .jumpIf) : hasControl code = true := by
  refine any_eq_true.2 ⟨i, member, ?_⟩
  rcases jumps with jump | jump <;> simp [Instruction.isControl, jump]

theorem segments_of_plain (plain : hasControl code = false) :
    Assembly.segments code = [code] ∧ definedLabels code = [] := by
  have unlabelled : ∀ i ∈ code, i.isLabel = false := by
    intro i member
    have other := any_eq_false.1 plain i member
    simp only [Instruction.isControl, Bool.or_eq_true, not_or] at other
    exact Bool.eq_false_iff.2 other.1.1
  have none : Assembly.labelCount code = 0 := by
    rw [Assembly.labelCount, filter_eq_nil_iff.2 (by simpa using unlabelled)]
    rfl
  constructor
  · obtain ⟨segment, single⟩ := length_eq_one_iff.1
      ((Assembly.length_segments code).trans (congrArg (· + 1) none))
    have whole := Assembly.segments_flatten code
    rw [single, flatten_singleton] at whole
    rw [single, whole]
  · refine filterMap_eq_nil_iff.2 fun i member => ?_
    rw [Instruction.definedLabel?, unlabelled i member]
    rfl

/-- **The three tables agree on every label.** Both emitters cut code into the same segments, which
make up the code and start at its labels. They number a label alike, and number those labels that the
machine has a position for; the segment starts at that position, where the label is defined first. -/
theorem label_tables_agree (code : List Instruction) :
    Script.segments code = Assembly.segments code ∧ (Assembly.segments code).flatten = code ∧
    (∀ segment ∈ (Assembly.segments code).tail,
      ∃ i rest, segment = i :: rest ∧ i.isLabel = true ∧ ∀ j ∈ rest, j.isLabel = false) ∧
    (hasControl code = false → Assembly.segments code = [code] ∧ definedLabels code = []) ∧
    ∀ label : UInt32,
      (Script.segmentOfLabel code).lookup label = (Assembly.segmentTable code).lookup label ∧
      (((Assembly.segmentTable code).lookup label).isSome ↔ label ∈ definedLabels code) ∧
      (((Routine.ofCode code).labels.lookup label).isSome ↔ label ∈ definedLabels code) ∧
      ∀ k, (Assembly.segmentTable code).lookup label = some k →
        ∃ before i after, FirstDefinition code label before i after ∧
          (Routine.ofCode code).labels.lookup label = some before.length ∧
          ((Assembly.segments code).take k).flatten = before ∧
          ∃ rest, (Assembly.segments code)[k]? = some (i :: rest) := by
  refine ⟨Script.segments_eq_segments code, Assembly.segments_flatten code,
    (Assembly.cutSegments_labels code).2, segments_of_plain, fun label =>
    ⟨Script.lookup_segmentOfLabel code label, ?_⟩⟩
  by_cases defined : label ∈ definedLabels code
  · obtain ⟨before, i, after, first⟩ := exists_firstDefinition defined
    have position : (Routine.ofCode code).labels.lookup label = _ := first.labelPosition?
    have number := Assembly.lookup_segmentTable first
    refine ⟨by simp [number, defined], by simp [position, defined], fun k found => ?_⟩
    cases number.symm.trans found
    refine ⟨before, i, after, first, position, ?_⟩
    rw [first.split, Assembly.segments_append first.isLabel.1, ← Assembly.length_segments before,
      take_left]
    exact ⟨Assembly.segments_flatten before, (Assembly.cutSegments after).1, by simp⟩
  · have missing := Assembly.segmentTable_eq_none defined
    have unplaced : (Routine.ofCode code).labels.lookup label = none :=
      labelPosition?_eq_none defined
    refine ⟨by simp [missing, defined], by simp [unplaced, defined], fun k found => ?_⟩
    cases missing.symm.trans found

end SlotLang
