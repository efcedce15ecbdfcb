import SlotLang.Proofs.Builder.Acceptance
import SlotLang.Proofs.Canonical.Lines

/-!
# Writing and reading programs

The text of a well-formed program is read back as that program, but for the numbers of lines. The
lines of the text are written forms (`toList_text_program`), so they are read as these forms, and
together they are the layout of `itemsFrom`: the program's own functions and code, numbered anew.
Whether a unit is well built does not depend on the numbers of lines, so the builder accepts it.
-/

open List

namespace SlotLang

/-! ## Programs without line numbers -/

/-- The instruction without its line. -/
def Instruction.bare (i : Instruction) : Instruction :=
  { i with line := 0 }

/-- The function without the numbers of its lines. -/
def Func.bare (f : Func) : Func :=
  { f with body := f.body.map Instruction.bare, line := 0 }

/-- The program without the numbers of its lines. -/
def Program.withoutLines (p : Program) : Program :=
  { p with code := p.code.map Instruction.bare, funcs := p.funcs.map Func.bare }

/-- A program that the source text can express, with exact counts. -/
structure Program.WellFormed (p : Program) : Prop where
  indices : ∀ (k : Nat) f, p.funcs[k]? = some f → f.index.toNat = k
  shaped : ∀ i ∈ p.allCode, i.Shaped
  arguments : ∀ f ∈ p.funcs, ∀ i ∈ f.body, ∀ n, .arg n ∈ i.operands → n < f.paramCount
  placed : ∀ i ∈ p.code, i.Placeable
  funcLabels : ∀ f ∈ p.funcs, LabelsSound f.body
  codeLabels : LabelsSound p.code
  calls : ∀ i ∈ p.allCode, ∀ index args, i.callTarget? = some (index, args) →
    ∃ f ∈ p.funcs, f.index = index
  localCounts : ∀ f ∈ p.funcs, IsCount (slotsIn Operand.varIndex? f.body) f.localCount
  globalCount : IsCount (slotsIn Operand.globalIndex? p.allCode) p.globalCount

/-- The same code, perhaps on other lines. -/
def SameCode (code other : List Instruction) : Prop :=
  code.map Instruction.bare = other.map Instruction.bare

namespace SameCode

variable {code other : List Instruction} (same : SameCode code other)

include same

theorem exists_bare {i : Instruction} (member : i ∈ code) : ∃ j ∈ other, j.bare = i.bare := by
  have bare : i.bare ∈ code.map Instruction.bare := mem_map_of_mem member
  rw [same] at bare
  exact mem_map.1 bare

/-- What does not depend on lines holds of the same code. -/
theorem forall_mem {P : Instruction → Prop} (inert : ∀ i : Instruction, P i.bare ↔ P i)
    (all : ∀ j ∈ other, P j) : ∀ i ∈ code, P i := by
  intro i member
  obtain ⟨j, there, bare⟩ := same.exists_bare member
  rw [← inert, ← bare, inert]
  exact all j there

theorem definedLabels_eq : definedLabels code = definedLabels other := by
  have inert (code : List Instruction) :
      definedLabels code = definedLabels (code.map Instruction.bare) := by
    rw [definedLabels, definedLabels, filterMap_map]
    rfl
  rw [inert code, inert other, same]

theorem operands_eq : code.flatMap Instruction.operands = other.flatMap Instruction.operands := by
  have inert (code : List Instruction) :
      code.flatMap Instruction.operands = (code.map Instruction.bare).flatMap Instruction.operands := by
    rw [flatMap_map]
    rfl
  rw [inert code, inert other, same]

theorem slotCount_eq (pick : Operand → Option UInt32) : slotCount pick code = slotCount pick other := by
  rw [slotCount, slotCount, same.operands_eq]

theorem labelsSound (sound : LabelsSound other) : LabelsSound code := by
  refine ⟨same.definedLabels_eq ▸ sound.nodup, ?_⟩
  rw [same.definedLabels_eq]
  exact same.forall_mem (fun i => Iff.rfl) sound.defined

end SameCode

/-! ## The text of a program -/

/-- The forms of the lines of a function. -/
def Func.forms (f : Func) : List LineForm :=
  .opener f.index f.paramCount :: (f.body.map .instruction ++ [.closer])

def Program.forms (p : Program) : List LineForm :=
  p.funcs.flatMap Func.forms ++ p.code.map .instruction

theorem toList_text_instruction (i : Instruction) :
    i.text.toList = spaced (LineForm.instruction i).words := by
  have operands (os : List Operand) (s : String) :
      (os.foldl (fun s o => s ++ " " ++ o.text) s).toList =
        s.toList ++ (os.map fun o => o.text.toList).flatMap (' ' :: ·) := by
    induction os generalizing s with
    | nil => simp
    | cons o os ih =>
      rw [foldl_cons, ih]
      simp
  rw [Instruction.text, operands]
  simp [LineForm.words, spaced, Opcode.sigil]

theorem ended_append (ls ks : List (List Char)) : ended (ls ++ ks) = ended ls ++ ended ks :=
  flatMap_append

theorem toList_unlines_text (code : List Instruction) :
    (Text.unlines (code.map Instruction.text)).toList =
      ended ((code.map LineForm.instruction).map fun form => spaced form.words) := by
  rw [toList_unlines, map_map, map_map]
  congr 1
  exact map_congr_left fun i _ => toList_text_instruction i

theorem toList_text_func (f : Func) :
    f.text.toList = ended (f.forms.map fun form => spaced form.words) := by
  have first : spaced (LineForm.opener f.index f.paramCount).words ++ ['\n'] =
      ("# " ++ toString f.index.toNat ++ " " ++ toString f.paramCount.toNat ++ " \x7b\n").toList := by
    simp [LineForm.words, spaced, digits, Opcode.sigilChar]
  have last : ended [spaced LineForm.closer.words] = "\x7d\n".toList := rfl
  rw [Func.text, String.toList_append, String.toList_append, toList_unlines_text, ← first, ← last,
    append_assoc, ← ended_append, Func.forms, map_cons, map_append]
  rfl

theorem toList_text_program (p : Program) :
    p.text.toList = ended (p.forms.map fun form => spaced form.words) := by
  have functions (fs : List Func) : (String.join (fs.map Func.text)).toList =
      ended ((fs.flatMap Func.forms).map fun form => spaced form.words) := by
    rw [String.toList_join, flatMap_map]
    induction fs with
    | nil => rfl
    | cons f fs ih =>
      rw [flatMap_cons, flatMap_cons, map_append, ended_append, toList_text_func, ih]
  rw [Program.text, String.toList_append, toList_unlines_text, functions, ← ended_append,
    ← map_append]
  rfl

/-! ## The layout of the text -/

def codeLinesFrom : Nat → List Instruction → List CodeLine
  | _, [] => []
  | n, i :: code => ⟨n, { i with line := n }⟩ :: codeLinesFrom (n + 1) code

def itemsFrom : Nat → List Func → List Instruction → List Item
  | n, [], code => (codeLinesFrom n code).map .code
  | n, f :: fs, code =>
    .block n f.index f.paramCount (codeLinesFrom (n + 1) f.body) (n + 1 + f.body.length) ::
      itemsFrom (n + 1 + f.body.length + 1) fs code

/-- Forms on consecutive lines. -/
def formedFrom (n : Nat) (forms : List LineForm) : List FormedLine :=
  (forms.zipIdx n).map fun (form, n) => ⟨n, form.onLine n⟩

theorem formedFrom_cons (n : Nat) (form : LineForm) (forms : List LineForm) :
    formedFrom n (form :: forms) = ⟨n, form.onLine n⟩ :: formedFrom (n + 1) forms := rfl

theorem formedFrom_append (n : Nat) (forms others : List LineForm) :
    formedFrom n (forms ++ others) = formedFrom n forms ++ formedFrom (n + forms.length) others := by
  rw [formedFrom, zipIdx_append, map_append]
  rfl

theorem formed_codeLinesFrom (n : Nat) (code : List Instruction) :
    (codeLinesFrom n code).map CodeLine.formed = formedFrom n (code.map .instruction) := by
  induction code generalizing n with
  | nil => rfl
  | cons i code ih =>
    exact congrArg (FormedLine.mk n (.instruction { i with line := n }) :: ·) (ih (n + 1))

/-- The lines of a program's text are the layout of its items. -/
theorem layout_itemsFrom (n : Nat) (fs : List Func) (code : List Instruction) :
    layout (itemsFrom n fs code) = formedFrom n (fs.flatMap Func.forms ++ code.map .instruction) := by
  induction fs generalizing n with
  | nil =>
    have single (cs : List CodeLine) : layout (cs.map .code) = cs.map CodeLine.formed := by
      induction cs with
      | nil => rfl
      | cons c cs ih => exact congrArg (c.formed :: ·) ih
    rw [itemsFrom, single, formed_codeLinesFrom]
    rfl
  | cons f fs ih =>
    rw [itemsFrom, layout_block, formed_codeLinesFrom, ih, flatMap_cons, Func.forms,
      cons_append, cons_append, formedFrom_cons, append_assoc, append_assoc,
      singleton_append, formedFrom_append (n + 1), formedFrom_cons, length_map]
    rfl

theorem sameCode_codeLinesFrom (n : Nat) (code : List Instruction) :
    SameCode ((codeLinesFrom n code).map CodeLine.instruction) code := by
  induction code generalizing n with
  | nil => rfl
  | cons i code ih => exact congrArg (i.bare :: ·) (ih (n + 1))

/-- A block of the text stands for a function. -/
structure Block.StandsFor (b : Block) (f : Func) : Prop where
  index : b.index = f.index
  paramCount : b.paramCount = f.paramCount
  body : SameCode b.body f.body

theorem block?_itemsFrom (n : Nat) (fs : List Func) (code : List Instruction) :
    List.Forall₂ Block.StandsFor ((itemsFrom n fs code).filterMap Item.block?) fs := by
  induction fs generalizing n with
  | nil =>
    have none : ((codeLinesFrom n code).map Item.code).filterMap Item.block? = [] := by
      rw [filterMap_map, filterMap_eq_nil_iff]
      intro c _
      rfl
    rw [itemsFrom, none]
    exact .nil
  | cons f fs ih => exact .cons ⟨rfl, rfl, sameCode_codeLinesFrom _ f.body⟩ (ih _)

theorem code?_itemsFrom (n : Nat) (fs : List Func) (code : List Instruction) :
    SameCode ((itemsFrom n fs code).filterMap Item.code?) code := by
  induction fs generalizing n with
  | nil =>
    have all : ((codeLinesFrom n code).map Item.code).filterMap Item.code? =
        (codeLinesFrom n code).map CodeLine.instruction := by
      rw [filterMap_map, ← filterMap_eq_map]
      rfl
    rw [itemsFrom, all]
    exact sameCode_codeLinesFrom n code
  | cons f fs ih => exact ih _

/-! ## Reading the text -/

theorem eachAfter_positions {earlier indices : List UInt32}
    (dense : ∀ (k : Nat) index, indices[k]? = some index → index.toNat = earlier.length + k)
    (below : ∀ index ∈ earlier, index.toNat < earlier.length) :
    EachAfter (IndexFits 0) earlier indices := by
  induction indices generalizing earlier with
  | nil => trivial
  | cons index indices ih =>
    have here : index.toNat = earlier.length := dense 0 index rfl
    have all : newAmong 0 earlier = earlier.length := by
      rw [newAmong, filter_eq_self.2 fun k _ => decide_eq_true UInt32.zero_le]
    refine ⟨⟨fun member => ?_, .inr ?_⟩, ih (fun k later found => ?_) fun k member => ?_⟩
    · exact absurd (below index member) (by omega)
    · rw [all, here]
      exact (Nat.zero_add _).symm
    · have next := dense (k + 1) later found
      rw [length_append, length_singleton]
      omega
    · rw [length_append, length_singleton]
      rcases mem_append.1 member with old | new
      · have smaller := below k old
        omega
      · rw [mem_singleton.1 new]
        omega

section Text

variable {p : Program} (formed : p.WellFormed)

theorem blocks_text (p : Program) : List.Forall₂ Block.StandsFor
    (blocks (layout (itemsFrom 1 p.funcs p.code))) p.funcs := by
  rw [blocks_layout]
  exact block?_itemsFrom 1 p.funcs p.code

theorem outside_text (p : Program) :
    SameCode (outside false (layout (itemsFrom 1 p.funcs p.code))) p.code := by
  rw [outside_layout]
  exact code?_itemsFrom 1 p.funcs p.code

theorem sameCode_bodies {bs : List Block} {fs : List Func}
    (stand : List.Forall₂ Block.StandsFor bs fs) :
    SameCode (bs.flatMap Block.body) (fs.flatMap Func.body) := by
  induction stand with
  | nil => rfl
  | cons first rest ih =>
    unfold SameCode at ih ⊢
    rw [flatMap_cons, flatMap_cons, map_append, map_append, first.body, ih]

theorem sameCode_text (p : Program) :
    SameCode ((blocks (layout (itemsFrom 1 p.funcs p.code))).flatMap Block.body ++
      outside false (layout (itemsFrom 1 p.funcs p.code))) p.allCode := by
  have bodies := sameCode_bodies (blocks_text p)
  have main := outside_text p
  unfold SameCode at bodies main ⊢
  rw [Program.allCode, map_append, map_append, bodies, main]

theorem openers_text (p : Program) :
    openers (layout (itemsFrom 1 p.funcs p.code)) = p.funcs.map Func.index := by
  rw [openers_eq]
  have stand := blocks_text p
  generalize blocks (layout (itemsFrom 1 p.funcs p.code)) = bs at stand
  generalize p.funcs = fs at stand
  induction stand with
  | nil => rfl
  | cons first rest ih => rw [map_cons, map_cons, first.index, ih]

include formed

theorem wellBuilt_text : WellBuilt 0 (layout (itemsFrom 1 p.funcs p.code)) where
  alternating := alternating_layout _
  numbered := by
    rw [openers_text]
    refine eachAfter_positions (fun k index found => ?_) fun index member => by cases member
    rw [getElem?_map, Option.map_eq_some_iff] at found
    obtain ⟨f, there, rfl⟩ := found
    rw [formed.indices k f there, length_nil, Nat.zero_add]
  arguments := by
    intro b member
    obtain ⟨f, there, stands⟩ := exists_partner (blocks_text p).flip member
    unfold Block.ArgumentsFit
    rw [stands.paramCount]
    exact stands.body.forall_mem (fun i => Iff.rfl) (formed.arguments f there)
  placed := (outside_text p).forall_mem (fun i => Iff.rfl) formed.placed
  blockLabels := by
    intro b member
    obtain ⟨f, there, stands⟩ := exists_partner (blocks_text p).flip member
    exact stands.body.labelsSound (formed.funcLabels f there)
  codeLabels := (outside_text p).labelsSound formed.codeLabels
  calls := by
    have calls : ∀ i ∈ p.allCode, ∀ index args, i.callTarget? = some (index, args) →
        index < 0 ∨ index ∈ p.funcs.map Func.index := by
      intro i member index args target
      obtain ⟨f, there, rfl⟩ := formed.calls i member index args target
      exact .inr (mem_map_of_mem there)
    rw [openers_text]
    intro i member
    refine (sameCode_text p).forall_mem (fun i => Iff.rfl) calls i ?_
    rw [mem_append, mem_flatMap]
    exact mem_instructionsOf_layout.1 member

theorem programOf_text :
    (programOf (layout (itemsFrom 1 p.funcs p.code))).withoutLines = p.withoutLines := by
  have functions : ((blocks (layout (itemsFrom 1 p.funcs p.code))).map Block.func).map Func.bare =
      p.funcs.map Func.bare := by
    have stand := blocks_text p
    have counts := formed.localCounts
    generalize blocks (layout (itemsFrom 1 p.funcs p.code)) = bs at stand
    generalize p.funcs = fs at stand counts
    induction stand with
    | nil => rfl
    | @cons b f bs fs first rest ih =>
      rw [forall_mem_cons] at counts
      have same : b.func.bare = f.bare := by
        rw [Func.bare, Func.bare, Block.func]
        simp only [first.index, first.paramCount, first.body.slotCount_eq, counts.1.eq_slotCount]
        rw [show b.body.map Instruction.bare = _ from first.body]
      rw [map_cons, map_cons, map_cons, same, ih counts.2]
  have main : (outside false (layout (itemsFrom 1 p.funcs p.code))).map Instruction.bare =
      p.code.map Instruction.bare := outside_text p
  unfold Program.withoutLines programOf
  simp only [functions, main, (sameCode_text p).slotCount_eq, formed.globalCount.eq_slotCount]

theorem written_forms {form : LineForm} (member : form ∈ p.forms) : form.Written := by
  have instruction {code : List Instruction} (shaped : ∀ i ∈ code, i.Shaped)
      (there : form ∈ code.map .instruction) : form.Written := by
    obtain ⟨i, inCode, rfl⟩ := mem_map.1 there
    exact shaped i inCode
  rcases mem_append.1 member with inFunc | inCode
  · obtain ⟨f, there, line⟩ := mem_flatMap.1 inFunc
    rcases mem_cons.1 line with rfl | line
    · trivial
    · rcases mem_append.1 line with inBody | last
      · refine instruction (fun i inside => formed.shaped i ?_) inBody
        exact mem_append_left _ (mem_flatMap.2 ⟨f, there, inside⟩)
      · rw [mem_singleton.1 last]
        trivial
  · exact instruction (fun i inside => formed.shaped i (mem_append_right _ inside)) inCode

theorem reads_text (name : String) :
    Source.Reads ⟨name, p.text⟩ (layout (itemsFrom 1 p.funcs p.code)) := by
  have text : (⟨name, p.text⟩ : Source).text.toList =
      ended ((p.forms.map LineForm.words).map spaced) := by
    rw [map_map]
    exact toList_text_program p
  have words : ∀ ws ∈ p.forms.map LineForm.words, ws ≠ [] ∧ ∀ w ∈ ws, IsWord w := by
    intro ws member
    obtain ⟨form, there, rfl⟩ := mem_map.1 member
    refine ⟨?_, fun w => LineForm.isWord_words⟩
    cases form with
    | empty => exact (written_forms formed there).elim
    | opener index paramCount | closer | instruction i => simp [LineForm.words]
  unfold Source.Reads
  rw [significantLines_written text words, layout_itemsFrom, ← Program.forms, formedFrom,
    zipIdx_map, map_map, forall₂_map_left_iff, forall₂_map_right_iff, forall₂_same]
  rintro ⟨form, n⟩ member
  exact ⟨rfl, LineForm.ofTokens_written (written_forms formed (fst_mem_of_mem_zipIdx member)) n⟩

end Text

/-- The text does not show the numbers of lines. -/
theorem text_withoutLines (p : Program) : p.withoutLines.text = p.text := by
  have inert (code : List Instruction) :
      (code.map Instruction.bare).map Instruction.text = code.map Instruction.text := by
    rw [map_map]
    rfl
  have functions : (p.funcs.map Func.bare).map Func.text = p.funcs.map Func.text := by
    rw [map_map]
    refine map_congr_left fun f _ => ?_
    simp only [Function.comp_apply, Func.text, Func.bare, inert]
  simp only [Program.text, Program.withoutLines, functions, inert]

/-- The text of a well-formed program is accepted and gives the program back, but for the numbers of
lines; so writing that program again gives the same text. -/
theorem text_round_trip (name : String) (p : Program) (formed : p.WellFormed) :
    ∃ q, Program.parse ⟨name, p.text⟩ 0 = .ok q ∧ q.withoutLines = p.withoutLines ∧
      q.text = p.text := by
  refine ⟨programOf (layout (itemsFrom 1 p.funcs p.code)), ?_, programOf_text formed, ?_⟩
  · exact parse_eq_ok_iff.2 ⟨_, reads_text formed name, wellBuilt_text formed, rfl⟩
  · rw [← text_withoutLines, programOf_text formed, text_withoutLines]

/-- A program on no particular lines, with a loop, a call and the least value. -/
def unplaced : Program where
  funcs := [⟨0, 1, 3, [⟨.assign, [.var 2, .arg 0], 0⟩, ⟨.ret, [.lit Int64.minValue], 0⟩], 0⟩]
  code := [⟨.label, [.lit 5], 0⟩, ⟨.call, [.global 1, .lit 0, .lit (-3)], 0⟩,
    ⟨.jumpIf, [.global 1, .lit 5], 0⟩]
  globalCount := 2

theorem wellFormed_unplaced : unplaced.WellFormed where
  indices := by
    rintro (_ | _ | k) f found
    · cases found
      rfl
    · cases found
    · cases found
  shaped := by
    simp only [unplaced, Program.allCode, flatMap_cons, flatMap_nil, append_nil,
      cons_append, nil_append, forall_mem_cons]
    exact ⟨.assign rfl, .ret, .label rfl, .call rfl rfl, .jumpIf rfl, by simp⟩
  arguments := by
    simp [unplaced]
  placed := by
    simp [unplaced, Instruction.Placeable]
  funcLabels := by
    simp only [unplaced, mem_singleton, forall_eq]
    exact ⟨nodup_nil, by simp⟩
  codeLabels := by
    have labels : definedLabels unplaced.code = [5] := rfl
    refine ⟨by simp [labels], ?_⟩
    rw [labels]
    have low : Value.low 5 = 5 := rfl
    simp [unplaced, Instruction.label?, Instruction.operand?, Operand.literal?, low]
  calls := by
    have low : Value.low 0 = 0 := rfl
    simp [unplaced, Program.allCode, Instruction.callTarget?, Instruction.operand?,
      Operand.literal?, low]
  localCounts := by
    have slots : slotsIn Operand.varIndex? [⟨.assign, [.var 2, .arg 0], 0⟩,
      ⟨.ret, [.lit Int64.minValue], 0⟩] = [2] := rfl
    simp only [unplaced, mem_singleton, forall_eq, slots]
    exact .inr ⟨2, by simp, by simp, rfl⟩
  globalCount := by
    have slots : slotsIn Operand.globalIndex? unplaced.allCode = [1, 1] := rfl
    rw [slots]
    exact .inr ⟨1, by simp, by simp, rfl⟩

theorem text_round_trip_unplaced : unplaced.WellFormed ∧
    ∃ q, Program.parse ⟨"unplaced", unplaced.text⟩ 0 = .ok q ∧
      q.withoutLines = unplaced.withoutLines ∧ q.text = unplaced.text :=
  ⟨wellFormed_unplaced, text_round_trip "unplaced" unplaced wellFormed_unplaced⟩

end SlotLang
