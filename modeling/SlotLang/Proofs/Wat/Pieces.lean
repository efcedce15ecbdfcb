import SlotLang.Proofs.Wat.Flattening

/-!
# Bodies piece by piece

The code of a body is cut into pieces: one for each instruction of the program, and the others for the
dispatch loop, which opens all its blocks at once and closes one before each segment (`bodyPieces`).
The pieces make up the body (`flatMap_bodyPieces`), and between any two of them no operands are left
in the innermost level (`walk_body`).
-/

open List

namespace SlotLang.Assembly

open Wat

/-- A stretch of code, and the instruction of the program that it is the code of, if any. -/
abbrev Piece := Option Instruction × List Op

/-- The code of one instruction of the program. -/
def instructionOps (c : BodyContext) (i : Instruction) : List Op :=
  match instructionCode c i with
  | .ok code => codeOps code
  | .error _ => []

theorem instructionOps_of_ok {c : BodyContext} {i : Instruction} {ys : List Instr}
    (made : instructionCode c i = .ok ys) : instructionOps c i = codeOps ys := by
  simp only [instructionOps, made]

def straightPieces (c : BodyContext) (code : List Instruction) : List Piece :=
  code.map fun i => (some i, instructionOps c i)

/-- Opens the loop and the blocks of all segments, the first one innermost, and leaves some of them. -/
def dispatchOps (count : Nat) : List Op :=
  .loop Mark.dispatch.text ::
    ((List.range' 0 count).reverse.map fun k => .block (Mark.segment k).text) ++
      codeOps (selector count)

/-- Closes the innermost level. -/
def closing : Piece :=
  (none, [.finish])

def bodyPieces (p : Program) (b : Body) : List Piece :=
  let c := bodyContext p b.inFunc b.code
  if hasControl b.code then
    (none, dispatchOps (segments b.code).length) ::
      ((segments b.code).flatMap fun segment => closing :: straightPieces c segment) ++ [closing]
  else straightPieces c b.code

/-! ## The pieces make up the body -/

theorem flatMap_straightPieces {c : BodyContext} {code : List Instruction} {xs : List Instr}
    (compiled : sequenceCode c code = .ok xs) :
    (straightPieces c code).flatMap Prod.snd = codeOps xs := by
  obtain ⟨codes, made, rfl⟩ := sequenceCode_ok compiled
  rw [codeOps_flatten, straightPieces, flatMap_map]
  clear compiled
  induction made with
  | nil => rfl
  | cons first _ ih => rw [flatMap_cons, flatMap_cons, ih, instructionOps_of_ok first]

theorem flatMap_segmentPieces {c : BodyContext} {segments : List (List Instruction)}
    {codes : List (List Instr)}
    (compiled : List.Forall₂ (fun segment ys => sequenceCode c segment = .ok ys) segments codes) :
    ((segments.flatMap fun segment => closing :: straightPieces c segment).flatMap Prod.snd) =
      codes.flatMap fun code => .finish :: codeOps code := by
  induction compiled with
  | nil => rfl
  | cons first _ ih =>
    rw [flatMap_cons, flatMap_append, ih, flatMap_cons, flatMap_straightPieces first]
    rfl

theorem codeOps_nestSegments (k : Nat) (inner : List Instr) (codes : List (List Instr)) :
    codeOps (nestSegments k inner codes) =
      ((List.range' k codes.length).reverse.map fun k => .block (Mark.segment k).text) ++
        codeOps inner ++ codes.flatMap fun code => .finish :: codeOps code := by
  induction codes generalizing k inner with
  | nil => simp [nestSegments]
  | cons code rest ih =>
    rw [nestSegments, ih, length_cons, range'_succ]
    simp [codeOps, Instr.ops]

theorem codeOps_dispatchLoop (codes : List (List Instr)) :
    codeOps (dispatchLoop codes) =
      dispatchOps codes.length ++ (codes.flatMap fun code => .finish :: codeOps code) ++ [.finish] := by
  simp [dispatchLoop, codeOps, Instr.ops, codeOps_nestSegments, dispatchOps]

theorem flatMap_bodyPieces {p : Program} {b : Body} {xs : List Instr}
    (compiled : bodyCode p b.inFunc b.code = .ok xs) :
    (bodyPieces p b).flatMap Prod.snd = codeOps xs := by
  rcases bodyCode_cases compiled with ⟨plain, straight⟩ | ⟨control, codes, rfl, segmented⟩
  · rw [bodyPieces, plain, if_neg Bool.false_ne_true, flatMap_straightPieces straight]
  · rw [bodyPieces, control, if_pos rfl, codeOps_dispatchLoop, ← segmented.length_eq]
    rw [flatMap_append, flatMap_cons, flatMap_segmentPieces segmented]
    rfl

/-! ## Between two pieces -/

/-- No operands are left in the innermost level. -/
def settled (levels : List Level) : Bool :=
  levels.head?.any (·.stack.isDone)

/-- Pieces that lead from levels to levels and leave no operands behind. -/
inductive Walk (c : Context) : List Level → List Piece → List Level → Prop
  | nil (levels : List Level) : Walk c levels [] levels
  | cons {levels between after : List Level} {piece : Piece} {rest : List Piece}
      (step : checkAll c levels piece.2 = some between) (empty : settled between = true)
      (walk : Walk c between rest after) : Walk c levels (piece :: rest) after

namespace Walk

variable {c : Context} {levels between after : List Level} {front back : List Piece}

theorem append (first : Walk c levels front between) (second : Walk c between back after) :
    Walk c levels (front ++ back) after := by
  induction first with
  | nil => exact second
  | cons step empty _ ih => exact .cons step empty (ih second)

/-- All pieces together are valid code. -/
theorem checkAll_eq (walk : Walk c levels front after) :
    checkAll c levels (front.flatMap Prod.snd) = some after := by
  induction walk with
  | nil => rfl
  | cons step _ _ ih => rw [flatMap_cons, checkAll_append, step, Option.bind_some, ih]

/-- So are the pieces up to any place, and no operands are left there. -/
theorem settled_between (walk : Walk c levels (front ++ back) after) (start : settled levels = true) :
    ∃ between, checkAll c levels (front.flatMap Prod.snd) = some between ∧ settled between = true := by
  induction front generalizing levels with
  | nil => exact ⟨levels, rfl, start⟩
  | cons piece front ih =>
    cases walk with
    | cons step empty walk =>
      obtain ⟨between, whole, settled⟩ := ih walk empty
      exact ⟨between, by rw [flatMap_cons, checkAll_append, step, Option.bind_some, whole], settled⟩

end Walk

section

variable {c : Context} {d : Declared} (names : Names d c)

include names

theorem walk_straight {context : BodyContext} {code : List Instruction} {l : Option String}
    {u : Bool} {outer : List Level} (enclosed : Enclosed d (⟨l, ⟨[], u⟩⟩ :: outer))
    (each : ∀ i ∈ code, ∃ ys, instructionCode context i = .ok ys ∧ Neutral d ys) :
    ∃ v, Walk c (⟨l, ⟨[], u⟩⟩ :: outer) (straightPieces context code) (⟨l, ⟨[], v⟩⟩ :: outer) := by
  induction code generalizing u with
  | nil => exact ⟨u, .nil _⟩
  | cons i rest ih =>
    rw [forall_mem_cons] at each
    obtain ⟨⟨ys, made, neutral⟩, others⟩ := each
    obtain ⟨w, checked⟩ := neutral u
    obtain ⟨v, walk⟩ := ih (enclosed.top (t := ⟨[], w⟩)) others
    refine ⟨v, .cons ?_ rfl walk⟩
    change checkAll c _ (instructionOps context i) = _
    rw [instructionOps_of_ok made]
    exact checkAll_codeOps ys names enclosed checked

end

/-- The blocks of some segments, the first one innermost. -/
def blockLevels (k count : Nat) : List Level :=
  (List.range' k count).map fun k => { label := some (Mark.segment k).text }

/-- The levels of a dispatch loop before the blocks from some segment on are closed. -/
def dispatchLevels (base : List Level) (k count : Nat) : List Level :=
  blockLevels k count ++ { label := some Mark.dispatch.text } :: base

theorem dispatchLevels_eq (base : List Level) (k count : Nat) :
    ∃ l, dispatchLevels base k count = { label := l } :: (dispatchLevels base k count).tail := by
  cases count with
  | zero => exact ⟨_, rfl⟩
  | succ count => exact ⟨some (Mark.segment k).text, rfl⟩

theorem encloses_dispatchLevels (base : List Level) (k count : Nat) :
    encloses (dispatchLevels base k count) Mark.dispatch.text = true := by
  simp [encloses, dispatchLevels]

theorem checkAll_blocks (c : Context) (levels : List Level) (k count : Nat) :
    checkAll c levels ((List.range' k count).reverse.map fun k => .block (Mark.segment k).text) =
      some (blockLevels k count ++ levels) := by
  induction count generalizing k with
  | zero => rfl
  | succ count ih =>
    rw [range'_succ, reverse_cons, map_append, checkAll_append, ih, Option.bind_some]
    rfl

section

variable {c : Context} {d : Declared} (names : Names d c) {base : List Level}

include names

/-- The dispatch loop opens all its blocks. -/
theorem checkAll_dispatchOps (base : List Level) {count : Nat} (hasPc : d.hasPc = true)
    (positive : 0 < count) :
    ∃ l u, checkAll c base (dispatchOps count) =
      some (⟨l, ⟨[], u⟩⟩ :: (dispatchLevels base 0 count).tail) := by
  let inner : Declared := { d with marks := (List.range' 0 count).map .segment }
  have inNames : Names inner c :=
    ⟨names.globals, names.registers, names.funcs, names.print, names.results⟩
  have neutral : Neutral inner (selector count) := by
    refine neutral_selector hasPc positive fun k small => ?_
    exact mem_map_of_mem (mem_range'_1.2 (by omega))
  obtain ⟨u, checked⟩ := neutral false
  obtain ⟨l, same⟩ := dispatchLevels_eq base 0 count
  have enclosed : Enclosed inner (dispatchLevels base 0 count) := by
    intro m member
    obtain ⟨k, there, rfl⟩ := mem_map.1 member
    refine any_eq_true.2 ⟨{ label := some (Mark.segment k).text }, ?_, by simp⟩
    exact mem_append_left _ (mem_map.2 ⟨k, there, rfl⟩)
  refine ⟨l, u, ?_⟩
  rw [dispatchOps, cons_append, checkAll_cons, Op.check, Option.bind_some, checkAll_append,
    checkAll_blocks, Option.bind_some]
  change checkAll c (dispatchLevels base 0 count) _ = _
  rw [same] at enclosed ⊢
  exact checkAll_codeOps (selector count) inNames enclosed checked

/-- Each segment runs in the level that is innermost once its own block is closed. -/
theorem walk_segments {context : BodyContext} {segments : List (List Instruction)} {k : Nat}
    (marks : d.marks = [.dispatch]) (start : settled base = true)
    (each : ∀ segment ∈ segments, ∀ i ∈ segment,
      ∃ ys, instructionCode context i = .ok ys ∧ Neutral d ys) (l : Option String) (u : Bool) :
    Walk c (⟨l, ⟨[], u⟩⟩ :: (dispatchLevels base k segments.length).tail)
      ((segments.flatMap fun segment => closing :: straightPieces context segment) ++ [closing])
      base := by
  induction segments generalizing k l u with
  | nil =>
    obtain ⟨first, others, rfl⟩ : ∃ first others, base = first :: others := by
      cases base with
      | nil => cases start
      | cons first others => exact ⟨first, others, rfl⟩
    exact .cons rfl start (.nil _)
  | cons segment rest ih =>
    rw [forall_mem_cons] at each
    obtain ⟨inner, same⟩ := dispatchLevels_eq base (k + 1) rest.length
    have enclosed : Enclosed d (dispatchLevels base (k + 1) rest.length) := by
      intro m member
      rw [marks, mem_singleton] at member
      rw [member]
      exact encloses_dispatchLevels base (k + 1) rest.length
    rw [same] at enclosed
    obtain ⟨v, walk⟩ := walk_straight names enclosed each.1
    have closed : checkAll c (⟨l, ⟨[], u⟩⟩ :: dispatchLevels base (k + 1) rest.length) closing.2 =
        some (dispatchLevels base (k + 1) rest.length) := by
      rw [same]
      rfl
    rw [flatMap_cons, cons_append, cons_append, append_assoc]
    refine .cons closed (by rw [same]; rfl) ?_
    rw [same]
    exact walk.append (ih each.2 inner v)

end

section Programs

variable {p : Program} (sound : p.Sound 0) (countable : Countable p) {b : Body} (body : b ∈ p.bodies)
  {xs : List Instr} (compiled : bodyCode p b.inFunc b.code = .ok xs)

include sound countable body compiled

theorem walk_body {c : Context} (names : Names (declaredIn p b) c) :
    ∃ u, Walk c [{}] (bodyPieces p b) [⟨none, ⟨[], u⟩⟩] := by
  have each {marks : List Mark} (looped : hasControl b.code = true → .dispatch ∈ marks) {i : Instruction}
      (member : i ∈ b.code) {ys : List Instr}
      (made : instructionCode (bodyContext p b.inFunc b.code) i = .ok ys) :
      Neutral { declaredIn p b with marks } ys :=
    neutral_instruction (sound.shaped (Program.mem_allCode body member))
      (declares_instruction sound countable body member looped) made
  rcases bodyCode_cases compiled with ⟨plain, straight⟩ | ⟨control, codes, rfl, segmented⟩
  · obtain ⟨codes, made, -⟩ := sequenceCode_ok straight
    rw [bodyPieces, plain, if_neg Bool.false_ne_true]
    refine walk_straight names (fun m member => by cases member) fun i member => ?_
    obtain ⟨ys, -, code⟩ := exists_partner made.flip member
    exact ⟨ys, code, each (by simp [plain]) member code⟩
  · have inNames : Names { declaredIn p b with marks := [.dispatch] } c :=
      ⟨names.globals, names.registers, names.funcs, names.print, names.results⟩
    have positive : 0 < (segments b.code).length := by
      rw [length_segments]
      omega
    obtain ⟨l, u, opened⟩ := checkAll_dispatchOps inNames [{}] control positive
    rw [bodyPieces, control, if_pos rfl]
    refine ⟨false, .cons opened rfl ?_⟩
    refine walk_segments inNames rfl rfl (fun segment there i inside => ?_) l u
    have member : i ∈ b.code := segments_flatten b.code ▸ mem_flatten.2 ⟨segment, there, inside⟩
    obtain ⟨zs, -, sequence⟩ := exists_partner segmented.flip there
    obtain ⟨ws, made, -⟩ := sequenceCode_ok sequence
    obtain ⟨ys, -, code⟩ := exists_partner made.flip inside
    exact ⟨ys, code, each (fun _ => mem_cons_self) member code⟩

end Programs

end SlotLang.Assembly
