import SlotLang.Proofs.Script.Narrowing

/-!
# Statements in their places

In the script of a program that was parsed no statement raises an error, only functions return, only
loops are left or started anew, and `_pc` stays below the number of segments. So the text of such a
script can be read back.
-/

open List

namespace SlotLang.Script

variable {code : List Instruction} {xs : List Stmt}

/-! ## Places -/

mutual

/-- A statement that may stand in a body of `count` segments, in a function or outside, in the loop
or outside. -/
def Stmt.IsPlaced (inFunc looped : Bool) (count : Nat) : Stmt → Prop
  | .assign dest t => dest.isSlot = true ∧ t.IsKnown
  | .print _ | .note _ => True
  | .ret _ => inFunc = true
  | .raise _ => False
  | .setPc k => k < count
  | .again | .leave => looped = true
  | .whenNonzero _ body => body.all Stmt.isNote = false ∧ AllPlaced inFunc looped count body
  | .whenPc k body =>
    k < count ∧ body.all Stmt.isNote = false ∧ AllPlaced inFunc looped count body
  | .forever body => body.all Stmt.isNote = false ∧ AllPlaced inFunc true count body

/-- Statements each of which may stand in a body. -/
def AllPlaced (inFunc looped : Bool) (count : Nat) : List Stmt → Prop
  | [] => True
  | s :: rest => s.IsPlaced inFunc looped count ∧ AllPlaced inFunc looped count rest

end

variable {inFunc looped : Bool} {count : Nat}

theorem allPlaced_append {ys : List Stmt} : AllPlaced inFunc looped count (xs ++ ys) ↔
      AllPlaced inFunc looped count xs ∧ AllPlaced inFunc looped count ys := by
  induction xs with
  | nil => simp [AllPlaced]
  | cons x xs ih => simp [AllPlaced, ih, and_assoc]

theorem allPlaced_of_forall (placed : ∀ s ∈ xs, s.IsPlaced inFunc looped count) :
    AllPlaced inFunc looped count xs := by
  induction xs with
  | nil => trivial
  | cons x xs ih =>
    rw [forall_mem_cons] at placed
    exact ⟨placed.1, ih placed.2⟩

mutual

/-- Statements in their places are known, and mention only segments that there are. -/
theorem Stmt.IsPlaced.known {looped : Bool} {s : Stmt} (placed : s.IsPlaced inFunc looped count) :
    s.IsKnown ∧ ∀ k ∈ s.segments, k < count := by
  cases s with
  | assign dest t => exact ⟨placed, nofun⟩
  | print | ret | note | again | leave => exact ⟨trivial, nofun⟩
  | raise message => cases placed
  | setPc k =>
    rw [Stmt.segments, forall_mem_singleton]
    exact ⟨trivial, placed⟩
  | whenNonzero o body | forever body =>
    obtain ⟨known, segments⟩ := AllPlaced.known placed.2
    rw [Stmt.segments]
    exact ⟨⟨placed.1, known⟩, segments⟩
  | whenPc k body =>
    obtain ⟨known, segments⟩ := AllPlaced.known placed.2.2
    rw [Stmt.segments, forall_mem_cons]
    exact ⟨⟨placed.2.1, known⟩, placed.1, segments⟩

theorem AllPlaced.known {looped : Bool} {body : List Stmt}
    (placed : AllPlaced inFunc looped count body) :
    AllKnown body ∧ ∀ k ∈ blockSegments body, k < count := by
  cases body with
  | nil => exact ⟨trivial, nofun⟩
  | cons s rest =>
    obtain ⟨here, first⟩ := placed.1.known
    obtain ⟨later, others⟩ := placed.2.known
    rw [blockSegments, forall_mem_append]
    exact ⟨⟨here, later⟩, first, others⟩

end

/-! ## The statements of a body -/

section Bodies

variable {table : List (UInt32 × Nat)} {i : Instruction}

theorem isKnown_ofBinary (op : BinaryOp) (a b : Operand) : (Term.ofBinary op a b).IsKnown := by
  cases op <;> simp [Term.ofBinary, Term.IsKnown]

theorem jumpStmts_eq {label : UInt32} {k : Nat} (target : i.label? = some label)
    (found : table.lookup label = some k) : jumpStmts table i = [.setPc k, .again] := by
  unfold jumpStmts
  rw [target, Option.getD_some]
  simp only [found]

/-- A jump finds the segment of its label, and stands in a loop. -/
def JumpFits (table : List (UInt32 × Nat)) (looped : Bool) (count : Nat) (i : Instruction) : Prop :=
  i.opcode = .jump ∨ i.opcode = .jumpIf →
    looped = true ∧ ∀ label, i.label? = some label → ∃ k, table.lookup label = some k ∧ k < count

theorem placed_instructionStmts (shaped : i.Shaped) (inside : i.opcode = .ret → inFunc = true)
    (jumps : JumpFits table looped count i) :
    AllPlaced inFunc looped count (instructionStmts table inFunc i) := by
  cases shaped with
  | assign slot | not slot | call slot => exact ⟨⟨slot, trivial⟩, trivial⟩
  | binary slot => exact ⟨⟨slot, isKnown_ofBinary _ _ _⟩, trivial⟩
  | label | output => exact ⟨trivial, trivial⟩
  | jump =>
    obtain ⟨inLoop, targets⟩ := jumps (.inl rfl)
    obtain ⟨k, found, bound⟩ := targets _ rfl
    change AllPlaced _ _ _ (jumpStmts table _)
    rw [jumpStmts_eq rfl found]
    exact ⟨bound, inLoop, trivial⟩
  | jumpIf =>
    obtain ⟨inLoop, targets⟩ := jumps (.inr rfl)
    obtain ⟨k, found, bound⟩ := targets _ rfl
    change AllPlaced _ _ _ [.whenNonzero _ (jumpStmts table _)]
    rw [jumpStmts_eq rfl found]
    exact ⟨⟨rfl, bound, inLoop, trivial⟩, trivial⟩
  | ret =>
    obtain rfl := inside rfl
    exact ⟨rfl, trivial⟩

theorem placed_sequenceStmts (shaped : ∀ i ∈ code, i.Shaped)
    (inside : ∀ i ∈ code, i.opcode = .ret → inFunc = true)
    (jumps : ∀ i ∈ code, JumpFits table looped count i) :
    AllPlaced inFunc looped count (sequenceStmts table inFunc code) := by
  induction code with
  | nil => trivial
  | cons i rest ih =>
    rw [forall_mem_cons] at shaped inside jumps
    exact allPlaced_append.2
      ⟨placed_instructionStmts shaped.1 inside.1 jumps.1, ih shaped.2 inside.2 jumps.2⟩

theorem placed_branchesFrom {parts : List (List Stmt)} {k : Nat}
    (placed : ∀ part ∈ parts, AllPlaced inFunc true count part) (bound : k + parts.length ≤ count) :
    AllPlaced inFunc true count (branchesFrom count k parts) := by
  induction parts generalizing k with
  | nil => trivial
  | cons part rest ih =>
    rw [forall_mem_cons] at placed
    rw [length_cons] at bound
    rw [branchesFrom_cons]
    refine ⟨⟨by omega, ?_, allPlaced_append.2 ⟨placed.1, ?_⟩⟩, ih placed.2 (by omega)⟩
    · unfold handOver
      split <;> simp [Stmt.isNote]
    · unfold handOver
      split
      · next next => exact ⟨next, trivial⟩
      · exact ⟨rfl, trivial⟩

end Bodies

theorem exists_segment {label : UInt32} (defined : label ∈ definedLabels code) :
    ∃ k, (segmentOfLabel code).lookup label = some k ∧ k < (segments code).length := by
  obtain ⟨before, i, after, first⟩ := exists_firstDefinition defined
  obtain ⟨k, found, bound, -⟩ := Assembly.segment_of_position first.labelPosition?
  rw [← lookup_segmentOfLabel] at found
  rw [← segments_eq_segments] at bound
  exact ⟨k, found, bound⟩

section Programs

variable {p : Program} (sound : p.Sound 0) {b : Body} (body : b ∈ p.bodies)

include sound body

theorem placed_bodyStmts :
    AllPlaced b.inFunc false (segments b.code).length (bodyStmts b.inFunc b.code) := by
  have shaped (i : Instruction) (member : i ∈ b.code) : i.Shaped :=
    sound.shaped (Program.mem_allCode body member)
  have inside (i : Instruction) (member : i ∈ b.code) : i.opcode = .ret → b.inFunc = true :=
    sound.inFunc_of_ret body member
  cases steered : hasControl b.code with
  | false =>
    rw [bodyStmts_of_straight steered]
    refine placed_sequenceStmts shaped inside fun i member jumps => ?_
    cases steered.symm.trans (hasControl_of_jumps member jumps)
  | true =>
    have nonempty := length_segments_pos b.code
    have size : (parts b.inFunc b.code).length = (segments b.code).length := length_map _
    have placed : ∀ part ∈ parts b.inFunc b.code,
        AllPlaced b.inFunc true (segments b.code).length part := by
      intro part member
      obtain ⟨cut, inCuts, rfl⟩ := mem_map.1 member
      have included (i : Instruction) (inCut : i ∈ cut) : i ∈ b.code :=
        mem_of_mem_segments inCuts inCut
      exact placed_sequenceStmts (fun i inCut => shaped i (included i inCut))
        (fun i inCut => inside i (included i inCut)) fun i inCut jumps => ⟨rfl, fun label target =>
          exists_segment ((sound.labels body).defined i (included i inCut) jumps label target)⟩
    rw [bodyStmts_of_control steered]
    refine ⟨nonempty, ⟨?_, ?_⟩, trivial⟩
    · rw [loopBody]
      cases cuts : parts b.inFunc b.code with
      | nil =>
        rw [cuts, length_nil] at size
        omega
      | cons part rest => rfl
    · rw [loopBody, size]
      exact placed_branchesFrom placed (by omega)

theorem length_segments_lt : (segments b.code).length < 0x8000000000000000 := by
  have few := Assembly.length_segments_le
    (fun i member => sound.shaped (Program.mem_allCode body member)) (sound.labels body)
  rw [segments_eq_segments]
  omega

end Programs

/-! ## Levels of blocks -/

theorem blockLevels_append (xs ys : List Stmt) :
    blockLevels (xs ++ ys) = max (blockLevels xs) (blockLevels ys) := by
  induction xs with
  | nil => simp [blockLevels]
  | cons x xs ih => simp [blockLevels, ih, max_assoc]

theorem blockLevels_le {n : Nat} (each : ∀ s ∈ xs, s.levels ≤ n) : blockLevels xs ≤ n := by
  induction xs with
  | nil => simp [blockLevels]
  | cons x xs ih =>
    rw [forall_mem_cons] at each
    rw [blockLevels]
    exact max_le each.1 (ih each.2)

theorem levels_jumpStmts (table : List (UInt32 × Nat)) (i : Instruction) :
    blockLevels (jumpStmts table i) = 0 := by
  unfold jumpStmts
  cases found : table.lookup (i.label?.getD 0) <;> simp [found, blockLevels, Stmt.levels]

theorem levels_instructionStmts (table : List (UInt32 × Nat)) (inFunc : Bool) {i : Instruction}
    (shaped : i.Shaped) : blockLevels (instructionStmts table inFunc i) ≤ 1 := by
  cases shaped with
  | assign | binary | not | label | call | output => exact Nat.zero_le _
  | jump => exact (levels_jumpStmts table _).le.trans (Nat.zero_le _)
  | jumpIf =>
    change max (blockLevels (jumpStmts table _) + 1) 0 ≤ 1
    rw [levels_jumpStmts]
    decide
  | ret => cases inFunc <;> exact Nat.zero_le _

theorem levels_sequenceStmts (table : List (UInt32 × Nat)) (inFunc : Bool)
    (shaped : ∀ i ∈ code, i.Shaped) : blockLevels (sequenceStmts table inFunc code) ≤ 1 := by
  induction code with
  | nil => exact Nat.zero_le _
  | cons i rest ih =>
    rw [forall_mem_cons] at shaped
    rw [sequenceStmts, flatMap_cons, blockLevels_append]
    exact max_le (levels_instructionStmts table inFunc shaped.1) (ih shaped.2)

theorem levels_branchesFrom {limit k : Nat} {parts : List (List Stmt)}
    (flat : ∀ part ∈ parts, blockLevels part ≤ 1) : blockLevels (branchesFrom limit k parts) ≤ 2 := by
  induction parts generalizing k with
  | nil => exact Nat.zero_le _
  | cons part rest ih =>
    rw [forall_mem_cons] at flat
    have last : blockLevels [handOver limit k] = 0 := by
      unfold handOver
      split <;> rfl
    rw [branchesFrom_cons, blockLevels, Stmt.levels, blockLevels_append, last]
    have first := flat.1
    have later := ih flat.2 (k := k + 1)
    omega

/-- A jump on a condition, in a segment, in the loop. -/
theorem levels_bodyStmts (inFunc : Bool) (shaped : ∀ i ∈ code, i.Shaped) :
    blockLevels (bodyStmts inFunc code) ≤ 3 := by
  cases steered : hasControl code with
  | false =>
    rw [bodyStmts_of_straight steered]
    exact (levels_sequenceStmts [] inFunc shaped).trans (by decide)
  | true =>
    have branches : blockLevels (loopBody inFunc code) ≤ 2 := by
      refine levels_branchesFrom fun part member => ?_
      obtain ⟨cut, inCuts, rfl⟩ := mem_map.1 member
      exact levels_sequenceStmts _ inFunc fun i inCut => shaped i (mem_of_mem_segments inCuts inCut)
    rw [bodyStmts_of_control steered, blockLevels, blockLevels, blockLevels, Stmt.levels, Stmt.levels]
    omega

/-! ## Scripts that can be read -/

theorem Def.levels_stmts (d : Def) : blockLevels d.stmts = blockLevels d.body := by
  have inits : blockLevels ((List.range d.localCount.toNat).map
      fun n => .assign (.var (.ofNat n)) (.operand (.lit 0))) ≤ 0 := by
    refine blockLevels_le fun s member => ?_
    obtain ⟨n, -, rfl⟩ := mem_map.1 member
    exact Nat.le_refl _
  rw [Def.stmts, blockLevels_append, blockLevels_append]
  simp only [blockLevels, Stmt.levels]
  omega

/-- Locals are set and zero is returned in every function. -/
theorem Def.placed_stmts {d : Def} (placed : AllPlaced true false count d.body) :
    AllPlaced true false count d.stmts := by
  refine allPlaced_append.2 ⟨allPlaced_of_forall fun s member => ?_, allPlaced_append.2 ⟨placed, ?_⟩⟩
  · obtain ⟨n, -, rfl⟩ := mem_map.1 member
    exact ⟨rfl, trivial⟩
  · exact ⟨rfl, trivial⟩

variable {p : Program}

theorem readable_ofProgram (sound : p.Sound 0) : (ofProgram p).Readable where
  defs d member := by
    obtain ⟨f, inFuncs, rfl⟩ := mem_map.1 member
    have levels := levels_bodyStmts true (sound.funcs f inFuncs).shaped
    refine ⟨(placed_bodyStmts sound (Program.toBody_mem inFuncs)).known.1, ?_⟩
    rw [Def.levels, Def.levels_stmts]
    exact (Nat.succ_le_succ levels).trans (by decide)
  body := (placed_bodyStmts sound p.mainBody_mem).known.1
  levels := (levels_bodyStmts false sound.code).trans (by decide)

theorem hasSmallSegments_ofProgram (sound : p.Sound 0) : (ofProgram p).HasSmallSegments := by
  have small {b : Body} (body : b ∈ p.bodies) :
      ∀ k ∈ blockSegments (bodyStmts b.inFunc b.code), k < 0x8000000000000000 := fun k member =>
    ((placed_bodyStmts sound body).known.2 k member).trans (length_segments_lt sound body)
  refine ⟨fun d member => ?_, small p.mainBody_mem⟩
  obtain ⟨f, inFuncs, rfl⟩ := mem_map.1 member
  exact small (Program.toBody_mem inFuncs)

end SlotLang.Script
