import SlotLang.Proofs.Assembly.Validity
import SlotLang.Proofs.Counts

/-!
# Emitted code keeps the stack

The code of every instruction finds the stack empty and leaves it empty (`Neutral`), if what it refers
to is declared. The dispatch loop is put together from such pieces, so the whole body of a function
leaves nothing but its result. Hence the module of a program that was built is valid, as long as its
slots and segments can be counted.
-/

open List

namespace SlotLang.Assembly

variable {d : Declared} {s : StackType} {xs ys : List Instr} {o a b dest : Operand}
  {c : BodyContext} {code : List Instruction} {m : Module} {p : Program} {codes : List (List Instr)}
  {k : Nat} {main : List Instr}

/-! ## Checking piece by piece -/

theorem checkCode_nil (d : Declared) (s : StackType) : checkCode d s [] = some s := by
  rw [checkCode]

theorem checkCode_cons_eq (d : Declared) (s : StackType) (i : Instr) (rest : List Instr) :
    checkCode d s (i :: rest) = (i.check d s).bind (checkCode d · rest) := by
  rw [checkCode]
  cases i.check d s <;> rfl

theorem checkCode_append_eq (d : Declared) (s : StackType) (xs ys : List Instr) :
    checkCode d s (xs ++ ys) = (checkCode d s xs).bind (checkCode d · ys) := by
  induction xs generalizing s with
  | nil => rw [nil_append, checkCode_nil, Option.bind_some]
  | cons x xs ih =>
    rw [cons_append, checkCode_cons_eq, checkCode_cons_eq, Option.bind_assoc]
    exact congrArg _ (funext fun s => ih s)

@[simp] theorem pop_push (t : ValueType) (s : StackType) : (s.push t).pop t = some s := by
  simp [StackType.push, StackType.pop]

theorem check_read (covers : d.Covers o) (s : StackType) :
    (readCode o).check d s = some (s.push .i64) := by
  cases o with
  | global n | var n | arg n =>
    have declared := covers
    simp only [Declared.Covers] at declared
    simp [readCode, Instr.check, Declared.registerType?, declared]
  | lit v => rfl

theorem check_write (covers : d.Covers o) (s : StackType) :
    (writeCode o).check d (s.push .i64) = some s := by
  cases o with
  | global n | var n | arg n =>
    have declared := covers
    simp only [Declared.Covers] at declared
    simp [writeCode, Instr.check, Declared.registerType?, declared]
  | lit v => rfl

theorem check_truth (covers : d.Covers o) (s : StackType) :
    checkCode d s (truthCode o) = some (s.push .i32) := by
  simp [truthCode, checkCode_cons_eq, checkCode_nil, check_read covers, Instr.check]

theorem check_binary (op : BinaryOp) (left : d.Covers a) (right : d.Covers b) (s : StackType) :
    checkCode d s (binaryCode op a b) = some (s.push .i64) := by
  cases op <;>
    simp [binaryCode, checkCode_cons_eq, checkCode_append_eq, checkCode_nil, check_read left,
      check_read right, check_truth left, check_truth right, Instr.check]

/-- Arguments are pushed one by one and popped by the call. -/
theorem check_args {args : List Operand} (covers : ∀ o ∈ args, d.Covers o) (s : StackType) :
    ∃ t, checkCode d s (args.map readCode) = some t ∧ t.popMany .i64 args.length = some s := by
  have popped (n : Nat) (s : StackType) :
      (⟨List.replicate n .i64 ++ s.known, s.unreachable⟩ : StackType).popMany .i64 n = some s := by
    induction n with
    | zero => rfl
    | succ n ih => simpa [StackType.popMany, StackType.pop, replicate_succ] using ih
  refine ⟨⟨List.replicate args.length .i64 ++ s.known, s.unreachable⟩, ?_, popped _ s⟩
  induction args generalizing s with
  | nil => exact checkCode_nil d s
  | cons o args ih =>
    rw [forall_mem_cons] at covers
    rw [map_cons, checkCode_cons_eq, check_read covers.1, Option.bind_some, ih covers.2]
    simp [StackType.push, replicate_succ', append_assoc]

/-! ## Code that leaves the stack empty -/

/-- Code that finds the stack empty and leaves it empty, whether or not it is ever reached. -/
def Neutral (d : Declared) (code : List Instr) : Prop :=
  ∀ u, ∃ u', checkCode d ⟨[], u⟩ code = some ⟨[], u'⟩

namespace Neutral

theorem nil : Neutral d [] :=
  fun u => ⟨u, checkCode_nil d _⟩

theorem append (first : Neutral d xs) (second : Neutral d ys) : Neutral d (xs ++ ys) := by
  intro u
  obtain ⟨v, before⟩ := first u
  obtain ⟨w, after⟩ := second v
  exact ⟨w, by rw [checkCode_append_eq, before, Option.bind_some, after]⟩

theorem flatten {codes : List (List Instr)} (each : ∀ code ∈ codes, Neutral d code) :
    Neutral d codes.flatten := by
  induction codes with
  | nil => exact nil
  | cons code codes ih =>
    rw [forall_mem_cons] at each
    exact each.1.append (ih each.2)

theorem of_same (same : ∀ s, checkCode d s xs = some s) : Neutral d xs :=
  fun u => ⟨u, same _⟩

theorem enclosed {m : Mark} (inner : Neutral (d.inside m) xs) :
    Neutral d [.block m xs] ∧ Neutral d [.loop m xs] := by
  obtain ⟨u, checked⟩ := inner false
  have checked : checkCode (d.inside m) {} xs = some ⟨[], u⟩ := checked
  constructor <;> refine of_same fun s => ?_ <;>
    simp [checkCode_cons_eq, checkCode_nil, Instr.check, checked, StackType.isDone]

end Neutral

/-! ## The code of an instruction -/

/-- What an instruction refers to is declared: its slots, its callee, and for jumps the dispatch loop
with numbers for all its segments. -/
structure Declares (d : Declared) (c : BodyContext) (i : Instruction) : Prop where
  covers : ∀ o ∈ i.operands, d.Covers o
  result : c.inFunc = true → d.hasResult = true
  callee : ∀ index f, c.program.func? index = some f → d.funcs.lookup index = some f.paramCount
  jumps : i.opcode = .jump ∨ i.opcode = .jumpIf → d.hasPc = true ∧ .dispatch ∈ d.marks
  segments : ∀ label k, c.table.lookup label = some k → k < 0x100000000

theorem check_jump (hasPc : d.hasPc = true) (looped : .dispatch ∈ d.marks) (small : k < 0x100000000)
    (s : StackType) : checkCode d s [.index k, .set .pc, .br .dispatch] = some .never := by
  simp [checkCode_cons_eq, checkCode_nil, Instr.check, Declared.registerType?, hasPc, looped, small]

theorem neutral_instruction {i : Instruction} (shaped : i.Shaped) (declares : Declares d c i)
    (compiled : instructionCode c i = .ok xs) : Neutral d xs := by
  have covers := declares.covers
  cases shaped with
  | @assign dest a =>
    cases compiled
    refine .of_same fun s => ?_
    simp [checkCode_cons_eq, checkCode_nil, check_read (covers a (by simp)),
      check_write (covers dest (by simp))]
  | @binary op dest a b =>
    cases compiled
    refine .of_same fun s => ?_
    simp [checkCode_append_eq, checkCode_cons_eq, checkCode_nil,
      check_binary op (covers a (by simp)) (covers b (by simp)), check_write (covers dest (by simp))]
  | @not dest a =>
    cases compiled
    refine .of_same fun s => ?_
    simp [checkCode_cons_eq, checkCode_nil, check_read (covers a (by simp)), Instr.check,
      check_write (covers dest (by simp))]
  | label =>
    cases compiled
    refine .of_same fun s => ?_
    simp [Instruction.label?, Instruction.operand?, Operand.literal?, checkCode_cons_eq,
      checkCode_nil, Instr.check]
  | jump =>
    obtain ⟨hasPc, looped⟩ := declares.jumps (.inl rfl)
    obtain ⟨k, found, rfl⟩ := jumpCode_ok rfl compiled
    intro u
    exact ⟨true, check_jump hasPc looped (declares.segments _ k found) _⟩
  | @jumpIf a v line =>
    obtain ⟨hasPc, looped⟩ := declares.jumps (.inr rfl)
    obtain ⟨code, jump, whole⟩ := bind_eq_ok.1 compiled
    cases whole
    obtain ⟨k, found, rfl⟩ := jumpCode_ok (i := ⟨.jumpIf, [a, .lit v], line⟩) rfl jump
    have inner := check_jump hasPc looped (declares.segments _ k found) {}
    refine .of_same fun s => ?_
    simp [checkCode_append_eq, check_truth (covers a (by simp)), checkCode_cons_eq d (s.push .i32),
      checkCode_nil, Instr.check, inner, StackType.isDone, StackType.never]
  | @call dest v args =>
    obtain ⟨f, ⟨found, count⟩, rfl⟩ := callCode_ok compiled
    refine .of_same fun s => ?_
    have readable : ∀ o ∈ args, d.Covers o := fun o member => covers o (by simp [member])
    obtain ⟨t, pushed, popped⟩ := check_args readable s
    simp [checkCode_append_eq, pushed, checkCode_cons_eq, checkCode_nil, Instr.check,
      declares.callee _ f found, count, popped, check_write (covers dest (by simp))]
  | @ret a =>
    obtain ⟨inside, rfl⟩ := retCode_ok compiled
    intro u
    refine ⟨true, ?_⟩
    simp [checkCode_cons_eq, checkCode_nil, check_read (covers a (by simp)), Instr.check,
      declares.result inside, StackType.never]
  | @output a =>
    cases compiled
    refine .of_same fun s => ?_
    simp [checkCode_cons_eq, checkCode_nil, check_read (covers a (by simp)), Instr.check]

/-! ## The dispatch loop -/

/-- The selector leaves some block, and so never goes on. -/
theorem neutral_selector {count : Nat} (hasPc : d.hasPc = true) (some : 0 < count)
    (marks : ∀ k < count, .segment k ∈ d.marks) : Neutral d (selector count) := by
  intro u
  refine ⟨true, ?_⟩
  simpa [selector, checkCode_cons_eq, checkCode_nil, Instr.check, Declared.registerType?, hasPc,
    marks 0 some, StackType.never] using marks

/-- Blocks around neutral code, each followed by a neutral segment. -/
theorem neutral_nest {inner : List Instr}
    (inside : Neutral { d with marks := (List.range' k codes.length).map .segment ++ d.marks } inner)
    (each : ∀ code ∈ codes, ∀ marks, .dispatch ∈ marks → Neutral { d with marks } code)
    (looped : .dispatch ∈ d.marks) : Neutral d (nestSegments k inner codes) := by
  induction codes generalizing k inner with
  | nil => exact inside
  | cons code rest ih =>
    rw [forall_mem_cons] at each
    rw [length_cons, range'_succ, map_cons, cons_append] at inside
    let outer : Declared :=
      { d with marks := (List.range' (k + 1) rest.length).map .segment ++ d.marks }
    have block := (Neutral.enclosed (d := outer) (m := .segment k) inside).1
    exact ih (block.append (each.1 outer.marks (mem_append_right _ looped))) each.2

theorem neutral_dispatchLoop (hasPc : d.hasPc = true) (some : codes ≠ [])
    (each : ∀ code ∈ codes, ∀ marks, .dispatch ∈ marks → Neutral { d with marks } code) :
    Neutral d (dispatchLoop codes) := by
  refine (Neutral.enclosed
    (neutral_nest (neutral_selector hasPc (length_pos_iff.2 some) ?_) each ?_)).2
  · intro k small
    refine mem_append_left _ (mem_map_of_mem (mem_range'_1.2 ?_))
    omega
  · exact mem_cons_self

/-! ## Bodies -/

theorem neutral_sequence (each : ∀ i ∈ code, ∀ ys, instructionCode c i = .ok ys → Neutral d ys)
    (compiled : sequenceCode c code = .ok xs) : Neutral d xs := by
  obtain ⟨codes, made, rfl⟩ := sequenceCode_ok compiled
  refine .flatten fun ys member => ?_
  obtain ⟨i, there, here⟩ := exists_partner made member
  exact each i there ys here

/-- What a body may refer to in the module of its program. -/
def declaredIn (p : Program) (b : Body) : Declared where
  globalCount := p.globalCount.toNat
  funcs := p.funcs.map fun f => (f.index, f.paramCount)
  varCount := b.varCount
  argCount := b.argCount
  hasPc := hasControl b.code
  hasResult := b.inFunc

/-- Slots and segments of a program can be counted with 32 bits. -/
structure Countable (p : Program) : Prop where
  globals : ∀ n ∈ slotsIn Operand.globalIndex? p.allCode, n < 0xFFFFFFFF
  vars : ∀ n ∈ slotsIn Operand.varIndex? p.allCode, n < 0xFFFFFFFF
  labels : ∀ b ∈ p.bodies, (definedLabels b.code).length < 0x100000000

section Programs

variable (sound : p.Sound 0) (countable : Countable p) {b : Body} (body : b ∈ p.bodies)
  {i : Instruction}

include sound countable body

/-- The slots of a body are declared. -/
theorem covers_operand (member : i ∈ b.code) (used : o ∈ i.operands) :
    (declaredIn p b).Covers o := by
  have inAll := Program.mem_allCode body member
  cases o with
  | lit v => trivial
  | arg n => exact sound.arg_lt body member used
  | global n =>
    have counted := isCount_slotCount countable.globals
    change n.toNat < p.globalCount.toNat
    rw [sound.globalCount]
    exact counted.lt (mem_slotsIn.2 ⟨i, inAll, _, used, rfl⟩)
  | var n =>
    rcases mem_cons.1 body with rfl | func
    · exact absurd used ((sound.outside i member).2 n).1
    · obtain ⟨f, there, rfl⟩ := mem_map.1 func
      change n.toNat < f.localCount.toNat
      rw [(sound.funcs f there).localCount]
      refine (isCount_slotCount fun k used => ?_).lt (mem_slotsIn.2 ⟨i, member, _, used, rfl⟩)
      obtain ⟨j, inBody, picked⟩ := mem_slotsIn.1 used
      exact countable.vars k (mem_slotsIn.2 ⟨j, Program.mem_allCode body inBody, picked⟩)

theorem declares_instruction (member : i ∈ b.code) {marks : List Mark}
    (looped : hasControl b.code = true → .dispatch ∈ marks) :
    Declares { declaredIn p b with marks } (bodyContext p b.inFunc b.code) i where
  covers o used := covers_operand sound countable body member used
  result inside := inside
  callee index f found := by
    have same : f.index = index := by simpa using find?_some found
    have there : f ∈ p.funcs := mem_of_find?_eq_some found
    have nodup := sound.numbered.nodup
    change (p.funcs.map fun f => (f.index, f.paramCount)).lookup index = some f.paramCount
    generalize p.funcs = fs at there nodup
    induction fs with
    | nil => cases there
    | cons g fs ih =>
      rw [map_cons, nodup_cons] at nodup
      rw [map_cons, lookup_cons_ite]
      rcases mem_cons.1 there with rfl | later
      · rw [if_pos same.symm]
      · rw [if_neg fun here => nodup.1 ?_]
        · exact ih later nodup.2
        · rw [← here, ← same]
          exact mem_map_of_mem later
  jumps jumps :=
    have control := hasControl_of_jumps member jumps
    ⟨control, looped control⟩
  segments label k found := by
    have inTable : (segmentTable b.code).lookup label = some k := by
      unfold bodyContext at found
      split at found
      · exact found
      · cases found
    obtain ⟨position, -, bound, -⟩ := segments_of_label inTable
    rw [length_segments, labelCount_eq fun i inside => sound.shaped (Program.mem_allCode body inside)]
      at bound
    exact Nat.lt_of_lt_of_le bound (countable.labels b body)

theorem neutral_body (compiled : bodyCode p b.inFunc b.code = .ok xs) :
    Neutral (declaredIn p b) xs := by
  have each {marks : List Mark} (looped : hasControl b.code = true → .dispatch ∈ marks) :
      ∀ i ∈ b.code, ∀ ys, instructionCode (bodyContext p b.inFunc b.code) i = .ok ys →
        Neutral { declaredIn p b with marks } ys := fun i member ys made =>
    neutral_instruction (sound.shaped (Program.mem_allCode body member))
      (declares_instruction sound countable body member looped) made
  rcases bodyCode_cases compiled with ⟨plain, straight⟩ | ⟨control, codes, rfl, segmented⟩
  · refine neutral_sequence (each fun control => ?_) straight
    rw [plain] at control
    cases control
  · refine neutral_dispatchLoop control (fun none => ?_) fun code member marks looped => ?_
    · have count := segmented.length_eq
      rw [none, length_segments] at count
      cases count
    · obtain ⟨segment, there, made⟩ := exists_partner segmented member
      refine neutral_sequence (fun i inside => each (fun _ => looped) i ?_) made
      exact segments_flatten b.code ▸ mem_flatten.2 ⟨segment, there, inside⟩

end Programs

theorem Emitted.funcs_eq (emitted : Emitted p m main) :
    (m.funcs.map fun f => (f.index, f.paramCount)) = p.funcs.map fun f => (f.index, f.paramCount) := by
  have funcs := emitted.funcs
  generalize p.funcs = fs at funcs
  generalize m.funcs = ds at funcs
  induction funcs with
  | nil => rfl
  | cons first rest ih =>
    obtain ⟨body, -, rfl⟩ := funcDef_ok first
    exact congrArg _ ih

theorem Emitted.nodup_indices (emitted : Emitted p m main) (sound : p.Sound 0) :
    (m.funcs.map FuncDef.index).Nodup := by
  have indices := congrArg (List.map Prod.fst) emitted.funcs_eq
  simp only [map_map, Function.comp_def] at indices
  rw [show m.funcs.map FuncDef.index = _ from indices]
  exact sound.numbered.nodup

theorem isValid_of_sound (sound : p.Sound 0) (countable : Countable p)
    (compiled : Module.ofProgram p = .ok m) : m.isValid = true := by
  obtain ⟨main, emitted⟩ := emitted_of_ofProgram compiled
  have declared : m.declared = { declaredIn p p.mainBody with hasPc := false } := by
    rw [Module.declared, emitted.funcs_eq, emitted.globalCount]
    rfl
  simp only [Module.isValid, Bool.and_eq_true, all_eq_true, decide_eq_true_eq]
  refine ⟨⟨emitted.nodup_indices sound, fun f member => ?_⟩, fun e member => ?_⟩
  · obtain ⟨f', there, made⟩ := exists_partner emitted.funcs member
    obtain ⟨body, bodyOk, rfl⟩ := funcDef_ok made
    obtain ⟨u, checked⟩ := neutral_body sound countable (Program.toBody_mem there) bodyOk false
    have checked : checkCode (declaredIn p f'.toBody) {} body = some ⟨[], u⟩ := checked
    have same : ({ m.declared with
        varCount := (definitionOf f' body).localCount.toNat
        argCount := (definitionOf f' body).paramCount.toNat
        hasPc := (definitionOf f' body).hasPc
        hasResult := true } : Declared) = declaredIn p f'.toBody := by
      rw [declared]
      rfl
    unfold Module.funcIsValid
    rw [same]
    simp [definitionOf, checkCode_append_eq, checked, checkCode_cons_eq, checkCode_nil, Instr.check,
      StackType.isDone]
  · rw [Option.mem_toList, emitted.entry] at member
    obtain rfl := Option.some.inj member
    obtain ⟨u, checked⟩ := neutral_body sound countable p.mainBody_mem emitted.code false
    have checked : checkCode (declaredIn p p.mainBody) {} main = some ⟨[], u⟩ := checked
    unfold Module.entryIsValid
    rw [declared]
    have same : ({ { declaredIn p p.mainBody with hasPc := false } with
        hasPc := hasControl p.code } : Declared) = declaredIn p p.mainBody := rfl
    simp [same, checked, StackType.isDone]

end SlotLang.Assembly
