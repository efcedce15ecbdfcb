import SlotLang.Proofs.Assembly.Validity
import SlotLang.Proofs.Effects

/-!
# Instructions that have code but cannot run

Emission counts operands, and the machine looks at their sorts. The two differ on jumps: a jump whose
label is a slot counts as a jump to label zero in emitted code, and is malformed when it runs. It is
the only one: in a program that has a module, every other instruction is complete
(`complete_of_instructionCode`), and a run of the program executes no other code.
-/

open List

namespace SlotLang

/-- A jump that is long enough and has a slot in place of its label. -/
structure Instruction.JumpsBySlot (i : Instruction) : Prop where
  jumps : i.opcode = .jump ∨ i.opcode = .jumpIf
  long : i.isWellFormed = true
  unlabelled : i.label? = none

namespace Assembly

section

variable {c : BodyContext} {i : Instruction} {xs : List Instr}

/-- A jump has a segment to go to, which is that of label zero if it has no label. -/
theorem complete_of_jumpCode (jumps : i.opcode = .jump ∨ i.opcode = .jumpIf)
    (long : i.isWellFormed = true) (made : jumpCode c i = .ok xs) :
    i.Complete ∨ i.JumpsBySlot ∧ ∃ k, c.table.lookup 0 = some k := by
  cases label : i.label? with
  | some l =>
    refine .inl ⟨long, fun _ => by simp [label], fun call => ?_⟩
    rcases jumps with jump | jump <;> cases jump.symm.trans call
  | none =>
    unfold jumpCode at made
    rw [label] at made
    cases found : c.table.lookup 0 with
    | some k => exact .inr ⟨⟨jumps, long, label⟩, k, rfl⟩
    | none =>
      simp only [Option.getD_none, found] at made
      cases made

theorem exists_callee_of_callCode {dest : Operand} (made : callCode c i dest = .ok xs) :
    ∃ index args f, i.callTarget? = some (index, args) ∧ c.program.func? index = some f := by
  unfold callCode at made
  split at made
  · cases made
  · next index args target =>
    cases found : c.program.func? index with
    | none =>
      simp only [found] at made
      cases made
    | some f => exact ⟨index, args, f, target, found⟩

/-- An instruction that has code is complete, unless it jumps by a slot. -/
theorem complete_of_instructionCode (made : instructionCode c i = .ok xs) :
    i.Complete ∨ i.JumpsBySlot ∧ ∃ k, c.table.lookup 0 = some k := by
  unfold instructionCode at made
  split at made
  case h_5 opcode operands =>
    exact complete_of_jumpCode (.inl opcode)
      (by simp [Instruction.isWellFormed, opcode, operands, Opcode.signature]) made
  case h_6 opcode operands =>
    obtain ⟨ys, jump, -⟩ := bind_eq_ok.1 made
    exact complete_of_jumpCode (.inr opcode)
      (by simp [Instruction.isWellFormed, opcode, operands, Opcode.signature]) jump
  case h_7 opcode operands =>
    obtain ⟨index, args, f, target, -⟩ := exists_callee_of_callCode made
    exact .inl ⟨by simp [Instruction.isWellFormed, opcode, operands, Opcode.signature],
      by simp [opcode], by simp [target]⟩
  case h_10 | h_11 | h_12 => cases made
  all_goals
    next opcode operands =>
    exact .inl ⟨by simp [Instruction.isWellFormed, opcode, operands, Opcode.signature],
      by simp [opcode], by simp [opcode]⟩

theorem func?_of_instructionCode (made : instructionCode c i = .ok xs) {index : UInt32}
    {args : List Operand} (target : i.callTarget? = some (index, args)) :
    ∃ f, c.program.func? index = some f := by
  have call : i.opcode = .call := by
    unfold Instruction.callTarget? at target
    split at target
    · assumption
    · cases target
  unfold instructionCode at made
  split at made
  case h_7 opcode operands =>
    obtain ⟨index', args', f, target', found⟩ := exists_callee_of_callCode made
    cases target'.symm.trans target
    exact ⟨f, found⟩
  case h_10 | h_11 | h_12 => cases made
  all_goals
    next opcode _ => cases opcode.symm.trans call

end

section

variable {p : Program} {m : Module}

theorem exists_bodyCode (compiled : Module.ofProgram p = .ok m) {b : Body} (body : b ∈ p.bodies) :
    ∃ xs, bodyCode p b.inFunc b.code = .ok xs := by
  obtain ⟨main, emitted⟩ := emitted_of_ofProgram compiled
  rcases mem_cons.1 body with rfl | func
  · exact ⟨main, emitted.code⟩
  · obtain ⟨f, member, rfl⟩ := mem_map.1 func
    obtain ⟨d, -, defined⟩ := exists_partner emitted.funcs.flip member
    obtain ⟨xs, made, -⟩ := funcDef_ok defined
    exact ⟨xs, made⟩

theorem exists_instructionCode (compiled : Module.ofProgram p = .ok m) {b : Body}
    (body : b ∈ p.bodies) {i : Instruction} (member : i ∈ b.code) :
    ∃ xs, instructionCode (bodyContext p b.inFunc b.code) i = .ok xs := by
  obtain ⟨xs, made⟩ := exists_bodyCode compiled body
  have code {c : BodyContext} {code : List Instruction} {ys : List Instr} (member : i ∈ code)
      (made : sequenceCode c code = .ok ys) : ∃ xs, instructionCode c i = .ok xs := by
    obtain ⟨codes, each, -⟩ := sequenceCode_ok made
    obtain ⟨xs, -, here⟩ := exists_partner each.flip member
    exact ⟨xs, here⟩
  rcases bodyCode_cases made with ⟨-, straight⟩ | ⟨-, codes, -, each⟩
  · exact code member straight
  · rw [← segments_flatten b.code] at member
    obtain ⟨segment, cut, inside⟩ := mem_flatten.1 member
    obtain ⟨ys, -, here⟩ := exists_partner each.flip cut
    exact code inside here

end

end Assembly

/-! ## Runs -/

/-- The machine runs code of a program only, and what the program can call is its own. -/
structure Machine.Within (p : Program) (m : Machine) : Prop where
  code : ∀ a ∈ m.top :: m.below, ∃ b ∈ p.bodies, a.routine = .ofCode b.code
  funcs : ∀ index f c, p.func? index = some f → m.env.funcs.get? index = some c → c.func ∈ p.funcs

namespace Machine

variable {limits : Limits} {p : Program} {w : Assembly.Module} {m n : Machine}

theorem within_start (limits : Limits) (e : Environment) (p : Program) :
    (Machine.start limits e p).Within p where
  code := by
    intro a member
    obtain rfl := mem_singleton.1 member
    exact ⟨p.mainBody, p.mainBody_mem, rfl⟩
  funcs := by
    intro index f c known found
    rcases Environment.get?_defineAll_cases found with ⟨g, member, rfl⟩ | ⟨others, -⟩
    · exact member
    · have same : f.index = index := by simpa using find?_some known
      exact absurd same (others f (mem_of_find?_eq_some known))

theorem Within.current (within : m.Within p) {i : Instruction} (current : m.top.current? = some i) :
    ∃ b ∈ p.bodies, i ∈ b.code := by
  obtain ⟨b, body, routine⟩ := within.code m.top mem_cons_self
  rw [Activation.current?, routine] at current
  exact ⟨b, body, mem_of_getElem? (getElem?_toArray.symm.trans current)⟩

/-- A run of a program that has a module does not leave the program. -/
theorem Within.round (within : m.Within p) (compiled : Assembly.Module.ofProgram p = .ok w)
    (goesOn : m.round limits = .running n) : n.Within p := by
  obtain ⟨code, funcs⟩ := within
  cases moves_of_round goesOn with
  | stays current shape place =>
    refine ⟨?_, shape.funcs ▸ funcs⟩
    rw [forall_mem_cons] at code ⊢
    exact ⟨shape.routine ▸ code.1, shape.below ▸ code.2⟩
  | @enters i index operands dest c args current target entered top below same =>
    refine ⟨?_, same ▸ funcs⟩
    obtain ⟨b, body, member⟩ := Within.current ⟨code, funcs⟩ current
    obtain ⟨xs, made⟩ := Assembly.exists_instructionCode compiled body member
    obtain ⟨f, known⟩ := Assembly.func?_of_instructionCode made target
    have own := funcs index f c known (callee_ok entered).1
    rw [top, below, forall_mem_cons, forall_mem_cons]
    rw [forall_mem_cons] at code
    exact ⟨⟨c.func.toBody, Program.toBody_mem own, c.routine_eq⟩, code⟩
  | @leaves slot line caller v entry below top same =>
    refine ⟨?_, same ▸ funcs⟩
    rw [below, forall_mem_cons, forall_mem_cons] at code
    rw [top, forall_mem_cons]
    refine ⟨?_, code.2.2⟩
    obtain ⟨b, body, routine⟩ := code.2.1
    exact ⟨b, body, by cases slot <;> exact routine⟩

end Machine

/-- A run of a program that has a module is malformed only at a jump of the program that has a slot in
place of its label; the module takes it for a jump to label zero, which its body defines. -/
theorem malformed_only_at_slot_jumps {p : Program} {w : Assembly.Module}
    (compiled : Assembly.Module.ofProgram p = .ok w) (limits : Limits) (e : Environment)
    {op : Opcode} {line : Nat}
    (failed : (e.run limits p).result = .error ⟨.malformed op, line⟩) :
    ∃ b ∈ p.bodies, ∃ i ∈ b.code, i.opcode = op ∧ i.line = line ∧ i.JumpsBySlot ∧
      0 ∈ definedLabels b.code := by
  refine Machine.run_induction (P := fun m ending => m.Within p →
    ending.result = .error ⟨.malformed op, line⟩ → ∃ b ∈ p.bodies, ∃ i ∈ b.code, i.opcode = op ∧
      i.line = line ∧ i.JumpsBySlot ∧ 0 ∈ definedLabels b.code) ?_ ?_ ?_
    _ (Machine.within_start limits e p) (map_eq_error.1 failed)
  · intro m n goesOn rest within
    exact rest (within.round compiled goesOn)
  · intro m v n finished within malformed
    cases malformed
  · intro m f n stopped within malformed
    cases malformed
    obtain ⟨i, current, named, same, incomplete⟩ := Machine.current_of_malformed stopped
    obtain ⟨b, body, member⟩ := within.current current
    obtain ⟨xs, made⟩ := Assembly.exists_instructionCode compiled body member
    rcases Assembly.complete_of_instructionCode made with complete | ⟨slot, k, found⟩
    · exact absurd complete incomplete
    · refine ⟨b, body, i, member, named, same, slot, ?_⟩
      by_contra missing
      have nowhere : (Assembly.bodyContext p b.inFunc b.code).table.lookup 0 = none := by
        unfold Assembly.bodyContext
        split
        · exact Assembly.segmentTable_eq_none missing
        · rfl
      cases found.symm.trans nowhere

/-- A jump by a slot, in code that defines label zero. -/
def slotJump : Program where
  code := [⟨.label, [.lit 0], 1⟩, ⟨.jump, [.global 0], 2⟩]
  globalCount := 1

/-- `slotJump` has a module, and its run is malformed. -/
theorem slotJump_malformed :
    (∃ w, Assembly.Module.ofProgram slotJump = .ok w) ∧
      (Environment.run {} {} slotJump).result = .error ⟨.malformed .jump, 2⟩ :=
  ⟨⟨_, rfl⟩, by cbv⟩

theorem malformed_only_at_slot_jumps_slotJump :
    (∃ w, Assembly.Module.ofProgram slotJump = .ok w) ∧
      (Environment.run {} {} slotJump).result = .error ⟨.malformed .jump, 2⟩ ∧
      ∃ b ∈ slotJump.bodies, ∃ i ∈ b.code, i.opcode = .jump ∧ i.line = 2 ∧ i.JumpsBySlot ∧
        0 ∈ definedLabels b.code := by
  have failed : (Environment.run {} {} slotJump).result = .error ⟨.malformed .jump, 2⟩ := by cbv
  exact ⟨⟨_, rfl⟩, failed, malformed_only_at_slot_jumps rfl {} {} failed⟩

end SlotLang
