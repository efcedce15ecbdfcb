import SlotLang.Proofs.Bodies
import SlotLang.Proofs.Segments

/-!
# What emission reports

Emission stops at the first instruction that has no code: one that is not of its shape, a return
outside functions, a jump without a target or a call that does not fit its callee. Programs that
were parsed have only calls of this sort, so a wrong number of arguments is all that can keep them
from having a module.
-/

open List

namespace SlotLang

/-- A call finds its callee and gives it as many arguments as it has parameters. -/
def Instruction.CallFits (p : Program) (i : Instruction) : Prop :=
  ∀ index args, i.callTarget? = some (index, args) →
    ∃ f, p.func? index = some f ∧ f.paramCount.toNat = args.length

/-- A call gives so many arguments to a function that expects another number of them. -/
def Instruction.Misfits (p : Program) (i : Instruction) (index expected : UInt32) (found : Nat) :
    Prop :=
  ∃ args f, i.callTarget? = some (index, args) ∧ p.func? index = some f ∧
    f.paramCount = expected ∧ args.length = found ∧ found ≠ expected.toNat

namespace Assembly

theorem exists_segment {code : List Instruction} {label : UInt32}
    (defined : label ∈ definedLabels code) : ∃ k, (segmentTable code).lookup label = some k := by
  obtain ⟨before, i, after, first⟩ := exists_firstDefinition defined
  exact ⟨_, lookup_segmentTable first⟩

/-- What emission has against a call. -/
def callError? (p : Program) (i : Instruction) : Option EmitError :=
  i.callTarget?.bind fun call =>
    (p.func? call.1).elim (some ⟨.undefinedFunc call.1, i.line⟩) fun f =>
      if f.paramCount.toNat = call.2.length then none
      else some ⟨.argumentCount call.1 f.paramCount call.2.length, i.line⟩

theorem callError?_eq_none {p : Program} {i : Instruction} :
    callError? p i = none ↔ i.CallFits p := by
  unfold callError? Instruction.CallFits
  cases i.callTarget? with
  | none => simp
  | some call => cases found : p.func? call.1 <;> grind

section

variable {c : BodyContext} {i : Instruction}

theorem exists_jumpCode {label : UInt32} {k : Nat} (target : i.label? = some label)
    (found : c.table.lookup label = some k) : ∃ xs, jumpCode c i = .ok xs := by
  unfold jumpCode
  rw [target, Option.getD_some]
  simp only [found]
  exact ⟨_, rfl⟩

theorem reports_callCode {dest : Operand} {v : Value} {args : List Operand} {line : Nat} :
    Reports (callError? c.program ⟨.call, dest :: .lit v :: args, line⟩).toList
      (callCode c ⟨.call, dest :: .lit v :: args, line⟩ dest) := by
  have target : (⟨.call, dest :: .lit v :: args, line⟩ : Instruction).callTarget? =
      some (v.low, args) := rfl
  unfold callCode callError?
  rw [target, Option.bind_some]
  cases found : c.program.func? v.low with
  | none => simp [found, Reports]
  | some f => by_cases count : f.paramCount.toNat = args.length <;> simp [found, count, Reports]

theorem reports_instructionCode (c : BodyContext) (shaped : i.Shaped)
    (inside : i.opcode = .ret → c.inFunc = true)
    (targets : i.opcode = .jump ∨ i.opcode = .jumpIf → ∀ label, i.label? = some label →
      ∃ k, c.table.lookup label = some k) :
    Reports (callError? c.program i).toList (instructionCode c i) := by
  cases shaped with
  | assign | binary | not | label | output => exact ⟨_, rfl⟩
  | jump =>
    obtain ⟨k, found⟩ := targets (.inl rfl) _ rfl
    exact exists_jumpCode rfl found
  | @jumpIf a v line =>
    obtain ⟨k, found⟩ := targets (.inr rfl) _ rfl
    obtain ⟨xs, made⟩ := exists_jumpCode (i := ⟨.jumpIf, [a, .lit v], line⟩) rfl found
    exact ⟨_, bind_eq_ok.2 ⟨xs, made, rfl⟩⟩
  | call => exact reports_callCode
  | ret => exact ⟨_, if_pos (inside rfl)⟩

theorem reports_sequenceCode (c : BodyContext) {code : List Instruction}
    (each : ∀ i ∈ code, Reports (callError? c.program i).toList (instructionCode c i)) :
    Reports (code.filterMap (callError? c.program)) (sequenceCode c code) := by
  rw [filterMap_eq_flatMap_toList]
  exact (Reports.mapM each).after fun codes => ⟨_, rfl⟩

end

section

variable {p : Program} {b : Body}

/-- A body whose instructions have their shape and whose jumps have targets. -/
theorem reports_bodyCode (shaped : ∀ i ∈ b.code, i.Shaped) (labels : LabelsSound b.code)
    (returns : ∀ i ∈ b.code, i.opcode = .ret → b.inFunc = true) :
    Reports (b.code.filterMap (callError? p)) (bodyCode p b.inFunc b.code) := by
  unfold bodyCode
  split
  · have each : ∀ i ∈ b.code, Reports (callError? p i).toList
        (instructionCode ⟨p, b.inFunc, segmentTable b.code⟩ i) := by
      intro i member
      refine reports_instructionCode ⟨p, b.inFunc, _⟩ (shaped i member) (returns i member) ?_
      intro jumps label target
      exact exists_segment (labels.defined i member jumps label target)
    have parts : ∀ segment ∈ segments b.code, Reports (segment.filterMap (callError? p))
        (sequenceCode ⟨p, b.inFunc, segmentTable b.code⟩ segment) := by
      intro segment member
      refine reports_sequenceCode ⟨p, b.inFunc, _⟩ fun i there => each i ?_
      exact segments_flatten b.code ▸ mem_flatten.2 ⟨segment, member, there⟩
    have cut : b.code.filterMap (callError? p) =
        (segments b.code).flatMap (List.filterMap (callError? p)) := by
      rw [flatMap_def, ← filterMap_flatten, segments_flatten]
    rw [cut]
    exact (Reports.mapM parts).after fun codes => ⟨_, rfl⟩
  · next plain =>
    refine reports_sequenceCode ⟨p, b.inFunc, []⟩ fun i member => ?_
    refine reports_instructionCode ⟨p, b.inFunc, []⟩ (shaped i member) (returns i member) ?_
    -- Code without control does not jump.
    intro jumps
    exact absurd (hasControl_of_jumps member jumps) plain

/-- Emission meets the bodies in order, functions first, and stops at a call. -/
theorem reports_ofProgram (shaped : ∀ i ∈ p.allCode, i.Shaped)
    (labels : ∀ b ∈ p.bodies, LabelsSound b.code) (returns : ∀ i ∈ p.code, i.opcode ≠ .ret) :
    Reports (p.allCode.filterMap (callError? p)) (Module.ofProgram p) := by
  have each : ∀ b ∈ p.bodies, Reports (b.code.filterMap (callError? p))
      (bodyCode p b.inFunc b.code) := by
    intro b body
    refine reports_bodyCode (fun i member => shaped i (Program.mem_allCode body member))
      (labels b body) ?_
    intro i member ret
    rcases mem_cons.1 body with rfl | func
    · exact absurd ret (returns i member)
    · obtain ⟨f, fMember, rfl⟩ := mem_map.1 func
      rfl
  have defined : ∀ f ∈ p.funcs, Reports (f.body.filterMap (callError? p)) (funcDef p f) :=
    fun f member => (each f.toBody (Program.toBody_mem member)).after fun xs => ⟨_, rfl⟩
  rw [Program.allCode, filterMap_append, filterMap_flatMap]
  exact (Reports.mapM defined).bind fun funcs =>
    (each p.mainBody p.mainBody_mem).after fun main => ⟨_, rfl⟩

theorem exists_ofProgram (shaped : ∀ i ∈ p.allCode, i.Shaped) (fits : ∀ i ∈ p.allCode, i.CallFits p)
    (labels : ∀ b ∈ p.bodies, LabelsSound b.code) (returns : ∀ i ∈ p.code, i.opcode ≠ .ret) :
    ∃ m, Module.ofProgram p = .ok m := by
  have none : p.allCode.filterMap (callError? p) = [] :=
    filterMap_eq_nil_iff.2 fun i member => callError?_eq_none.2 (fits i member)
  have reports := reports_ofProgram shaped labels returns
  rw [none] at reports
  exact reports

end

/-! ## Parsed programs -/

/-- The calls of a parsed program find their callees. -/
theorem callError?_eq_some {p : Program} (sound : p.Sound 0) {i : Instruction}
    (member : i ∈ p.allCode) {e : EmitError} :
    callError? p i = some e ↔ ∃ index expected found, i.Misfits p index expected found ∧
      e = ⟨.argumentCount index expected found, i.line⟩ := by
  unfold callError?
  constructor
  · intro refused
    obtain ⟨⟨index, args⟩, target, refused⟩ := Option.bind_eq_some_iff.1 refused
    obtain ⟨f, -, found, -⟩ := sound.func?_call member target
    rw [found, Option.elim_some] at refused
    split at refused
    · cases refused
    · next count =>
      cases refused
      exact ⟨index, _, _, ⟨args, f, target, found, rfl, rfl, Ne.symm count⟩, rfl⟩
  · rintro ⟨index, expected, count, ⟨args, f, target, found, rfl, rfl, differs⟩, rfl⟩
    rw [target, Option.bind_some, found, Option.elim_some, if_neg (Ne.symm differs)]

theorem callFits_of_ofProgram {p : Program} (sound : p.Sound 0) {m : Module}
    (made : Module.ofProgram p = .ok m) : ∀ i ∈ p.allCode, i.CallFits p := by
  have reports := reports_ofProgram (fun i => sound.shaped) (fun b => sound.labels)
    fun i member => (sound.outside i member).1
  cases errors : p.allCode.filterMap (callError? p) with
  | nil => exact fun i member => callError?_eq_none.1 (filterMap_eq_nil_iff.1 errors i member)
  | cons e rest =>
    rw [errors] at reports
    cases made.symm.trans reports

/-- A parsed program has no module if and only if a call gives its callee a wrong number of
arguments; the error then is that of the first such call, functions in order and then the module
code. -/
theorem emission_stops_at_misfit {source : Source} {p : Program}
    (parsed : Program.parse source 0 = .ok p) :
    ((∃ e, Module.ofProgram p = .error e) ↔
      ∃ i ∈ p.allCode, ∃ index expected found, i.Misfits p index expected found) ∧
    ∀ e, Module.ofProgram p = .error e →
      ∃ before i after index expected found, p.allCode = before ++ i :: after ∧
        (∀ j ∈ before, ∀ index expected found, ¬ j.Misfits p index expected found) ∧
        i.Misfits p index expected found ∧ e = ⟨.argumentCount index expected found, i.line⟩ := by
  have sound := sound_of_parse parsed
  have reports := reports_ofProgram (fun i => sound.shaped) (fun b => sound.labels)
    fun i member => (sound.outside i member).1
  cases errors : p.allCode.filterMap (callError? p) with
  | nil =>
    rw [errors] at reports
    obtain ⟨m, made⟩ := reports
    refine ⟨iff_of_false ?_ ?_, fun e failed => ?_⟩
    · rintro ⟨e, failed⟩
      cases made.symm.trans failed
    · rintro ⟨i, member, index, expected, found, misfits⟩
      have refused := (callError?_eq_some sound member).2 ⟨_, _, _, misfits, rfl⟩
      cases (List.filterMap_eq_nil_iff.1 errors i member).symm.trans refused
    · cases made.symm.trans failed
  | cons first rest =>
    rw [errors] at reports
    have failed : Module.ofProgram p = .error first := reports
    obtain ⟨before, i, after, split, fits, refused, -⟩ := List.filterMap_eq_cons_iff.1 errors
    have member : i ∈ p.allCode := by simp [split]
    obtain ⟨index, expected, found, misfits, rfl⟩ := (callError?_eq_some sound member).1 refused
    refine ⟨iff_of_true ⟨_, failed⟩ ⟨i, member, _, _, _, misfits⟩, fun e failed' => ?_⟩
    refine ⟨before, i, after, _, _, _, split, ?_, misfits, Except.error.inj (failed'.symm.trans failed)⟩
    intro j earlier index expected found misfits
    have inside : j ∈ p.allCode := by simp [split, earlier]
    have refused := (callError?_eq_some sound inside).2 ⟨_, _, _, misfits, rfl⟩
    cases (fits j earlier).symm.trans refused

/-- A function that calls itself with an argument and then without one, and module code that calls
it with two. -/
def shortCalls : Source where
  name := "short"
  text := "# 0 1 \x7b\n$ v0 0 a0\n$ v0 0\n\x7d\n$ g0 0 1 2\n"

/-- What `shortCalls` is parsed to. -/
def shortCallsProgram : Program where
  code := [⟨.call, [.global 0, .lit 0, .lit 1, .lit 2], 5⟩]
  funcs := [{ index := 0, paramCount := 1, localCount := 1, line := 1,
              body := [⟨.call, [.var 0, .lit 0, .arg 0], 2⟩, ⟨.call, [.var 0, .lit 0], 3⟩] }]
  globalCount := 1

/-- The error is that of the second call, which is the first without its argument. -/
theorem emission_stops_at_misfit_shortCalls :
    Program.parse shortCalls 0 = .ok shortCallsProgram ∧
    ∃ e, Module.ofProgram shortCallsProgram = .error e ∧ e = ⟨.argumentCount 0 1 0, 3⟩ := by
  have parsed : Program.parse shortCalls 0 = .ok shortCallsProgram := by cbv
  refine ⟨parsed, ?_⟩
  have misfits : Instruction.Misfits shortCallsProgram ⟨.call, [.var 0, .lit 0], 3⟩ 0 1 0 :=
    ⟨[], _, rfl, rfl, rfl, rfl, by decide⟩
  obtain ⟨e, failed⟩ := (emission_stops_at_misfit parsed).1.2 ⟨_, by decide, _, _, _, misfits⟩
  exact ⟨e, failed, Except.error.inj (failed.symm.trans (by cbv))⟩

end Assembly

end SlotLang
