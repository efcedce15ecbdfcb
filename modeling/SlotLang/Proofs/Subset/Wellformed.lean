import SlotLang.Proofs.Assembly.Emission
import SlotLang.Proofs.Canonical.RoundTrip
import SlotLang.Proofs.Subset.Programs

/-!
# Lowered programs are well formed

The code of every body fits its place and the functions of a program are numbered by position, so a
lowered program could have been written by hand: its text is accepted and gives it back, and it has a
module.
-/

open List

namespace SlotLang.Subset

variable {m : ModuleScope} {scope : Option FuncScope} {code : Code} {body : List Stmt}

/-! ## Bodies -/

theorem globalCount_of_lower {p : Program} (lowered : lower body = .ok p) :
    p.globalCount = slotCount Operand.globalIndex? p.allCode := by
  obtain ⟨defs, -, lowered⟩ := bind_eq_ok.1 lowered
  obtain ⟨scopes, -, lowered⟩ := bind_eq_ok.1 lowered
  obtain ⟨funcs, -, lowered⟩ := bind_eq_ok.1 lowered
  obtain ⟨code, -, lowered⟩ := bind_eq_ok.1 lowered
  cases lowered
  rfl

theorem bodyCode_fine (made : bodyCode m scope body = .ok code) : FineCode m scope [] code := by
  obtain ⟨k, block⟩ := bodyCode_ok made
  exact (blockCode_laysOut body block).fine

theorem labelsSound_of_bodyCode (made : bodyCode m scope body = .ok code)
    (few : (definedLabels code).length ≤ 0x100000000) : LabelsSound code where
  nodup := by
    obtain ⟨k, block⟩ := bodyCode_ok made
    exact (blockCode_laysOut body block).nodup few
  defined i member jumps label target := (bodyCode_fine made i member).jumps jumps label target

/-! ## Programs -/

/-- Numbers of slots, parameters, labels and functions fit into 32 bits, and so do their counts. -/
@[mk_iff] structure Numberable (body : List Stmt) (p : Program) : Prop where
  params : ∀ d ∈ functionsOf body, d.params.length < 0x100000000
  slots : ∀ i ∈ p.allCode, .var lastSlot ∉ i.operands ∧ .global lastSlot ∉ i.operands
  labels : ∀ b ∈ p.bodies, (definedLabels b.code).length ≤ 0x100000000
  funcs : p.funcs.length ≤ 0x100000000

instance (body : List Stmt) (p : Program) : Decidable (Numberable body p) :=
  decidable_of_iff' _ (numberable_iff body p)

theorem lt_of_ne_lastSlot {n : UInt32} (other : n ≠ lastSlot) : n < 0xFFFFFFFF := by
  have bound := n.toNat_lt
  have different : n.toNat ≠ 0xFFFFFFFF := fun same => other (UInt32.toNat_inj.1 same)
  refine UInt32.lt_iff_toNat_lt.2 ?_
  change n.toNat < 0xFFFFFFFF
  omega

section Lowered

variable {defs : List Def} {p : Program} (lowers : Lowers body defs p) {b : Body} {f : Func}
  {i : Instruction}

include lowers

theorem Lowers.body_cases (member : b ∈ p.bodies) :
    ∃ scope stmts, bodyCode (.ofProgram defs body) scope stmts = .ok b.code ∧
      (b = p.mainBody ∧ scope = none ∨
        ∃ d ∈ defs, ∃ f ∈ p.funcs, b = f.toBody ∧ scope = some (.ofBody d.params d.body) ∧
          f.paramCount = UInt32.ofNat d.params.length) := by
  rcases mem_cons.1 member with rfl | func
  · exact ⟨none, body, lowers.code, .inl ⟨rfl, rfl⟩⟩
  · obtain ⟨f, there, rfl⟩ := mem_map.1 func
    obtain ⟨d, known, made⟩ := exists_partner lowers.funcs there
    obtain ⟨code, lowered, rfl⟩ := lowerDef_ok made
    exact ⟨_, d.body, lowered, .inr ⟨d, known, _, there, rfl, rfl, rfl⟩⟩

/-- Every instruction fits the body that it stands in. -/
theorem Lowers.fine (member : i ∈ p.allCode) :
    ∃ scope labels, Fine (.ofProgram defs body) scope labels i := by
  have inBody : ∃ b ∈ p.bodies, i ∈ b.code := by
    rcases mem_append.1 member with inFunc | inMain
    · obtain ⟨f, there, inside⟩ := mem_flatMap.1 inFunc
      exact ⟨f.toBody, Program.toBody_mem there, inside⟩
    · exact ⟨p.mainBody, p.mainBody_mem, inMain⟩
  obtain ⟨b, there, inside⟩ := inBody
  obtain ⟨scope, stmts, made, -⟩ := lowers.body_cases there
  exact ⟨scope, _, bodyCode_fine made i inside⟩

variable (numberable : Numberable body p)

include numberable

theorem Lowers.index_eq {n : Nat} (found : p.funcs[n]? = some f) : f.index.toNat = n := by
  have numbered := (index_of_lowerDef lowers.funcs).trans (index_of_collectDefs lowers.collected rfl)
  have here : (p.funcs.map Func.index)[n]? = some f.index := by
    rw [getElem?_map, found]
    rfl
  have bound := (List.getElem?_eq_some_iff.1 found).1
  have few := numberable.funcs
  rw [numbered, getElem?_map, getElem?_range (lowers.funcs.length_eq ▸ bound)] at here
  rw [← Option.some.inj here, UInt32.toNat_ofNat']
  omega

theorem Lowers.func?_index (member : f ∈ p.funcs) : p.func? f.index = some f := by
  cases found : p.func? f.index with
  | none =>
    have differs := find?_eq_none.1 found f member
    simp at differs
  | some g =>
    have same : g.index = f.index := by simpa using find?_some found
    obtain ⟨n, here⟩ := mem_iff_getElem?.1 member
    obtain ⟨n', there⟩ := mem_iff_getElem?.1 (mem_of_find?_eq_some found)
    have position : n' = n := by
      rw [← lowers.index_eq numberable here, ← lowers.index_eq numberable there, same]
    rw [position, here] at there
    exact there.symm

theorem Lowers.toNat_params {d : Def} (known : d ∈ defs) :
    (UInt32.ofNat d.params.length).toNat = d.params.length := by
  have few := numberable.params d (functionsOf_eq lowers.collected ▸ known)
  rw [UInt32.toNat_ofNat']
  exact Nat.mod_eq_of_lt few

theorem Lowers.callFits (member : i ∈ p.allCode) : i.CallFits p := by
  intro index args target
  obtain ⟨scope, labels, fine⟩ := lowers.fine member
  obtain ⟨d, known, rfl, count⟩ := fine.calls index args target
  obtain ⟨f, there, made⟩ := lowers.func_of_mem known
  obtain ⟨code, -, rfl⟩ := lowerDef_ok made
  exact ⟨_, lowers.func?_index numberable there,
    (lowers.toNat_params numberable known).trans count.symm⟩

theorem Lowers.labelsSound (member : b ∈ p.bodies) : LabelsSound b.code := by
  obtain ⟨scope, stmts, made, -⟩ := lowers.body_cases member
  exact labelsSound_of_bodyCode made (numberable.labels b member)

theorem Lowers.wellFormed (counted : p.globalCount = slotCount Operand.globalIndex? p.allCode) :
    p.WellFormed where
  indices _ _ found := lowers.index_eq numberable found
  shaped i member := by
    obtain ⟨scope, labels, fine⟩ := lowers.fine member
    exact fine.shaped
  arguments f there i inside n used := by
    obtain ⟨d, known, made⟩ := exists_partner lowers.funcs there
    obtain ⟨code, lowered, rfl⟩ := lowerDef_ok made
    obtain ⟨s, same, below⟩ := ((bodyCode_fine lowered i inside).operands _ used).inScope rfl
    cases same
    exact UInt32.lt_iff_toNat_lt.2 (below.trans_eq (lowers.toNat_params numberable known).symm)
  placed i inside := by
    have fine := bodyCode_fine lowers.code i inside
    refine ⟨fun ret => ?_, fun n => ⟨fun var => ?_, fun arg => ?_⟩⟩
    · cases fine.returns ret
    · cases (fine.operands _ var).inScope rfl
    · obtain ⟨s, none, -⟩ := (fine.operands _ arg).inScope rfl
      cases none
  funcLabels f there := lowers.labelsSound numberable (Program.toBody_mem there)
  codeLabels := lowers.labelsSound numberable p.mainBody_mem
  calls i member index args target := by
    obtain ⟨f, found, -⟩ := lowers.callFits numberable member index args target
    exact ⟨f, mem_of_find?_eq_some found, by simpa using find?_some found⟩
  localCounts f there := by
    obtain ⟨d, known, made⟩ := exists_partner lowers.funcs there
    obtain ⟨code, -, rfl⟩ := lowerDef_ok made
    refine isCount_slotCount fun n used => ?_
    obtain ⟨i, inside, o, operand, picked⟩ := mem_slotsIn.1 used
    refine lt_of_ne_lastSlot fun last => (numberable.slots i ?_).1 ?_
    · exact Program.mem_allCode (Program.toBody_mem there) inside
    · cases o <;> cases picked
      exact last ▸ operand
  globalCount := by
    rw [counted]
    refine isCount_slotCount fun n used => ?_
    obtain ⟨i, member, o, operand, picked⟩ := mem_slotsIn.1 used
    refine lt_of_ne_lastSlot fun last => (numberable.slots i member).2 ?_
    cases o <;> cases picked
    exact last ▸ operand

end Lowered

/-- Lowering makes programs that could have been written by hand: such a program is well formed, its
calls fit their callees, its text is accepted and gives it back but for the numbers of lines, and it
has a module. -/
theorem lowered_program_valid (name : String) {body : List Stmt} {p : Program}
    (lowered : lower body = .ok p) (numberable : Numberable body p) :
    p.WellFormed ∧ (∀ i ∈ p.allCode, i.CallFits p) ∧
      (∃ q, Program.parse ⟨name, p.text⟩ 0 = .ok q ∧ q.withoutLines = p.withoutLines) ∧
      ∃ w, Assembly.Module.ofProgram p = .ok w := by
  obtain ⟨defs, lowers⟩ := lower_ok lowered
  have formed := lowers.wellFormed numberable (globalCount_of_lower lowered)
  have fits := fun i => lowers.callFits numberable (i := i)
  refine ⟨formed, fits, ⟨_, ?_, programOf_text formed⟩, ?_⟩
  · exact parse_eq_ok_iff.2 ⟨_, reads_text formed name, wellBuilt_text formed, rfl⟩
  · exact Assembly.exists_ofProgram formed.shaped fits (fun b => lowers.labelsSound numberable)
      fun i inside => (formed.placed i inside).1

/-- Connectives, rounding and a `continue` in nested statements, with a function that is called in a
condition. -/
def halving : List Stmt :=
  [.funcDef "half" ["x"]
    [.cond (.connect .or (.compare .lt (.name "x") (.int 0)) (.name "x"))
      [.assign "y" (.arith .floorDiv (.name "x") (.int 2)) 3, .ret (some (.name "y")) 4]
      [.ret none 6] 2] 1,
    .assign "n" (.int 9) 7,
    .whileLoop (.compare .ge (.name "n") (.int 1))
      [.cond (.connect .and (.arith .floorMod (.name "n") (.int 2)) (.call "half" [.name "n"]))
        [.assign "n" (.call "half" [.name "n"]) 10, .continueLoop 11] [] 9,
        .breakLoop 12] 8,
    .expr (.call "print" [.neg (.name "n")]) 13]

theorem lowered_program_valid_halving :
    ∃ p, lower halving = .ok p ∧ Numberable halving p ∧ p.WellFormed ∧
      (∀ i ∈ p.allCode, i.CallFits p) ∧
      (∃ q, Program.parse ⟨"halving", p.text⟩ 0 = .ok q ∧ q.withoutLines = p.withoutLines) ∧
      ∃ w, Assembly.Module.ofProgram p = .ok w := by
  have accepted : (match lower halving with
      | .ok p => decide (Numberable halving p)
      | .error _ => false) = true := by cbv
  cases lowered : lower halving with
  | error e =>
    rw [lowered] at accepted
    cases accepted
  | ok p =>
    rw [lowered] at accepted
    have numberable : Numberable halving p := of_decide_eq_true accepted
    exact ⟨p, rfl, numberable, lowered_program_valid "halving" lowered numberable⟩

end SlotLang.Subset
