import Mathlib.Data.List.Nodup
import SlotLang.Proofs.Subset.Statements

/-!
# The bodies of a lowered program

What `lower` gives back is taken apart: the functions that it collects are those that the reference
semantics finds by name, and each of them is lowered in its own scope. If slot numbers fit, the module
code and every function make a scene.
-/

open List

namespace SlotLang.Subset

variable {code : Code} {m : ModuleScope} {scope : FuncScope}

/-! ## Functions -/

/-- The function that a definition stands for. -/
def Def.callee (d : Def) : Callee :=
  ⟨d.params, d.body⟩

variable {found defs : List Def} {stmt : Stmt} {body rest : List Stmt} {d : Def} {name : String}

theorem collectDefs_funcDef_ok {params : List String} {line : Nat}
    (collected : collectDefs found (.funcDef name params body line :: rest) = .ok defs) :
    name ∉ builtins ∧ (∀ d ∈ found, d.name ≠ name) ∧
      collectDefs (found ++ [⟨UInt32.ofNat found.length, name, params, body, line⟩]) rest =
        .ok defs := by
  rw [collectDefs] at collected
  by_cases builtin : builtins.contains name = true
  · rw [if_pos builtin] at collected
    cases collected
  by_cases redefined : found.any (·.name = name) = true
  · rw [if_neg builtin, if_pos redefined] at collected
    cases collected
  rw [if_neg builtin, if_neg redefined] at collected
  obtain ⟨-, -, collected⟩ := bind_eq_ok.1 collected
  exact ⟨by simpa using builtin, by simpa using redefined, collected⟩

theorem collectDefs_cons_ok (collected : collectDefs found (stmt :: rest) = .ok defs) :
    (∃ name params body line, stmt = .funcDef name params body line ∧
      collectDefs (found ++ [⟨UInt32.ofNat found.length, name, params, body, line⟩]) rest =
        .ok defs) ∨
      (∀ name params body line, stmt ≠ .funcDef name params body line) ∧
        collectDefs found rest = .ok defs := by
  cases stmt with
  | funcDef name params body line =>
    exact .inl ⟨name, params, body, line, rfl, (collectDefs_funcDef_ok collected).2.2⟩
  | cond test body otherwise line =>
    obtain ⟨-, -, collected⟩ := bind_eq_ok.1 collected
    obtain ⟨-, -, collected⟩ := bind_eq_ok.1 collected
    exact .inr ⟨nofun, collected⟩
  | whileLoop test body line =>
    obtain ⟨-, -, collected⟩ := bind_eq_ok.1 collected
    exact .inr ⟨nofun, collected⟩
  | assign | augment | expr | ret | breakLoop | continueLoop | global | pass =>
    exact .inr ⟨nofun, collected⟩

theorem callee?_cons_of_ne (other : ∀ name params body line, stmt ≠ .funcDef name params body line) :
    callee? name (stmt :: rest) = callee? name rest := by
  cases stmt with
  | funcDef name params body line => exact absurd rfl (other name params body line)
  | _ => rfl

theorem find?_of_collectDefs (collected : collectDefs found body = .ok defs) (name : String) :
    (defs.find? (·.name = name)).map Def.callee =
      ((found.find? (·.name = name)).map Def.callee).or (callee? name body) := by
  induction body generalizing found with
  | nil =>
    cases collected
    exact Option.or_none.symm
  | cons stmt rest ih =>
    rcases collectDefs_cons_ok collected with ⟨other, params, body, line, rfl, next⟩ | ⟨no, next⟩
    · rw [ih next, find?_append]
      change _ = Option.or _ (if other = name then some ⟨params, body⟩ else callee? name rest)
      cases found.find? (·.name = name) with
      | some d => rfl
      | none => by_cases same : other = name <;> simp [same, Def.callee]
    · rw [ih next, callee?_cons_of_ne no]

theorem mem_of_collectDefs (collected : collectDefs found body = .ok defs) (member : d ∈ defs) :
    d ∈ found ∨ .funcDef d.name d.params d.body d.line ∈ body := by
  induction body generalizing found with
  | nil =>
    cases collected
    exact .inl member
  | cons stmt rest ih =>
    rcases collectDefs_cons_ok collected with ⟨name, params, body, line, rfl, next⟩ | ⟨-, next⟩
    · rcases ih next with earlier | later
      · rcases mem_append.1 earlier with earlier | here
        · exact .inl earlier
        · obtain rfl := mem_singleton.1 here
          exact .inr mem_cons_self
      · exact .inr (mem_cons_of_mem _ later)
    · exact (ih next).imp_right (mem_cons_of_mem _)

theorem index_of_collectDefs (collected : collectDefs found body = .ok defs)
    (numbered : found.map Def.index = (List.range found.length).map UInt32.ofNat) :
    defs.map Def.index = (List.range defs.length).map UInt32.ofNat := by
  induction body generalizing found with
  | nil =>
    cases collected
    exact numbered
  | cons stmt rest ih =>
    rcases collectDefs_cons_ok collected with ⟨name, params, body, line, rfl, next⟩ | ⟨-, next⟩
    · refine ih next ?_
      rw [map_append, numbered, length_append, length_singleton, range_succ, map_append]
      rfl
    · exact ih next numbered

theorem nodup_index (collected : collectDefs [] body = .ok defs) (few : defs.length ≤ 0x100000000) :
    (defs.map Def.index).Nodup := by
  rw [index_of_collectDefs collected rfl]
  refine List.Nodup.map_on (fun i iMember j jMember same => ?_) nodup_range
  have iBound := mem_range.1 iMember
  have jBound := mem_range.1 jMember
  have same := congrArg UInt32.toNat same
  simp only [UInt32.toNat_ofNat'] at same
  omega

/-! ## Lowering -/

/-- What a lowered program is made of. -/
structure Lowers (body : List Stmt) (defs : List Def) (p : Program) : Prop where
  collected : collectDefs [] body = .ok defs
  funcs : List.Forall₂
    (fun d f => lowerDef (.ofProgram defs body) d (.ofBody d.params d.body) = .ok f) defs p.funcs
  code : bodyCode (.ofProgram defs body) none body = .ok p.code

theorem scope_ok (made : d.scope = .ok scope) : FuncScope.ofBody d.params d.body = scope := by
  unfold Def.scope at made
  dsimp only at made
  split at made
  · cases made
  · exact Except.ok.inj made

theorem lower_ok {p : Program} (lowered : lower body = .ok p) : ∃ defs, Lowers body defs p := by
  obtain ⟨defs, collected, lowered⟩ := bind_eq_ok.1 lowered
  obtain ⟨scopes, resolved, lowered⟩ := bind_eq_ok.1 lowered
  obtain ⟨funcs, made, lowered⟩ := bind_eq_ok.1 lowered
  obtain ⟨code, main, lowered⟩ := bind_eq_ok.1 lowered
  cases lowered
  refine ⟨defs, collected, ?_, main⟩
  have zipped : ∀ {ds scopes funcs},
      List.Forall₂ (fun d scope => Def.scope d = .ok scope) ds scopes →
      List.Forall₂ (fun pair f => lowerDef (.ofProgram defs body) pair.1 pair.2 = .ok f)
        (ds.zip scopes) funcs →
      List.Forall₂ (fun d f =>
        lowerDef (.ofProgram defs body) d (.ofBody d.params d.body) = .ok f) ds funcs := by
    intro ds scopes funcs resolved made
    induction resolved generalizing funcs with
    | nil =>
      cases made
      exact .nil
    | cons first _ ih =>
      cases made with
      | cons here later => exact .cons (scope_ok first ▸ here) (ih later)
  exact zipped (mapM_eq_ok.1 resolved) (mapM_eq_ok.1 made)

theorem lowerDef_ok {f : Func} (made : lowerDef m d scope = .ok f) :
    ∃ code, bodyCode m (some scope) d.body = .ok code ∧
      f = ⟨d.index, UInt32.ofNat d.params.length, slotCount Operand.varIndex? code, code, d.line⟩ := by
  obtain ⟨code, lowered, made⟩ := bind_eq_ok.1 made
  exact ⟨code, lowered, (Except.ok.inj made).symm⟩

theorem index_of_lowerDef {scope : Def → FuncScope} {fs : List Func}
    (made : List.Forall₂ (fun d f => lowerDef m d (scope d) = .ok f) defs fs) :
    fs.map Func.index = defs.map Def.index := by
  induction made with
  | nil => rfl
  | cons here _ ih =>
    obtain ⟨code, -, rfl⟩ := lowerDef_ok here
    exact congrArg _ ih

theorem bodyCode_ok {scope : Option FuncScope} (made : bodyCode m scope body = .ok code) :
    ∃ k, blockCode m scope none body {} = .ok (code, k) := by
  unfold bodyCode StateT.run' at made
  cases block : blockCode m scope none body {} with
  | error e =>
    rw [block] at made
    cases made
  | ok result =>
    rw [block] at made
    cases made
    exact ⟨result.2, rfl⟩

namespace Lowers

variable {p : Program} (lowers : Lowers body defs p)

include lowers

theorem func_of_mem (member : d ∈ defs) :
    ∃ f ∈ p.funcs, lowerDef (.ofProgram defs body) d (.ofBody d.params d.body) = .ok f := by
  obtain ⟨i, bound, rfl⟩ := mem_iff_getElem.1 member
  have inFuncs : i < p.funcs.length := lowers.funcs.length_eq ▸ bound
  exact ⟨p.funcs[i], getElem_mem inFuncs, List.Forall₂.get lowers.funcs bound inFuncs⟩

end Lowers

/-! ## Numbers that fit -/

/-- The functions of a module. -/
def functionsOf (body : List Stmt) : List Def :=
  (collectDefs [] body).toOption.getD []

def namedGlobals (body : List Stmt) : SlotTable :=
  (ModuleScope.ofProgram (functionsOf body) body).globals

/-- Numbers and counts of slots fit into 32 bits, and so do those of labels and functions. -/
@[mk_iff] structure Fits (body : List Stmt) (p : Program) : Prop where
  globals : (namedGlobals body).Sound
  locals : ∀ d ∈ functionsOf body, (FuncScope.ofBody d.params d.body).locals.Sound
  params : ∀ d ∈ functionsOf body, d.params.length < 0x100000000
  slots : ∀ i ∈ p.allCode, .var lastSlot ∉ i.operands ∧ .global lastSlot ∉ i.operands
  labels : ∀ b ∈ p.bodies, (definedLabels b.code).length ≤ 0x100000000
  funcs : p.funcs.length ≤ 0x100000000

instance (body : List Stmt) (p : Program) : Decidable (Fits body p) :=
  decidable_of_iff' _ (fits_iff body p)

theorem functionsOf_eq (collected : collectDefs [] body = .ok defs) : functionsOf body = defs := by
  rw [functionsOf, collected]
  rfl

theorem lt_slotCount {pick : Operand → Option UInt32} {i : Instruction} {o : Operand} {n : UInt32}
    (member : i ∈ code) (used : o ∈ i.operands) (picked : pick o = some n) (small : n ≠ lastSlot) :
    n.toNat < (slotCount pick code).toNat := by
  have above : n + 1 ≤ slotCount pick code := by
    refine (le_foldl_max _ 0).2 _ (mem_map.2 ⟨n, ?_, rfl⟩)
    exact mem_filterMap.2 ⟨o, mem_flatMap.2 ⟨i, member, used⟩, picked⟩
  have above := UInt32.le_iff_toNat_le.1 above
  have notLast : n.toNat ≠ 0xFFFFFFFF := fun same => small (UInt32.toNat_inj.1 same)
  have bound := n.toNat_lt
  simp only [UInt32.toNat_add, UInt32.toNat_one] at above
  omega

/-! ## Scenes of a program -/

section Scenes

variable {p : Program} (lowers : Lowers body defs p) (fits : Fits body p)

include fits

theorem Fits.labels_nodup {m : ModuleScope} {scope : Option FuncScope} {b : Body} {stmts : List Stmt}
    (member : b ∈ p.bodies) (made : bodyCode m scope stmts = .ok b.code) :
    (definedLabels b.code).Nodup := by
  obtain ⟨k, block⟩ := bodyCode_ok made
  exact (blockCode_laysOut stmts block).nodup (fits.labels b member)

include lowers

theorem Fits.globals_sound : (ModuleScope.ofProgram defs body).globals.Sound := by
  have sound := fits.globals
  rwa [namedGlobals, functionsOf_eq lowers.collected] at sound

/-- The module code. -/
def moduleScene (funcs : SlotMap Callable) : Scene where
  module := .ofProgram defs body
  scope := none
  body := p.mainBody
  isLocal _ := false
  funcs
  depth := 1
  isLocal_eq _ := rfl
  global_lt := SlotTable.slot?_lt (fits.globals_sound lowers)
  global_inj := SlotTable.slot?_inj (fits.globals_sound lowers)
  local_inj := nofun
  arg_lt := nofun
  var_lt := nofun
  inFunc := rfl
  var_count := nofun
  small i member := fits.slots i (Program.mem_allCode p.mainBody_mem member)
  labels := fits.labels_nodup p.mainBody_mem lowers.code

/-- The code of a function at a call depth. -/
def funcScene (member : d ∈ defs) {f : Func} (inFuncs : f ∈ p.funcs)
    (made : lowerDef (.ofProgram defs body) d (.ofBody d.params d.body) = .ok f)
    (funcs : SlotMap Callable) (depth : Nat) : Scene where
  module := .ofProgram defs body
  scope := some (.ofBody d.params d.body)
  body := f.toBody
  isLocal := d.callee.isLocal
  funcs
  depth
  isLocal_eq name := (FuncScope.isSome_slot?_ofBody d.params d.body name).symm
  global_lt := SlotTable.slot?_lt (fits.globals_sound lowers)
  global_inj := SlotTable.slot?_inj (fits.globals_sound lowers)
  local_inj := by
    intro x y o first second
    have known : d ∈ functionsOf body := functionsOf_eq lowers.collected ▸ member
    exact FuncScope.slot?_inj rfl (fits.locals d known) (fits.params d known) first second
  arg_lt := by
    intro name i named
    have known : d ∈ functionsOf body := functionsOf_eq lowers.collected ▸ member
    have few := fits.params d known
    obtain ⟨code, -, rfl⟩ := lowerDef_ok made
    rcases FuncScope.slot?_eq_some named with ⟨j, found, same⟩ | ⟨-, n, -, same⟩ <;> cases same
    have bound := (List.getElem?_eq_some_iff.1 (FuncScope.getElem?_of_idxOf? found)).1
    change (UInt32.ofNat j).toNat < (UInt32.ofNat d.params.length).toNat
    change j < d.params.length at bound
    simp only [UInt32.toNat_ofNat']
    omega
  var_lt := by
    rintro name n s same named
    cases same
    have known : d ∈ functionsOf body := functionsOf_eq lowers.collected ▸ member
    rcases FuncScope.slot?_eq_some named with ⟨j, -, same⟩ | ⟨-, n, found, same⟩ <;> cases same
    exact SlotTable.slot?_lt (fits.locals d known) found
  inFunc := rfl
  var_count _ i iMember n used := by
    have small := (fits.slots i (Program.mem_allCode (Program.toBody_mem inFuncs) iMember)).1
    obtain ⟨code, -, rfl⟩ := lowerDef_ok made
    exact lt_slotCount iMember used rfl fun same => small (same ▸ used)
  small i iMember := fits.slots i (Program.mem_allCode (Program.toBody_mem inFuncs) iMember)
  labels := by
    obtain ⟨code, lowered, rfl⟩ := lowerDef_ok made
    exact fits.labels_nodup (Program.toBody_mem inFuncs) lowered

end Scenes

end SlotLang.Subset
