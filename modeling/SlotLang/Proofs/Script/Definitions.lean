import SlotLang.Proofs.Script.Placement
import SlotLang.Proofs.Subset.Errors
import SlotLang.Proofs.Subset.Programs

/-!
# Names and functions of a script

Read in the subset, a script names slots, `_pc` and its own functions. Statements inside of blocks
neither define functions nor declare globals, so the functions of the script are those it lists, and
no parameter is declared global.
-/

open List

namespace SlotLang.Script

open Subset (namesOf declaredIn firstDefIn? collectDefs)

/-! ## Names -/

/-- A name that stands for a slot, or `_pc`. -/
def IsVariable (name : String) : Prop :=
  name = pcName ∨ ∃ o : Operand, o.isSlot = true ∧ name = o.text

theorem funcName_inj {f g : UInt32} (same : funcName f = funcName g) : f = g :=
  UInt32.toNat_inj.1 (toString_inj ((String.append_right_inj "f").1 same))

theorem funcName_not_mem_builtins (f : UInt32) : funcName f ∉ Subset.builtins := by
  intro member
  have letters : ∀ name ∈ Subset.builtins, name.toList.head? ≠ some 'f' := by decide
  refine letters _ member ?_
  rw [toList_funcName]
  rfl

namespace IsVariable

variable {name : String} (isVariable : IsVariable name)

include isVariable

theorem head : name.toList.head? ∈ [some 'g', some 'v', some 'a', some '_'] := by
  rcases isVariable with rfl | ⟨o, slot, rfl⟩
  · decide
  · rw [Operand.toList_text slot]
    cases o with
    | lit v => cases slot
    | global n | var n | arg n => simp [Operand.letter]

theorem ne_funcName (f : UInt32) : funcName f ≠ name := by
  rintro rfl
  have head := isVariable.head
  simp [toList_funcName] at head

theorem not_mem_builtins : name ∉ Subset.builtins := by
  rcases isVariable with rfl | ⟨o, slot, rfl⟩
  · decide
  · intro member
    have letters : ∀ name ∈ Subset.builtins,
        name.toList.head? ∉ [some 'g', some 'v', some 'a'] := by decide
    refine letters _ member ?_
    rw [Operand.toList_text slot]
    cases o with
    | lit v => cases slot
    | global n | var n | arg n => simp [Operand.letter]

end IsVariable

/-! ## Statements without definitions -/

/-- Statements on slots and `_pc` that neither define functions nor declare globals. -/
structure Plain (stmts : List Subset.Stmt) : Prop where
  names : ∀ name ∈ namesOf stmts, IsVariable name
  noDef : firstDefIn? stmts = none
  noGlobal : declaredIn stmts = []

theorem namesOf_append (xs ys : List Subset.Stmt) : namesOf (xs ++ ys) = namesOf xs ++ namesOf ys := by
  induction xs with
  | nil => rfl
  | cons s xs ih => rw [cons_append, namesOf, namesOf, ih, append_assoc]

theorem declaredIn_append (xs ys : List Subset.Stmt) :
    declaredIn (xs ++ ys) = declaredIn xs ++ declaredIn ys := by
  induction xs with
  | nil => rfl
  | cons s xs ih => rw [cons_append, declaredIn, declaredIn, ih, append_assoc]

theorem firstDefIn?_append (xs ys : List Subset.Stmt) :
    firstDefIn? (xs ++ ys) = (firstDefIn? xs).or (firstDefIn? ys) := by
  induction xs with
  | nil => rfl
  | cons s xs ih => rw [cons_append, firstDefIn?, firstDefIn?, ih, Option.or_assoc]

theorem Plain.append {xs ys : List Subset.Stmt} (first : Plain xs) (second : Plain ys) :
    Plain (xs ++ ys) where
  names := by
    rw [namesOf_append]
    exact forall_mem_append.2 ⟨first.names, second.names⟩
  noDef := by rw [firstDefIn?_append, first.noDef, second.noDef, Option.none_or]
  noGlobal := by rw [declaredIn_append, first.noGlobal, second.noGlobal, append_nil]

theorem plain_nil : Plain [] :=
  ⟨nofun, rfl, rfl⟩

theorem plain_cond {test : Subset.Expr} {body : List Subset.Stmt}
    (names : ∀ name ∈ test.names, IsVariable name) (inside : Plain body) (line : Nat) :
    Plain [.cond test body [] line] where
  names := by
    simp only [namesOf, Subset.Stmt.names, append_nil]
    exact forall_mem_append.2 ⟨names, inside.names⟩
  noDef := by simp [firstDefIn?, Subset.Stmt.firstDef?, inside.noDef]
  noGlobal := by simp [declaredIn, Subset.Stmt.declared, inside.noGlobal]

/-- Without definitions every name that is mentioned can be global. -/
theorem namesOf_of_noDef {stmts : List Subset.Stmt} (none : firstDefIn? stmts = .none) :
    namesOf stmts = stmts.flatMap Subset.ModuleScope.moduleNames := by
  induction stmts with
  | nil => rfl
  | cons s rest ih =>
    rw [firstDefIn?, Option.or_eq_none_iff] at none
    rw [namesOf, flatMap_cons, ih none.2]
    cases s with
    | funcDef name params body line => cases none.1
    | _ => rfl

theorem names_operand (o : Operand) : ∀ name ∈ (operandExpr o).names, IsVariable name := by
  cases o with
  | lit v => exact nofun
  | global n | var n | arg n =>
    intro name member
    exact .inr ⟨_, rfl, mem_singleton.1 member⟩

theorem names_operands (args : List Operand) :
    ∀ name ∈ Subset.namesOfArgs (args.map operandExpr), IsVariable name := by
  induction args with
  | nil => exact nofun
  | cons o args ih => exact forall_mem_append.2 ⟨names_operand o, ih⟩

theorem names_term (t : Term) : ∀ name ∈ t.expr.names, IsVariable name := by
  cases t with
  | operand o => exact names_operand o
  | call f args => exact names_operands args
  | negation a => simpa [Term.expr, Subset.Expr.names, Subset.namesOfArgs] using names_operand a
  | wrapped _ a b | quotient a b | remainder a b | comparison _ a b | both a b | either a b =>
    have each := forall_mem_append.2 ⟨names_operand a, names_operand b⟩
    simpa [Term.expr, nonzeroExpr, Subset.Expr.names, Subset.namesOfArgs] using each

mutual

theorem Stmt.plain_narrowed {s : Stmt} (known : s.IsKnown) (line : Nat) : Plain (s.narrowed line) := by
  cases s with
  | assign dest t =>
    rw [Stmt.narrowed]
    refine ⟨?_, rfl, rfl⟩
    simp only [namesOf, Subset.Stmt.names, append_nil, forall_mem_cons]
    exact ⟨.inr ⟨dest, known.1, rfl⟩, names_term t⟩
  | print o =>
    rw [Stmt.narrowed]
    refine ⟨?_, rfl, rfl⟩
    simpa [namesOf, Subset.Stmt.names, Subset.Expr.names, Subset.namesOfArgs] using names_operand o
  | ret o =>
    rw [Stmt.narrowed]
    refine ⟨?_, rfl, rfl⟩
    simpa [namesOf, Subset.Stmt.names] using names_operand o
  | raise message => cases known
  | note label => exact plain_nil
  | setPc k =>
    rw [Stmt.narrowed]
    exact ⟨fun name member => .inl (mem_singleton.1 member), rfl, rfl⟩
  | again | leave => exact ⟨nofun, rfl, rfl⟩
  | whenNonzero o body =>
    rw [Stmt.narrowed]
    refine plain_cond ?_ (plain_blockNarrowed known.2 (line + 1)) line
    simpa [nonzeroExpr, Subset.Expr.names] using names_operand o
  | whenPc k body =>
    rw [Stmt.narrowed]
    refine plain_cond (fun name member => ?_) (plain_blockNarrowed known.2 (line + 1)) line
    exact .inl (mem_singleton.1 member)
  | forever body =>
    have inside := plain_blockNarrowed known.2 (line + 1)
    rw [Stmt.narrowed]
    refine ⟨?_, ?_, ?_⟩
    · simpa only [namesOf, Subset.Stmt.names, Subset.Expr.names, append_nil, nil_append]
        using inside.names
    · simp [firstDefIn?, Subset.Stmt.firstDef?, inside.noDef]
    · simp [declaredIn, Subset.Stmt.declared, inside.noGlobal]

theorem plain_blockNarrowed {body : List Stmt} (known : AllKnown body) (line : Nat) :
    Plain (blockNarrowed line body) := by
  cases body with
  | nil => exact plain_nil
  | cons s rest =>
    rw [blockNarrowed]
    exact (s.plain_narrowed known.1 line).append (plain_blockNarrowed known.2 (line + s.height))

end

/-! ## Functions -/

section Functions

variable {found : List Subset.Def} {line : Nat} {d : Def} {rest : List Subset.Stmt}

theorem collectDefs_of_noDef {stmts : List Subset.Stmt} (none : firstDefIn? stmts = .none) :
    collectDefs found stmts = .ok found := by
  induction stmts with
  | nil => rfl
  | cons s rest ih =>
    rw [firstDefIn?, Option.or_eq_none_iff] at none
    obtain ⟨here, later⟩ := none
    cases s with
    | funcDef name params body line => cases here
    | cond test body otherwise line =>
      rw [Subset.Stmt.firstDef?, Option.or_eq_none_iff] at here
      rw [collectDefs, Subset.rejectDefs, here.1, Subset.rejectDefs, here.2]
      exact ih later
    | whileLoop test body line =>
      rw [Subset.Stmt.firstDef?] at here
      rw [collectDefs, Subset.rejectDefs, here]
      exact ih later
    | assign | augment | expr | ret | breakLoop | continueLoop | global | pass =>
      rw [collectDefs]
      · exact ih later
      all_goals simp

/-- A function of a script as the subset collects it behind `start` others. -/
def Def.collected (start line : Nat) (d : Def) : Subset.Def where
  index := UInt32.ofNat start
  name := funcName d.index
  params := d.params
  body := d.narrowedBody line
  line := line

/-- The functions of a script as the subset collects them behind `start` others. -/
def defsCollected (start line : Nat) : List Def → List Subset.Def
  | [] => []
  | d :: rest =>
    d.collected start (line + 2) :: defsCollected (start + 1) (line + 2 + d.source.length) rest

theorem Def.plain_stmts (known : AllKnown d.body) (line : Nat) :
    Plain (blockNarrowed line d.stmts) :=
  plain_blockNarrowed (Def.allKnown_stmts known) line

theorem Def.firstDefIn?_narrowedBody (known : AllKnown d.body) (line : Nat) :
    firstDefIn? (d.narrowedBody line) = none := by
  have declared : firstDefIn? (d.declared (line + 1)) = none := by
    unfold Def.declared
    split <;> rfl
  rw [Def.narrowedBody, firstDefIn?_append, declared, (Def.plain_stmts known _).noDef, Option.none_or]

theorem collectDefs_func (known : AllKnown d.body)
    (fresh : ∀ other ∈ found, other.name ≠ funcName d.index) :
    collectDefs found (d.narrowed line :: rest) =
      collectDefs (found ++ [d.collected found.length line]) rest := by
  have own : ¬ Subset.builtins.contains (funcName d.index) = true := by
    simpa using funcName_not_mem_builtins d.index
  have new : ¬ found.any (·.name = funcName d.index) = true := by simpa using fresh
  rw [Def.narrowed, collectDefs, if_neg own, if_neg new, Subset.rejectDefs,
    Def.firstDefIn?_narrowedBody known]
  rfl

/-- Functions with different numbers are collected in order. -/
theorem collectDefs_defs {ds : List Def} (known : ∀ d ∈ ds, AllKnown d.body)
    (nodup : (ds.map Def.index).Nodup)
    (fresh : ∀ other ∈ found, ∀ d ∈ ds, other.name ≠ funcName d.index) :
    collectDefs found (defsNarrowed line ds ++ rest) =
      collectDefs (found ++ defsCollected found.length line ds) rest := by
  induction ds generalizing found line with
  | nil =>
    rw [defsCollected, append_nil]
    rfl
  | cons d ds ih =>
    rw [map_cons, nodup_cons] at nodup
    rw [forall_mem_cons] at known
    rw [defsNarrowed, cons_append,
      collectDefs_func known.1 fun other member => fresh other member d mem_cons_self,
      ih known.2 nodup.2, length_append, append_assoc]
    · rfl
    · intro other member e inRest
      rcases mem_append.1 member with earlier | here
      · exact fresh other earlier e (mem_cons_of_mem _ inRest)
      · obtain rfl := mem_singleton.1 here
        intro same
        exact nodup.1 (funcName_inj same ▸ mem_map_of_mem inRest)

/-- Every collected function is one of the script. -/
theorem forall₂_defsCollected (start line : Nat) (ds : List Def) :
    List.Forall₂ (fun d e => ∃ start line, e = d.collected start line) ds
      (defsCollected start line ds) := by
  induction ds generalizing start line with
  | nil => exact .nil
  | cons d ds ih => exact .cons ⟨_, _, rfl⟩ (ih _ _)

theorem find?_defsCollected (start line : Nat) (ds : List Def) (f : UInt32) :
    ((defsCollected start line ds).find? (·.name = funcName f)).map Subset.Def.params =
      (ds.find? (·.index == f)).map Def.params := by
  induction ds generalizing start line with
  | nil => rfl
  | cons d ds ih =>
    rw [defsCollected, find?_cons, find?_cons]
    by_cases same : d.index = f
    · simp [same, Def.collected]
    · have other : funcName d.index ≠ funcName f := fun names => same (funcName_inj names)
      rw [beq_eq_false_iff_ne.2 same]
      simp [Def.collected, other, ih]

theorem Def.scope_collected (known : AllKnown d.body) (start line : Nat) :
    (d.collected start line).scope = .ok (.ofBody d.params (d.narrowedBody line)) := by
  have declared : declaredIn (d.narrowedBody line) ⊆
      d.globals.map fun n => (Operand.global n).text := by
    rw [Def.narrowedBody, declaredIn_append, (Def.plain_stmts known _).noGlobal, append_nil]
    unfold Def.declared
    split
    · exact nofun
    · simp [declaredIn, Subset.Stmt.declared]
  have apart : d.params.find? (Subset.FuncScope.ofBody d.params (d.narrowedBody line)).declared.contains =
      none := by
    refine find?_eq_none.2 fun name param => ?_
    obtain ⟨n, -, rfl⟩ := mem_map.1 param
    change ¬ (declaredIn (d.narrowedBody line)).eraseDups.contains _ = true
    rw [contains_iff_mem, mem_eraseDups]
    intro member
    obtain ⟨k, -, same⟩ := mem_map.1 (declared member)
    have lists := congrArg String.toList same
    simp [Operand.text] at lists
  simp only [Subset.Def.scope, Def.collected, apart]

end Functions

end SlotLang.Script
