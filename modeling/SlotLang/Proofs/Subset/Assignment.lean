import SlotLang.Proofs.Subset.Errors
import SlotLang.Proofs.Subset.Numbering

/-!
# Names and their slots

A name stands for the same operand wherever a body uses it, and shares its slot with no other name and
no temporary. The number of a slot follows from the order in which names are first mentioned. In what
order a set of names or of numbers is walked through does not matter.
-/

open List

namespace SlotLang.Subset

open SlotTable

variable {letter : Char} {names : List String} {x : String} {n : UInt32} {j line : Nat}
  {m : ModuleScope} {scope : Option FuncScope} {body : List Stmt} {p : Program}

/-! ## Tables -/

/-- The slots of names, if the first one without a number has a given slot. -/
def SlotTable.above (letter : Char) (names : List String) (first : UInt32) : SlotTable where
  entries := (names.filterMap fun name => (slotNumber? letter name).map (name, ·)) ++
    (unnumbered letter names).zipIdx.map fun entry => (entry.1, first + UInt32.ofNat entry.2)
  next := first + UInt32.ofNat (unnumbered letter names).length

theorem above_of_perm {order : List UInt32} (perm : order.Perm (numbers letter names)) :
    above letter names ((order.map (· + 1)).foldl max 0) = ofNames letter names := by
  have comm : RightCommutative (max : UInt32 → UInt32 → UInt32) :=
    ⟨fun a b c => UInt32.toNat_inj.1 (by simp only [UInt32.toNat_max]; omega)⟩
  rw [(perm.map _).foldl_eq, ← base_eq]
  rfl

theorem slot?_ne_temp (within : Within letter names (j + 1)) :
    (ofNames letter names).slot? x ≠ some ((ofNames letter names).next + UInt32.ofNat j) := by
  intro found
  have free := within ((unnumbered letter names).length + j) (by omega)
  have temp := (keepsApart_ofNames letter names).temps j (by unfold firstFree; omega)
  rw [firstFree] at temp
  have named : Within letter names 0 := fun i bound => within i (by omega)
  rcases toNat_slot named found with ⟨-, below⟩ | ⟨i, bound, -, same⟩ <;> omega

theorem outerNames_of_perm {s : FuncScope} {order : List String} (perm : order.Perm s.declared) :
    FuncScope.outerNames { s with declared := order } body = s.outerNames body := by
  -- Both lists of declared names are sorted, and a set can be sorted in only one way.
  have sorted (xs : List String) : (xs.mergeSort fun a b => decide (a ≤ b)).Pairwise (· ≤ ·) :=
    pairwise_mergeSort' _ xs
  refine congrArg (· ++ _) (Perm.eq_of_pairwise' (sorted _) (sorted _) ?_)
  exact (mergeSort_perm _ _).trans (perm.trans (mergeSort_perm _ _).symm)

/-! ## Bodies -/

/-- How the names of a body get slots of a kind from a table. -/
structure GivesSlots (m : ModuleScope) (scope : Option FuncScope) (slot : UInt32 → Operand)
    (letter : Char) (names : List String) (t : SlotTable) (mentioned : List String) (code : Code) :
    Prop where
  /-- A name that is not a function's stands for the same operand on every line, and has a slot of this
  kind if it is in the table. -/
  steady : ∀ x ∈ mentioned, (∀ d ∈ m.defs, d.name ≠ x) → x ∉ builtins →
    ∃ o, (∀ line, Context.resolve ⟨m, scope, line⟩ x = .ok o) ∧ (x ∈ names ↔ ∃ n, o = slot n)
  injective : Within letter names 0 → ∀ line x y n,
    Context.resolve ⟨m, scope, line⟩ x = .ok (slot n) →
    Context.resolve ⟨m, scope, line⟩ y = .ok (slot n) → x = y
  temps : ∀ j, Within letter names (j + 1) → ∀ line x,
    Context.resolve ⟨m, scope, line⟩ x ≠ .ok (Context.temp ⟨m, scope, line⟩ j)
  canonical : ∀ line x n k, x.toList = letter :: digits n.toNat →
    Context.resolve ⟨m, scope, line⟩ x = .ok (slot k) → k = n
  /-- The highest number is found in any order. -/
  unordered : ∀ order : List UInt32, order.Perm (numbers letter names) →
    t = above letter names ((order.map (· + 1)).foldl max 0)
  /-- The code has no other slots than those of names and temporaries. -/
  slots : ∀ i ∈ code, ∀ o ∈ i.operands, o.isSlot = true → Writable m scope o

theorem givesSlots {slot : UInt32 → Operand} {t : SlotTable} {mentioned : List String} {code : Code}
    (table : t = ofNames letter names)
    (found : ∀ {line x n}, Context.resolve ⟨m, scope, line⟩ x = .ok (slot n) → t.slot? x = some n)
    (kind : ∀ {x o}, x ∈ names → Context.resolve ⟨m, scope, 0⟩ x = .ok o → ∃ n, o = slot n)
    (temp : ∀ line j, Context.temp ⟨m, scope, line⟩ j = slot (t.next + UInt32.ofNat j))
    (resolves : ∀ x ∈ mentioned, (∀ d ∈ m.defs, d.name ≠ x) → x ∉ builtins →
      Context.nameErrors ⟨m, scope, 0⟩ x = [])
    (made : bodyCode m scope body = .ok code) :
    GivesSlots m scope slot letter names t mentioned code := by
  subst table
  have named {line x n} (resolved : Context.resolve ⟨m, scope, line⟩ x = .ok (slot n)) : x ∈ names :=
    isSome_slot?_ofNames.1 (by rw [found resolved]; rfl)
  constructor
  case steady =>
    intro x member value own
    have reports := resolve_reports ⟨m, scope, 0⟩ x
    rw [resolves x member value own] at reports
    obtain ⟨o, resolved⟩ := reports
    refine ⟨o, fun line => resolve_eq_ok.2 (resolve_eq_ok.1 resolved :), ?_⟩
    exact ⟨fun listed => kind listed resolved, by rintro ⟨n, rfl⟩; exact named resolved⟩
  case injective =>
    intro within line x y n first second
    exact slot?_inj_of_within within (found first) (found second)
  case temps =>
    intro j within line x resolved
    rw [temp] at resolved
    exact slot?_ne_temp within (found resolved)
  case canonical =>
    intro line x n k spelled resolved
    have own := (keepsApart_ofNames letter names).numbered x (named resolved) n
      (slotNumber?_eq_some.2 spelled)
    exact Option.some.inj ((found resolved).symm.trans own)
  case unordered => exact fun order perm => (above_of_perm perm).symm
  case slots =>
    intro i member o operand isSlot
    exact ((bodyCode_fine made i member).operands o operand).resolve_left (by simp [isSlot])

theorem slot?_of_resolve_global (resolved : Context.resolve ⟨m, scope, line⟩ x = .ok (.global n)) :
    m.globals.slot? x = some n := by
  rcases resolve_cases resolved with inside | ⟨-, k, found, same⟩
  · obtain ⟨s, rfl, slot⟩ := Option.bind_eq_some_iff.1 inside
    rcases FuncScope.slot?_eq_some slot with ⟨i, -, same⟩ | ⟨-, k, -, same⟩ <;> cases same
  · cases same
    exact found

theorem slot?_of_resolve_var {s : FuncScope}
    (resolved : Context.resolve ⟨m, some s, line⟩ x = .ok (.var n)) : s.locals.slot? x = some n := by
  rcases resolve_cases resolved with inside | ⟨-, k, -, same⟩
  · rcases FuncScope.slot?_eq_some inside with ⟨i, -, same⟩ | ⟨-, k, found, same⟩ <;> cases same
    exact found
  · cases same

theorem exists_var_of_localNames {d : Def} {o : Operand} (member : x ∈ d.localNames)
    (resolved : Context.resolve ⟨m, some (.ofBody d.params d.body), line⟩ x = .ok o) :
    ∃ n, o = .var n := by
  have own : x ∉ d.params ∧ ((FuncScope.ofBody d.params d.body).slot? x).isSome = true := by
    rw [FuncScope.isSome_slot?_ofBody]
    simp_all [Def.localNames, mem_filter, mem_eraseDups, Callee.isLocal]
  rcases resolve_cases resolved with inside | ⟨outside, -⟩
  · rcases FuncScope.slot?_eq_some inside with ⟨i, there, -⟩ | ⟨-, n, -, same⟩
    · exact absurd (mem_of_getElem? (FuncScope.getElem?_of_idxOf? there)) own.1
    · exact ⟨n, same⟩
  · exact absurd own.2 (by rw [show FuncScope.slot? _ x = none from outside]; nofun)

/-! ## Programs -/

/-- Names of a program and their slots. Names that are not local to a function have global slots, also
if only functions mention them; names that a function assigns have local ones. -/
structure KeepsNamesApart (body : List Stmt) (m : ModuleScope) (p : Program) : Prop where
  module : GivesSlots m none .global 'g' (globalNames body) m.globals
    (body.flatMap ModuleScope.moduleNames) p.code
  funcs : List.Forall₂ (fun d f => GivesSlots m (some (.ofBody d.params d.body)) .var 'v'
    d.localNames (FuncScope.ofBody d.params d.body).locals (namesOf d.body) f.body) m.defs p.funcs
  /-- A global name of a function is that of the module. -/
  shared : ∀ scope line x n, Context.resolve ⟨m, scope, line⟩ x = .ok (.global n) →
    Context.resolve ⟨m, none, line⟩ x = .ok (.global n)
  /-- Declared names are walked through in any order. -/
  unordered : ∀ d ∈ m.defs, ∀ order, order.Perm (FuncScope.ofBody d.params d.body).declared →
    FuncScope.outerNames { FuncScope.ofBody d.params d.body with declared := order } d.body =
      (FuncScope.ofBody d.params d.body).outerNames d.body

/-- In a lowered program names have slots of their own, as long as slot numbers fit into 32 bits. -/
theorem names_have_own_slots (lowered : lower body = .ok p) :
    KeepsNamesApart body (.ofProgram (functionsOf body) body) p := by
  obtain ⟨defs, lowers⟩ := lower_ok lowered
  rw [functionsOf_eq lowers.collected]
  constructor
  case module =>
    refine givesSlots ?_ slot?_of_resolve_global ?_ (fun _ _ => rfl) ?_ lowers.code
    · rw [globalNames, functionsOf_eq lowers.collected]
      rfl
    · intro x o _ resolved
      obtain ⟨n, -, same⟩ := ((resolve_cases resolved).resolve_left nofun).2
      exact ⟨n, same⟩
    · exact fun x member value own => nameErrors_eq_nil value own 0 (.inr member)
  case funcs =>
    refine forall₂_iff_get.2 ⟨lowers.funcs.length_eq, fun i known there => ?_⟩
    have member := (mem_of_collectDefs lowers.collected (getElem_mem known)).resolve_left not_mem_nil
    obtain ⟨code, made, same⟩ := lowerDef_ok (lowers.funcs.get known there)
    rw [same]
    refine givesSlots rfl slot?_of_resolve_var exists_var_of_localNames (fun _ _ => rfl) ?_ made
    exact fun x mentioned value own => nameErrors_eq_nil_of_func value own 0 member mentioned
  case shared =>
    intro scope line x n resolved
    obtain ⟨func, builtin, -⟩ := resolve_eq_ok.1 resolved
    refine resolve_eq_ok.2 ⟨func, builtin, ?_⟩
    change Option.or none _ = _
    rw [slot?_of_resolve_global resolved]
    rfl
  case unordered => exact fun d _ order perm => outerNames_of_perm perm

theorem names_have_own_slots_halving :
    Within 'g' (globalNames halving) 9 ∧ (∀ d ∈ functionsOf halving, Within 'v' d.localNames 9) ∧
      ∃ p, lower halving = .ok p ∧
        KeepsNamesApart halving (.ofProgram (functionsOf halving) halving) p := by
  refine ⟨by unfold Within; decide +kernel, by unfold Within; decide +kernel, ?_⟩
  have accepted : (lower halving).toOption.isSome = true := by cbv
  cases lowered : lower halving with
  | error e =>
    rw [lowered] at accepted
    cases accepted
  | ok p => exact ⟨p, rfl, names_have_own_slots lowered⟩

end SlotLang.Subset
