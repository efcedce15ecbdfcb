import SlotLang.Proofs.Counts
import SlotLang.Proofs.Grammar
import SlotLang.Proofs.Subset.Meaning
import SlotLang.Subset.Lower

/-!
# Slots of names and temporaries

As long as every named slot lies below the first free one, which says that no number has wrapped,
different names have different slots and temporaries have slots of their own. What a name of a
function stands for agrees with what the reference semantics calls local.
-/

open List

namespace SlotLang.Subset

variable {c : Context} {name : String}

theorem slotNumber?_eq_some {letter : Char} {n : UInt32} :
    slotNumber? letter name = some n ↔ name.toList = letter :: digits n.toNat := by
  unfold slotNumber?
  cases name.toList with
  | nil => simp
  | cons c ds =>
    change (if c = letter ∧ _ then _ else none) = _ ↔ _
    rw [Option.ite_none_right_eq_some, Option.filter_eq_some_iff, cons.injEq, decide_eq_true_iff]
    constructor
    · rintro ⟨⟨rfl, -⟩, -, same⟩
      exact ⟨rfl, same.symm⟩
    · rintro ⟨rfl, rfl⟩
      exact ⟨⟨rfl, isDigits_digits _⟩, readIndex?_eq_some.2 (digitsValue_digits _), rfl⟩

namespace SlotTable

variable {i : Nat} {t : SlotTable}

/-- Every name's slot lies below the first free one. -/
def Sound (t : SlotTable) : Prop :=
  ∀ entry ∈ t.entries, entry.2 < t.next

instance (t : SlotTable) : Decidable t.Sound :=
  inferInstanceAs (Decidable (∀ entry ∈ t.entries, entry.2 < t.next))

/-- The first number above all numbered names. -/
def base (letter : Char) (names : List String) : UInt32 :=
  ((names.filterMap fun name => (slotNumber? letter name).map (name, ·)).map
    fun entry => entry.2 + 1).foldl max 0

/-- The names without a number. -/
def unnumbered (letter : Char) (names : List String) : List String :=
  names.filter fun name => (slotNumber? letter name).isNone

variable {letter : Char} {names : List String} {x y : String} {n : UInt32}

theorem mem_entries_ofNames :
    (x, n) ∈ (ofNames letter names).entries ↔
      (x ∈ names ∧ slotNumber? letter x = some n) ∨
        ∃ i : Nat, (unnumbered letter names)[i]? = some x ∧ n = base letter names + UInt32.ofNat i := by
  change (x, n) ∈ _ ++ _ ↔ _
  rw [mem_append, mem_filterMap, mem_map]
  refine or_congr ⟨?_, ?_⟩ ⟨?_, ?_⟩
  · rintro ⟨name, member, made⟩
    obtain ⟨k, numbered, same⟩ := Option.map_eq_some_iff.1 made
    cases same
    exact ⟨member, numbered⟩
  · rintro ⟨member, numbered⟩
    exact ⟨x, member, by rw [numbered]; rfl⟩
  · rintro ⟨⟨name, i⟩, member, same⟩
    cases same
    exact ⟨i, mem_zipIdx_iff_getElem?.1 member, rfl⟩
  · rintro ⟨i, here, rfl⟩
    exact ⟨(x, i), mem_zipIdx_iff_getElem?.2 here, rfl⟩

theorem mem_of_slot? (found : t.slot? x = some n) : (x, n) ∈ t.entries := by
  obtain ⟨before, after, split, -⟩ := lookup_eq_some_iff.1 found
  rw [split]
  exact mem_append_right _ mem_cons_self

theorem slot?_lt (sound : t.Sound) (found : t.slot? x = some n) : n < t.next :=
  sound (x, n) (mem_of_slot? found)

theorem isSome_slot?_ofNames : ((ofNames letter names).slot? x).isSome = true ↔ x ∈ names := by
  have known : ((ofNames letter names).slot? x).isSome = true ↔
      ∃ n, (x, n) ∈ (ofNames letter names).entries := by
    constructor
    · intro some
      obtain ⟨n, found⟩ := Option.isSome_iff_exists.1 some
      exact ⟨n, mem_of_slot? found⟩
    · rintro ⟨n, member⟩
      by_contra none
      rw [Option.not_isSome_iff_eq_none, slot?, lookup_eq_none_iff] at none
      exact absurd (none _ member) (by simp)
  rw [known]
  constructor
  · rintro ⟨n, member⟩
    rcases mem_entries_ofNames.1 member with ⟨member, -⟩ | ⟨i, here, -⟩
    · exact member
    · exact mem_of_mem_filter (mem_of_getElem? here)
  · intro member
    cases numbered : slotNumber? letter x with
    | some n => exact ⟨n, mem_entries_ofNames.2 (.inl ⟨member, numbered⟩)⟩
    | none =>
      have other : x ∈ unnumbered letter names := mem_filter.2 ⟨member, by simp [numbered]⟩
      obtain ⟨i, here⟩ := mem_iff_getElem?.1 other
      exact ⟨_, mem_entries_ofNames.2 (.inr ⟨i, here, rfl⟩)⟩

def numbers (letter : Char) (names : List String) : List UInt32 :=
  names.filterMap (slotNumber? letter)

/-- The slot numbers of names, and of so many temporaries behind them, fit into 32 bits. -/
def Within (letter : Char) (names : List String) (temps : Nat) : Prop :=
  ∀ i < (unnumbered letter names).length + temps,
    countOf (numbers letter names) + i < 0x100000000

theorem base_eq : base letter names = ((numbers letter names).map (· + 1)).foldl max 0 := by
  simp only [base, numbers, map_filterMap, Option.map_map]
  rfl

theorem toNat_base (unused : 0xFFFFFFFF ∉ numbers letter names) :
    (base letter names).toNat = countOf (numbers letter names) := by
  rw [base_eq, toNat_foldl_max, filter_eq_self_of_unused unused]
  exact Nat.zero_max _

/-- Numbers above the numbered names do not wrap as long as they fit. -/
theorem toNat_base_add (fits : countOf (numbers letter names) + i < 0x100000000) :
    (base letter names + UInt32.ofNat i).toNat = countOf (numbers letter names) + i := by
  have first : (base letter names).toNat = _ := toNat_base fun last => by
    have above : 0xFFFFFFFF < countOf (numbers letter names) := lt_countOf last
    omega
  simp only [UInt32.toNat_add, UInt32.toNat_ofNat']
  omega

theorem toNat_slot (within : Within letter names 0)
    (found : (ofNames letter names).slot? x = some n) :
    slotNumber? letter x = some n ∧ n.toNat < countOf (numbers letter names) ∨
      ∃ i < (unnumbered letter names).length, (unnumbered letter names)[i]? = some x ∧
        n.toNat = countOf (numbers letter names) + i := by
  rcases mem_entries_ofNames.1 (mem_of_slot? found) with ⟨member, numbered⟩ | ⟨i, here, rfl⟩
  · exact .inl ⟨numbered, lt_countOf (mem_filterMap.2 ⟨x, member, numbered⟩)⟩
  · have bound := (List.getElem?_eq_some_iff.1 here).1
    exact .inr ⟨i, bound, here, toNat_base_add (within i bound)⟩

theorem slot?_inj_of_within (within : Within letter names 0)
    (first : (ofNames letter names).slot? x = some n)
    (second : (ofNames letter names).slot? y = some n) : x = y := by
  rcases toNat_slot within first with ⟨nx, _⟩ | ⟨i, -, hx, nx⟩ <;>
    rcases toNat_slot within second with ⟨ny, _⟩ | ⟨j, -, hy, ny⟩
  · exact String.toList_inj.1 ((slotNumber?_eq_some.1 nx).trans (slotNumber?_eq_some.1 ny).symm)
  · omega
  · omega
  · rw [Nat.add_left_cancel (nx.symm.trans ny)] at hx
    exact Option.some.inj (hx.symm.trans hy)

theorem within_of_sound (sound : (ofNames letter names).Sound) : Within letter names 0 := by
  have next := (ofNames letter names).next.toNat_lt
  have first : (base letter names).toNat = _ := toNat_base fun last => by
    obtain ⟨x, member, numbered⟩ := mem_filterMap.1 last
    have below := UInt32.lt_iff_toNat_lt.1 (sound _ (mem_entries_ofNames.2 (.inl ⟨member, numbered⟩)))
    change 0xFFFFFFFF < _ at below
    omega
  intro i bound
  by_contra wraps
  -- The name that would get the last number of all lies above every other number.
  have small := (base letter names).toNat_lt
  have lastBound : 0xFFFFFFFF - (base letter names).toNat < (unnumbered letter names).length := by
    omega
  have member := mem_entries_ofNames.2 (.inr ⟨_, getElem?_eq_getElem lastBound, rfl⟩)
  have below := UInt32.lt_iff_toNat_lt.1 (sound _ member)
  simp only [UInt32.toNat_add, UInt32.toNat_ofNat'] at below
  omega

theorem slot?_inj (sound : (ofNames letter names).Sound) :
    (ofNames letter names).slot? x = some n → (ofNames letter names).slot? y = some n → x = y :=
  slot?_inj_of_within (within_of_sound sound)

end SlotTable

/-! ## Names of a function -/

namespace FuncScope

variable {names : List String}

/-- The slot of a name that is local to a function. -/
def slot? (s : FuncScope) (name : String) : Option Operand :=
  match s.params.idxOf? name with
  | some i => some (.arg (UInt32.ofNat i))
  | none => if s.declared.contains name then none else (s.locals.slot? name).map .var

variable {s : FuncScope} {other : String} {o : Operand}

theorem slot?_eq_some (found : s.slot? name = some o) :
    (∃ i, s.params.idxOf? name = some i ∧ o = .arg (UInt32.ofNat i)) ∨
      s.params.idxOf? name = none ∧ ∃ n, s.locals.slot? name = some n ∧ o = .var n := by
  unfold slot? at found
  cases position : s.params.idxOf? name with
  | some i =>
    rw [position] at found
    exact .inl ⟨i, rfl, (Option.some.inj found).symm⟩
  | none =>
    rw [position] at found
    change (if s.declared.contains name then none else _) = _ at found
    by_cases declared : s.declared.contains name = true
    · rw [if_pos declared] at found
      cases found
    · rw [if_neg declared] at found
      obtain ⟨n, slot, rfl⟩ := Option.map_eq_some_iff.1 found
      exact .inr ⟨rfl, n, slot, rfl⟩

theorem getElem?_of_idxOf? {i : Nat} (found : names.idxOf? name = some i) :
    names[i]? = some name := by
  obtain ⟨bound, here, -⟩ := idxOf?_eq_some_iff.1 found
  rw [getElem?_eq_getElem bound, here]

theorem slot?_inj (locals : s.locals = .ofNames 'v' names) (sound : s.locals.Sound)
    (few : s.params.length < 0x100000000) (first : s.slot? name = some o)
    (second : s.slot? other = some o) : name = other := by
  rcases slot?_eq_some first with ⟨i, hi, rfl⟩ | ⟨-, n, slot, rfl⟩ <;>
    rcases slot?_eq_some second with ⟨j, hj, same⟩ | ⟨-, k, slot', same⟩
  · have hi := getElem?_of_idxOf? hi
    have hj := getElem?_of_idxOf? hj
    have iBound := (List.getElem?_eq_some_iff.1 hi).1
    have jBound := (List.getElem?_eq_some_iff.1 hj).1
    have same := congrArg UInt32.toNat (Operand.arg.inj same)
    simp only [UInt32.toNat_ofNat'] at same
    rw [Nat.mod_eq_of_lt (by omega), Nat.mod_eq_of_lt (by omega)] at same
    rw [same] at hi
    exact Option.some.inj (hi.symm.trans hj)
  · cases same
  · cases same
  · cases same
    rw [locals] at sound slot slot'
    exact SlotTable.slot?_inj sound slot slot'

/-- A function's local names are those that the reference semantics keeps in the call. -/
theorem isSome_slot?_ofBody (params : List String) (body : List Stmt) (name : String) :
    ((ofBody params body).slot? name).isSome = (⟨params, body⟩ : Callee).isLocal name := by
  rw [Bool.eq_iff_iff]
  unfold slot? Callee.isLocal
  cases position : params.idxOf? name with
  | some i =>
    rw [show (ofBody params body).params = params from rfl, position]
    have member : name ∈ params := mem_of_getElem? (getElem?_of_idxOf? position)
    simp [member]
  | none =>
    rw [show (ofBody params body).params = params from rfl, position]
    have missing : name ∉ params := idxOf?_eq_none_iff.1 position
    change (if (declaredIn body).eraseDups.contains name then none else
      ((SlotTable.ofNames 'v' _).slot? name).map Operand.var).isSome = true ↔ _
    by_cases declared : name ∈ declaredIn body
    · simp [mem_eraseDups, declared, missing]
    · rw [if_neg (by simpa [mem_eraseDups] using declared), Option.isSome_map,
        SlotTable.isSome_slot?_ofNames]
      simp [mem_eraseDups, declared, missing]

end FuncScope

/-- The slot of a local name, if code stands in a function. -/
def localSlot? (scope : Option FuncScope) (name : String) : Option Operand :=
  scope.bind (·.slot? name)

theorem resolve_of_value (value : ¬ (c.module.func? name).isSome = true)
    (own : ¬ builtins.contains name = true) : c.resolve name = (localSlot? c.scope name).elim
      ((c.module.globals.slot? name).elim (misuse (.unknownName name) c.line) (.ok ∘ .global))
      .ok := by
  unfold Context.resolve localSlot?
  rw [if_neg value, if_neg own]
  cases inside : c.scope with
  | none => cases c.module.globals.slot? name <;> rfl
  | some s =>
    change _ = (s.slot? name).elim _ _
    unfold FuncScope.slot?
    cases position : s.params.idxOf? name with
    | some i =>
      simp only [position]
      rfl
    | none =>
      by_cases declared : s.declared.contains name = true
      · simp only [position, declared]
        cases c.module.globals.slot? name <;> rfl
      · cases slot : s.locals.slot? name with
        | some n =>
          simp only [position, Bool.of_not_eq_true declared, slot]
          rfl
        | none =>
          simp only [position, Bool.of_not_eq_true declared, slot]
          cases c.module.globals.slot? name <;> rfl

theorem resolve_eq_ok {o : Operand} : c.resolve name = .ok o ↔
    ¬ (c.module.func? name).isSome = true ∧ ¬ builtins.contains name = true ∧
      (localSlot? c.scope name).or ((c.module.globals.slot? name).map .global) = some o := by
  by_cases func : (c.module.func? name).isSome = true
  · rw [Context.resolve, if_pos func]
    exact iff_of_false nofun fun resolved => resolved.1 func
  by_cases builtin : builtins.contains name = true
  · rw [Context.resolve, if_neg func, if_pos builtin]
    exact iff_of_false nofun fun resolved => resolved.2.1 builtin
  rw [resolve_of_value func builtin, and_iff_right func, and_iff_right builtin]
  cases localSlot? c.scope name <;> cases c.module.globals.slot? name <;> simp [misuse]

theorem resolve_cases {o : Operand} (resolved : c.resolve name = .ok o) :
    localSlot? c.scope name = some o ∨
      localSlot? c.scope name = none ∧ ∃ n, c.module.globals.slot? name = some n ∧ o = .global n := by
  have slot := (resolve_eq_ok.1 resolved).2.2
  rw [Option.or_eq_some_iff, Option.map_eq_some_iff] at slot
  exact slot.imp_right (And.imp_right (Exists.imp fun _ => And.imp_right Eq.symm))

end SlotLang.Subset
