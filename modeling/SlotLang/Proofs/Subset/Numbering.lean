import SlotLang.Proofs.Subset.Wellformed
import SlotLang.Subset.Source

/-!
# Slot numbers and counts at the limit

Slot numbers are 32 bits wide and so are their counts. The last number of all has no count: it is
left out, whether a program was parsed or lowered, and no other number is. Slots of names are given
out above the numbered ones, so they are different as long as the first free number fits.
-/

open List

namespace SlotLang

/-! ## Counts -/

/-- A count of the slots that `pick` selects is one more than the highest of their numbers but the
last one. So it is exact, and above all of them, if and only if the last number is not in use. -/
structure CountsSlots (pick : Operand → Option UInt32) (code : List Instruction) (count : UInt32) :
    Prop where
  highest : count.toNat = countOf ((slotsIn pick code).filter (· ≠ 0xFFFFFFFF))
  exact_iff : count.toNat = countOf (slotsIn pick code) ↔ 0xFFFFFFFF ∉ slotsIn pick code
  lt_iff : ∀ n ∈ slotsIn pick code, n.toNat < count.toNat ↔ n ≠ 0xFFFFFFFF

theorem countsSlots_slotCount (pick : Operand → Option UInt32) (code : List Instruction) :
    CountsSlots pick code (slotCount pick code) := by
  have highest : (slotCount pick code).toNat =
      countOf ((slotsIn pick code).filter (· ≠ 0xFFFFFFFF)) :=
    (toNat_foldl_max (slotsIn pick code) 0).trans (Nat.zero_max _)
  have bound := (slotCount pick code).toNat_lt
  refine ⟨highest, ⟨fun same last => ?_, fun unused => ?_⟩, fun n member => ⟨?_, fun other => ?_⟩⟩
  · have above : 0xFFFFFFFF < countOf (slotsIn pick code) := lt_countOf last
    omega
  · rw [highest, filter_eq_self_of_unused unused]
  · rintro below rfl
    change 0xFFFFFFFF < (slotCount pick code).toNat at below
    omega
  · rw [highest]
    exact lt_countOf (mem_filter.2 ⟨member, decide_eq_true other⟩)

def Program.CountsSlots (p : Program) : Prop :=
  SlotLang.CountsSlots Operand.globalIndex? p.allCode p.globalCount ∧
    ∀ f ∈ p.funcs, SlotLang.CountsSlots Operand.varIndex? f.body f.localCount

theorem Program.Sound.countsSlots {known : UInt32} {p : Program} (sound : p.Sound known) :
    p.CountsSlots := by
  refine ⟨sound.globalCount ▸ countsSlots_slotCount _ _, fun f member => ?_⟩
  exact (sound.funcs f member).localCount ▸ countsSlots_slotCount _ _

namespace Subset

theorem countsSlots_of_lower {body : List Stmt} {p : Program} (lowered : lower body = .ok p) :
    p.CountsSlots := by
  obtain ⟨defs, lowers⟩ := lower_ok lowered
  refine ⟨globalCount_of_lower lowered ▸ countsSlots_slotCount _ _, fun f member => ?_⟩
  obtain ⟨d, -, made⟩ := exists_partner lowers.funcs member
  obtain ⟨code, -, rfl⟩ := lowerDef_ok made
  exact countsSlots_slotCount _ _

/-! ## Slots of names -/

namespace SlotTable

variable {letter : Char} {names : List String} {x : String}

/-- The first number above the slots of some names. This need not fit into 32 bits. -/
def firstFree (letter : Char) (names : List String) : Nat :=
  countOf (numbers letter names) + (unnumbered letter names).length

/-- Numbered names have their own numbers as slots. If the first free number fits, it is the table's,
every slot lies below it, different names have different slots, and so do temporaries that fit. -/
structure KeepsApart (letter : Char) (names : List String) (t : SlotTable) : Prop where
  numbered : ∀ x ∈ names, ∀ n, slotNumber? letter x = some n → t.slot? x = some n
  next_iff : t.next.toNat = firstFree letter names ↔ firstFree letter names < 0x100000000
  below : firstFree letter names < 0x100000000 → ∀ x ∈ names, ∃ n, t.slot? x = some n ∧ n < t.next
  injective : firstFree letter names < 0x100000000 →
    ∀ x y n, t.slot? x = some n → t.slot? y = some n → x = y
  temps : ∀ j, firstFree letter names + j < 0x100000000 →
    (t.next + UInt32.ofNat j).toNat = firstFree letter names + j

theorem toNat_next (fits : firstFree letter names < 0x100000000) :
    (ofNames letter names).next.toNat = firstFree letter names :=
  toNat_base_add fits

theorem within_of_fits (fits : firstFree letter names < 0x100000000) : Within letter names 0 := by
  intro i bound
  unfold firstFree at fits
  omega

theorem keepsApart_ofNames (letter : Char) (names : List String) :
    KeepsApart letter names (ofNames letter names) where
  numbered x member n numbered := by
    obtain ⟨k, found⟩ := Option.isSome_iff_exists.1 (isSome_slot?_ofNames.2 member)
    rcases mem_entries_ofNames.1 (mem_of_slot? found) with ⟨-, own⟩ | ⟨i, here, -⟩
    · exact found.trans (own.symm.trans numbered)
    · have none := (mem_filter.1 (mem_of_getElem? here)).2
      rw [numbered] at none
      cases none
  next_iff := ⟨fun same => same ▸ UInt32.toNat_lt _, toNat_next⟩
  below fits x member := by
    obtain ⟨n, found⟩ := Option.isSome_iff_exists.1 (isSome_slot?_ofNames.2 member)
    refine ⟨n, found, UInt32.lt_iff_toNat_lt.2 ?_⟩
    rw [toNat_next fits, firstFree]
    rcases toNat_slot (within_of_fits fits) found with ⟨-, below⟩ | ⟨i, bound, -, same⟩ <;> omega
  injective fits x y n := slot?_inj_of_within (within_of_fits fits)
  temps j fits := by
    have next := toNat_next (Nat.lt_of_le_of_lt (Nat.le_add_right _ j) fits)
    simp only [UInt32.toNat_add, UInt32.toNat_ofNat']
    omega

end SlotTable

def globalNames (body : List Stmt) : List String :=
  ((body.flatMap ModuleScope.moduleNames).filter fun name =>
    !(functionsOf body).any (·.name = name) && !builtins.contains name).eraseDups

def Def.localNames (d : Def) : List String :=
  (assignedIn d.body).eraseDups.filter fun name =>
    !d.params.contains name && !(declaredIn d.body).eraseDups.contains name

/-- Counts of slots are exact unless the last number of all is in use, in programs that were parsed and
in programs that were lowered. In the latter, names have slots of their own if the first free number
fits. -/
theorem slots_counted_but_last {p : Program}
    (made : (∃ source known, Program.parse source known = .ok p) ∨ ∃ body, lower body = .ok p) :
    p.CountsSlots ∧ ∀ body, lower body = .ok p →
      (namedGlobals body).KeepsApart 'g' (globalNames body) ∧
      ∀ d ∈ functionsOf body, (FuncScope.ofBody d.params d.body).locals.KeepsApart 'v' d.localNames := by
  refine ⟨?_, fun body _ => ⟨SlotTable.keepsApart_ofNames _ _,
    fun d _ => SlotTable.keepsApart_ofNames _ _⟩⟩
  rcases made with ⟨source, known, parsed⟩ | ⟨body, lowered⟩
  · exact (sound_of_parse parsed).countsSlots
  · exact countsSlots_of_lower lowered

def lastGlobal : SlotLang.Source where
  name := "last"
  text := "= g4294967295 1\n. g5\n"

def lastGlobalProgram : Program where
  code := [⟨.assign, [.global 4294967295, .lit 1], 1⟩, ⟨.output, [.global 5], 2⟩]
  globalCount := 6

/-- Its count is that of the other slot. -/
theorem slots_counted_but_last_lastGlobal :
    Program.parse lastGlobal 0 = .ok lastGlobalProgram ∧ lastGlobalProgram.CountsSlots := by
  have parsed : Program.parse lastGlobal 0 = .ok lastGlobalProgram := by cbv
  exact ⟨parsed, (slots_counted_but_last (.inl ⟨lastGlobal, 0, parsed⟩)).1⟩

/-- The source of a program in which two names share a slot. -/
def sharedSlot : String :=
  "g4294967294 = 1\ng0 = 2\nx = 3\ny = 4\nprint(g0)\n"

def sharedSlotProgram : Program where
  code := [⟨.assign, [.global 4294967294, .lit 1], 1⟩, ⟨.assign, [.global 0, .lit 2], 2⟩,
    ⟨.assign, [.global 4294967295, .lit 3], 3⟩, ⟨.assign, [.global 0, .lit 4], 4⟩,
    ⟨.output, [.global 0], 5⟩]
  globalCount := 4294967295

/-- The last slot is not below its count, and the value of one name is lost to another one. -/
theorem lastSlot_not_counted :
    (Program.parse lastGlobal 0 = .ok lastGlobalProgram ∧
        4294967295 ∈ slotsIn Operand.globalIndex? lastGlobalProgram.allCode ∧
        lastGlobalProgram.globalCount = 6) ∧
      Program.ofPython sharedSlot = .ok sharedSlotProgram ∧
        (Environment.run {} {} sharedSlotProgram).outputs = [4] :=
  ⟨⟨by cbv, by decide, rfl⟩, by decide +kernel, by cbv⟩

end Subset

end SlotLang
