import SlotLang.Program
import SlotLang.Proofs.Basic

/-!
# Slots and their counts

A count of slots is one more than the highest slot number in use. Counts are 32 bits wide, so the
highest slot number of all cannot be counted; without it `slotCount` is the count.
-/

open List

namespace SlotLang

variable {code : List Instruction} {pick : Operand → Option UInt32}

/-- `count` is one more than the highest of some numbers, and zero if there are none. -/
def IsCount (ns : List UInt32) (count : UInt32) : Prop :=
  ns = [] ∧ count = 0 ∨ ∃ n ∈ ns, (∀ k ∈ ns, k ≤ n) ∧ count.toNat = n.toNat + 1

/-- The numbers of the slots in some code that `pick` selects. -/
def slotsIn (pick : Operand → Option UInt32) (code : List Instruction) : List UInt32 :=
  (code.flatMap Instruction.operands).filterMap pick

theorem mem_slotsIn {n : UInt32} :
    n ∈ slotsIn pick code ↔ ∃ i ∈ code, ∃ o ∈ i.operands, pick o = some n := by
  simp only [slotsIn, mem_filterMap, mem_flatMap]
  constructor
  · rintro ⟨o, ⟨i, member, used⟩, picked⟩
    exact ⟨i, member, o, used, picked⟩
  · rintro ⟨i, member, o, used, picked⟩
    exact ⟨o, ⟨i, member, used⟩, picked⟩

theorem le_foldl_max (ns : List UInt32) (least : UInt32) :
    least ≤ ns.foldl max least ∧ ∀ n ∈ ns, n ≤ ns.foldl max least := by
  induction ns generalizing least with
  | nil => exact ⟨UInt32.le_refl _, fun n member => absurd member not_mem_nil⟩
  | cons first rest ih =>
    obtain ⟨above, others⟩ := ih (max least first)
    have left : least ≤ max least first := by
      rw [UInt32.max_def]
      split
      · assumption
      · exact UInt32.le_refl _
    have right : first ≤ max least first := by
      rw [UInt32.max_def]
      split
      · exact UInt32.le_refl _
      · next small => exact UInt32.le_of_lt (UInt32.not_le.1 small)
    refine ⟨UInt32.le_trans left above, fun n member => ?_⟩
    rcases mem_cons.1 member with rfl | later
    · exact UInt32.le_trans right above
    · exact others n later

theorem foldl_max_mem (ns : List UInt32) (least : UInt32) :
    ns.foldl max least = least ∨ ns.foldl max least ∈ ns := by
  induction ns generalizing least with
  | nil => exact .inl rfl
  | cons first rest ih =>
    have either : max least first = least ∨ max least first = first := by
      rw [UInt32.max_def]
      split <;> simp
    rcases ih (max least first) with same | later
    · rcases either with left | right
      · exact .inl (same.trans left)
      · exact .inr (mem_cons.2 (.inl (same.trans right)))
    · exact .inr (mem_cons_of_mem _ later)

/-- Numbers below the last one do not wrap when counted. -/
theorem toNat_succ {n : UInt32} (small : n < 0xFFFFFFFF) : (n + 1).toNat = n.toNat + 1 := by
  have bound : n.toNat < 0xFFFFFFFF := UInt32.lt_iff_toNat_lt.1 small
  simp only [UInt32.toNat_add, UInt32.toNat_one]
  omega

/-- One more than the highest of some numbers, and zero if there are none. This need not fit into 32
bits. -/
def countOf : List UInt32 → Nat
  | [] => 0
  | n :: rest => max (n.toNat + 1) (countOf rest)

variable {ns : List UInt32} {n : UInt32}

theorem lt_countOf (member : n ∈ ns) : n.toNat < countOf ns := by
  induction ns with
  | nil => cases member
  | cons first rest ih =>
    rw [countOf]
    rcases mem_cons.1 member with rfl | later
    · omega
    · have := ih later
      omega

theorem filter_eq_self_of_unused (unused : 0xFFFFFFFF ∉ ns) : ns.filter (· ≠ 0xFFFFFFFF) = ns := by
  refine filter_eq_self.2 fun n member => decide_eq_true ?_
  rintro rfl
  exact unused member

/-- Counting in 32 bits leaves out the last number. -/
theorem toNat_foldl_max (ns : List UInt32) (least : UInt32) :
    ((ns.map (· + 1)).foldl max least).toNat =
      max least.toNat (countOf (ns.filter (· ≠ 0xFFFFFFFF))) := by
  induction ns generalizing least with
  | nil => exact (Nat.max_zero _).symm
  | cons n rest ih =>
    rw [map_cons, foldl_cons, ih, UInt32.toNat_max]
    by_cases last : n = 0xFFFFFFFF
    · subst last
      rw [filter_cons_of_neg (by decide)]
      exact congrArg (max · _) (Nat.max_zero _)
    · have small : n < 0xFFFFFFFF := UInt32.lt_of_le_of_ne (UInt32.le_iff_toNat_le.2
        (Nat.le_of_lt_succ n.toNat_lt)) last
      rw [filter_cons_of_pos (by simpa using last), countOf, toNat_succ small, Nat.max_assoc]

namespace IsCount

variable {count other : UInt32}

theorem lt (counted : IsCount ns count) (member : n ∈ ns) : n.toNat < count.toNat := by
  rcases counted with ⟨rfl, -⟩ | ⟨high, -, highest, above⟩
  · cases member
  · have below := UInt32.le_iff_toNat_le.1 (highest n member)
    omega

theorem small (counted : IsCount ns count) (member : n ∈ ns) : n < 0xFFFFFFFF := by
  have below := counted.lt member
  have bound := count.toNat_lt
  refine UInt32.lt_iff_toNat_lt.2 ?_
  change n.toNat < 0xFFFFFFFF
  omega

/-- Only which numbers there are matters. -/
theorem of_mem_iff {ms : List UInt32} (same : ∀ n, n ∈ ms ↔ n ∈ ns) (counted : IsCount ns count) :
    IsCount ms count := by
  rcases counted with ⟨rfl, zero⟩ | ⟨high, member, highest, above⟩
  · exact .inl ⟨eq_nil_iff_forall_not_mem.2 fun n there => by simpa using (same n).1 there, zero⟩
  · exact .inr ⟨high, (same high).2 member, fun k there => highest k ((same k).1 there), above⟩

theorem unique (counted : IsCount ns count) (again : IsCount ns other) : count = other := by
  rcases counted with ⟨empty, rfl⟩ | ⟨n, member, highest, above⟩
  · rcases again with ⟨-, rfl⟩ | ⟨k, member, -, -⟩
    · rfl
    · rw [empty] at member
      cases member
  · rcases again with ⟨empty, -⟩ | ⟨k, member', highest', above'⟩
    · rw [empty] at member
      cases member
    · have same : n = k := UInt32.le_antisymm (highest' n member) (highest k member')
      rw [same] at above
      exact UInt32.toNat_inj.1 (above.trans above'.symm)

end IsCount

/-- The slots of code are counted, but for the last slot of all. -/
theorem isCount_slotCount (small : ∀ n ∈ slotsIn pick code, n < 0xFFFFFFFF) :
    IsCount (slotsIn pick code) (slotCount pick code) := by
  have counted : slotCount pick code = ((slotsIn pick code).map (· + 1)).foldl max 0 := rfl
  rw [counted]
  generalize slotsIn pick code = ns at small
  obtain ⟨-, above⟩ := le_foldl_max (ns.map (· + 1)) 0
  rcases foldl_max_mem (ns.map (· + 1)) 0 with zero | attained
  · left
    refine ⟨eq_nil_iff_forall_not_mem.2 fun n member => ?_, zero⟩
    have wrapped := UInt32.le_iff_toNat_le.1 (above _ (mem_map_of_mem member))
    rw [zero, toNat_succ (small n member)] at wrapped
    exact absurd wrapped (Nat.not_succ_le_zero _)
  · right
    obtain ⟨n, member, same⟩ := mem_map.1 attained
    have count : ((ns.map (· + 1)).foldl max 0).toNat = n.toNat + 1 := by
      rw [← same, toNat_succ (small n member)]
    refine ⟨n, member, fun k there => UInt32.le_iff_toNat_le.2 ?_, count⟩
    have below := UInt32.le_iff_toNat_le.1 (above _ (mem_map_of_mem there))
    rw [toNat_succ (small k there), count] at below
    omega

theorem IsCount.eq_slotCount {count : UInt32} (counted : IsCount (slotsIn pick code) count) :
    count = slotCount pick code :=
  counted.unique (isCount_slotCount fun _ => counted.small)

end SlotLang
