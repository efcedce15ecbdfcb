import SlotLang.Proofs.Basic
import SlotLang.Text.Numeral

/-!
# Decimal texts

The text of a number is a run of digits that denotes the number, and the text of a value is a
numeral that denotes the value.
-/

namespace SlotLang

/-- The decimal digits of a number. -/
def digits (n : Nat) : List Char :=
  (toString n).toList

theorem digits_eq (n : Nat) : digits n = Nat.toDigits 10 n := by
  rw [digits, Nat.toString_eq_ofList_toDigits, String.toList_ofList]

theorem isDigit_of_mem_digits {n : Nat} {c : Char} (member : c ∈ digits n) : c.isDigit = true := by
  rw [digits_eq] at member
  exact Nat.isDigit_of_mem_toDigits (by decide) (by decide) member

theorem digits_ne_nil (n : Nat) : digits n ≠ [] := by
  rw [digits_eq]
  exact Nat.toDigits_ne_nil

theorem digitsValue_digits (n : Nat) : Text.digitsValue (digits n) = n := by
  rw [digits_eq]
  exact Nat.ofDigitChars_ten_toDigits

theorem isDigits_digits (n : Nat) : Text.isDigits (digits n) = true := by
  have nonempty := digits_ne_nil n
  simp only [Text.isDigits, Bool.and_eq_true, Bool.not_eq_true', List.isEmpty_eq_false_iff]
  exact ⟨nonempty, List.all_eq_true.2 fun c member => isDigit_of_mem_digits member⟩

/-- The text of a value: a minus sign in front of the digits if it is negative. -/
theorem toList_text (v : Value) : v.text.toList =
    if v.toInt < 0 then '-' :: digits v.toInt.natAbs else digits v.toInt.natAbs := by
  unfold Value.text
  generalize v.toInt = i
  cases i with
  | ofNat n => rfl
  | negSucc n =>
    have text : toString (Int.negSucc n) = "-" ++ toString (n + 1) := rfl
    rw [if_pos (Int.negSucc_lt_zero n), text, String.toList_append]
    rfl

theorem splitSign_of_isDigits {cs : List Char} (digits : Text.isDigits cs = true) :
    Text.splitSign cs = (false, cs) := by
  unfold Text.splitSign
  split
  · simp [Text.isDigits] at digits
  · rfl

theorem isNumeral_text (v : Value) : Text.isNumeral v.text.toList = true := by
  rw [toList_text]
  split
  · exact isDigits_digits _
  · rw [Text.isNumeral, splitSign_of_isDigits (isDigits_digits _)]
    exact isDigits_digits _

theorem numeralValue_text (v : Value) : Text.numeralValue v.text.toList = v.toInt := by
  rw [toList_text]
  split
  · next negative =>
    simp only [Text.numeralValue, Text.splitSign, digitsValue_digits, if_true]
    omega
  · next positive =>
    simp only [Text.numeralValue, splitSign_of_isDigits (isDigits_digits _), digitsValue_digits,
      Bool.false_eq_true, if_false]
    omega

theorem toValue?_toInt (v : Value) : Text.toValue? v.toInt = some v := by
  unfold Text.toValue?
  rw [if_pos ⟨Int64.le_toInt v, Int64.toInt_lt v⟩, Int64.ofInt_toInt]

/-! ## Indices as values -/

@[simp] theorem Value.low_ofIndex (n : UInt32) : (Value.ofIndex n).low = n := by
  simp [Value.ofIndex, Value.low]

theorem Value.toInt_ofIndex (n : UInt32) : (Value.ofIndex n).toInt = n.toNat := by
  have small : n.toBitVec.toNat < 0x100000000 := n.toNat_lt
  have wide : (Value.ofIndex n).toBitVec = BitVec.setWidth 64 n.toBitVec := rfl
  rw [← Int64.toInt_toBitVec, wide, BitVec.toInt_setWidth, Int.bmod_eq_of_le]
  · rfl
  · omega
  · omega

theorem toList_text_ofIndex (n : UInt32) : (Value.ofIndex n).text.toList = digits n.toNat := by
  rw [toList_text, Value.toInt_ofIndex, if_neg (by omega)]
  rfl

end SlotLang
