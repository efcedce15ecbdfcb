import SlotLang.Proofs.Numerals
import SlotLang.Token

/-!
# The grammar of words

`Lexical` says which words write which tokens: sigils and the brace are single characters, an integer is
an optional minus sign and decimal digits, and a slot is a letter and decimal digits.
`TokenKind.ofWord` asks for these forms one after the other; no word has two of them, so it finds the
one that the word has (`Lexical.ofWord`, `lexical_ofWord`).
-/

open List

namespace SlotLang

open Text

/-- Decimal digits that write a number, with leading zeros or without. -/
def Writes (ds : List Char) (n : Nat) : Prop :=
  ds ≠ [] ∧ (∀ c ∈ ds, c.isDigit = true) ∧
    Nat.ofDigits 10 (ds.reverse.map fun c => c.toNat - '0'.toNat) = n

/-- An optional minus sign and digits that write an integer. -/
def WritesInt (w : List Char) (i : Int) : Prop :=
  ∃ ds n, Writes ds n ∧ (w = ds ∧ i = n ∨ w = '-' :: ds ∧ i = -n)

/-- A numeral that is no value, or a number that is no index behind a character that begins no
numeral. -/
def TooLarge (w : List Char) : Prop :=
  (∃ i, WritesInt w i ∧ (i < -0x8000000000000000 ∨ 0x8000000000000000 ≤ i)) ∨
    ∃ c ds n, w = c :: ds ∧ c.isDigit = false ∧ c ≠ '-' ∧ Writes ds n ∧ 0x100000000 ≤ n

/-- The words that write a token. -/
inductive Lexical : List Char → TokenKind → Prop where
  | sigil (op : Opcode) : Lexical op.sigil.toList (.opcode op)
  | brace : Lexical ['\x7b'] .blockOpen
  | integer {w : List Char} {v : Value} : WritesInt w v.toInt → Lexical w (.integer v)
  | global {ds : List Char} {n : UInt32} : Writes ds n.toNat → Lexical ('g' :: ds) (.slot (.global n))
  | var {ds : List Char} {n : UInt32} : Writes ds n.toNat → Lexical ('v' :: ds) (.slot (.var n))
  | arg {ds : List Char} {n : UInt32} : Writes ds n.toNat → Lexical ('a' :: ds) (.slot (.arg n))
  | tooLarge {w : List Char} : TooLarge w → Lexical w .outOfRange

variable {w ds : List Char} {n : Nat} {i : Int}

/-! ## Numerals -/

theorem writes_iff :
    Writes ds n ↔ isDigits ds = true ∧ digitsValue ds = n := by
  have value : Nat.ofDigits 10 (ds.reverse.map fun c => c.toNat - '0'.toNat) = digitsValue ds := by
    rw [Nat.ofDigits_eq_foldr, map_reverse, foldr_reverse, foldl_map, digitsValue]
    simp only [Nat.add_comm, Nat.cast_id]
  rw [Writes, value]
  simp [isDigits, and_assoc]

theorem writesInt_iff :
    WritesInt w i ↔ isNumeral w = true ∧ numeralValue w = i := by
  constructor
  · rintro ⟨ds, n, written, ⟨rfl, rfl⟩ | ⟨rfl, rfl⟩⟩
    · obtain ⟨digits, rfl⟩ := writes_iff.1 written
      simp [isNumeral, numeralValue, splitSign_of_isDigits digits, digits]
    · obtain ⟨digits, rfl⟩ := writes_iff.1 written
      exact ⟨digits, rfl⟩
  · rintro ⟨numeral, rfl⟩
    refine ⟨(splitSign w).2, _, writes_iff.2 ⟨numeral, rfl⟩, ?_⟩
    unfold numeralValue splitSign
    split <;> simp

theorem toValue?_eq_some {v : Value} : toValue? i = some v ↔ i = v.toInt := by
  constructor
  · intro fits
    unfold toValue? at fits
    split at fits
    · next range =>
      cases fits
      exact (Int64.toInt_ofInt_of_le range.1 range.2).symm
    · cases fits
  · rintro rfl
    exact toValue?_toInt v

theorem toValue?_eq_none :
    toValue? i = none ↔ i < -0x8000000000000000 ∨ 0x8000000000000000 ≤ i := by
  unfold toValue?
  split <;> simp <;> omega

theorem readIndex?_eq_some {n : UInt32} :
    readIndex? ds = some n ↔ digitsValue ds = n.toNat := by
  simp only [readIndex?, Option.ite_none_right_eq_some, Option.some.injEq]
  constructor
  · rintro ⟨small, rfl⟩
    exact (UInt32.toNat_ofNat_of_lt small).symm
  · intro value
    exact ⟨value ▸ n.toNat_lt, by rw [value, UInt32.ofNat_toNat]⟩

theorem readIndex?_eq_none :
    readIndex? ds = none ↔ 0x100000000 ≤ digitsValue ds := by
  simp [readIndex?]

/-! ## Classification -/

theorem isDigit_sigilChar (op : Opcode) : op.sigilChar.isDigit = false := by
  cases op with
  | binary op => cases op <;> rfl
  | _ => rfl

theorem toList_sigil (op : Opcode) : op.sigil.toList = [op.sigilChar] :=
  String.toList_singleton _

theorem ofWord_sigil (op : Opcode) : TokenKind.ofWord [op.sigilChar] = .opcode op := by
  cases op with
  | binary op => cases op <;> rfl
  | _ => rfl

theorem ofWord?_eq_some {op : Opcode} (found : Opcode.ofWord? w = some op) :
    w = [op.sigilChar] := by
  unfold Opcode.ofWord? at found
  split at found
  · have same := find?_some found
    rw [eq_of_beq same]
  · cases found

/-- A word that has digits is neither a sigil nor the brace. -/
theorem ofWord_of_isDigits (digits : isDigits ds = true) (inside : ds ⊆ w) :
    TokenKind.ofWord w = .ofOther w := by
  obtain ⟨d, member, digit⟩ : ∃ d ∈ w, d.isDigit = true := by
    cases ds with
    | nil => cases digits
    | cons d ds => exact ⟨d, inside mem_cons_self, by simp_all [isDigits]⟩
  have noSigil : Opcode.ofWord? w = none := by
    cases found : Opcode.ofWord? w with
    | none => rfl
    | some op =>
      rw [ofWord?_eq_some found, mem_singleton] at member
      rw [member, isDigit_sigilChar] at digit
      cases digit
  have noBrace : w ≠ ['\x7b'] := by
    rintro rfl
    rw [mem_singleton.1 member] at digit
    cases digit
  rw [TokenKind.ofWord, noSigil]
  exact if_neg noBrace

theorem ofWord_of_writesInt (written : WritesInt w i) :
    TokenKind.ofWord w = (toValue? i).elim .outOfRange .integer := by
  obtain ⟨numeral, rfl⟩ := writesInt_iff.1 written
  have inside : (splitSign w).2 ⊆ w := by
    unfold splitSign
    split <;> simp
  rw [ofWord_of_isDigits numeral inside]
  exact if_pos numeral

theorem ofWord_indexed {c : Char} (plain : c.isDigit = false) (unsigned : c ≠ '-')
    (digits : isDigits ds = true) : TokenKind.ofWord (c :: ds) = .ofIndexed c ds := by
  have sign : splitSign (c :: ds) = (false, c :: ds) := by
    unfold splitSign
    split
    · next same => exact absurd (List.cons.inj same).1 unsigned
    · rfl
  have noNumeral : isNumeral (c :: ds) = false := by
    simp [isNumeral, sign, isDigits, plain]
  rw [ofWord_of_isDigits digits (subset_cons_self c ds)]
  simp [TokenKind.ofOther, noNumeral, digits]

theorem ofWord_slot {c : Char} {n : UInt32} {o : Operand}
    (named : TokenKind.slotOf? c n = some o) (plain : c.isDigit = false) (unsigned : c ≠ '-')
    (written : Writes ds n.toNat) : TokenKind.ofWord (c :: ds) = .slot o := by
  obtain ⟨digits, value⟩ := writes_iff.1 written
  simp [ofWord_indexed plain unsigned digits, TokenKind.ofIndexed, readIndex?_eq_some.2 value, named]

theorem Lexical.ofWord {k : TokenKind} (form : Lexical w k) :
    TokenKind.ofWord w = k := by
  cases form with
  | sigil op => rw [toList_sigil, ofWord_sigil]
  | brace => rfl
  | integer written => rw [ofWord_of_writesInt written, toValue?_toInt]; rfl
  | global written => exact ofWord_slot rfl rfl (by decide) written
  | var written => exact ofWord_slot rfl rfl (by decide) written
  | arg written => exact ofWord_slot rfl rfl (by decide) written
  | tooLarge large =>
    rcases large with ⟨i, written, range⟩ | ⟨c, ds, n, rfl, plain, unsigned, written, range⟩
    · rw [ofWord_of_writesInt written, toValue?_eq_none.2 range]
      rfl
    · obtain ⟨digits, rfl⟩ := writes_iff.1 written
      simp [ofWord_indexed plain unsigned digits, TokenKind.ofIndexed, readIndex?_eq_none.2 range]

theorem lexical_ofIndexed {c : Char} (plain : c.isDigit = false) (unsigned : c ≠ '-')
    (digits : isDigits ds = true) (valid : TokenKind.ofIndexed c ds ≠ .invalid) :
    Lexical (c :: ds) (.ofIndexed c ds) := by
  unfold TokenKind.ofIndexed at valid ⊢
  cases index : readIndex? ds with
  | none =>
    exact .tooLarge (.inr ⟨c, ds, _, rfl, plain, unsigned, writes_iff.2 ⟨digits, rfl⟩,
      readIndex?_eq_none.1 index⟩)
  | some n =>
    have written : Writes ds n.toNat := writes_iff.2 ⟨digits, readIndex?_eq_some.1 index⟩
    simp only [index, TokenKind.slotOf?] at valid ⊢
    split at valid
    · exact .global written
    · exact .var written
    · exact .arg written
    · exact absurd rfl valid

theorem lexical_ofOther (valid : TokenKind.ofOther w ≠ .invalid) :
    Lexical w (.ofOther w) := by
  unfold TokenKind.ofOther at valid ⊢
  split at valid
  · next numeral =>
    have written : WritesInt w _ := writesInt_iff.2 ⟨numeral, rfl⟩
    rw [if_pos numeral, TokenKind.ofNumeral]
    cases value : toValue? (numeralValue w) with
    | none => exact .tooLarge (.inl ⟨_, written, toValue?_eq_none.1 value⟩)
    | some v => exact .integer (toValue?_eq_some.1 value ▸ written)
  · next numeral =>
    cases w with
    | nil => exact absurd rfl valid
    | cons c ds =>
      simp only [numeral] at valid ⊢
      by_cases digits : isDigits ds = true
      · -- A digit or a sign in front of digits would make a numeral.
        have plain : c.isDigit = false := by
          by_contra digit
          have whole : isDigits (c :: ds) = true := by simp_all [isDigits]
          exact numeral (by rw [isNumeral, splitSign_of_isDigits whole, whole])
        have unsigned : c ≠ '-' := by
          rintro rfl
          exact numeral digits
        simp only [digits, if_true] at valid ⊢
        exact lexical_ofIndexed plain unsigned digits valid
      · exact absurd (if_neg digits) valid

theorem lexical_ofWord (valid : TokenKind.ofWord w ≠ .invalid) :
    Lexical w (.ofWord w) := by
  unfold TokenKind.ofWord at valid ⊢
  cases found : Opcode.ofWord? w with
  | some op =>
    rw [ofWord?_eq_some found, ← toList_sigil]
    exact .sigil op
  | none =>
    simp only [found] at valid ⊢
    split at valid
    · next brace =>
      rw [if_pos brace, brace]
      exact .brace
    · next brace =>
      rw [if_neg brace]
      exact lexical_ofOther valid

theorem ofWord_iff {k : TokenKind} (valid : k ≠ .invalid) :
    TokenKind.ofWord w = k ↔ Lexical w k :=
  ⟨fun classified => classified ▸ lexical_ofWord (classified ▸ valid), Lexical.ofWord⟩

theorem ofWord_eq_outOfRange : TokenKind.ofWord w = .outOfRange ↔ TooLarge w := by
  refine (ofWord_iff (by simp)).trans ⟨fun form => ?_, .tooLarge⟩
  cases form with
  | tooLarge large => exact large

/-! ## Operands -/

/-- The kind of the word that writes an operand. -/
def Operand.kind : Operand → TokenKind
  | .lit v => .integer v
  | o => .slot o

theorem toList_slot (letter : Char) (n : UInt32) :
    (String.singleton letter ++ toString n.toNat).toList = letter :: digits n.toNat := by
  simp [digits]

theorem writes_digits (n : Nat) : Writes (digits n) n :=
  writes_iff.2 ⟨isDigits_digits n, digitsValue_digits n⟩

theorem ofWord_text (o : Operand) : TokenKind.ofWord o.text.toList = o.kind := by
  refine Lexical.ofWord ?_
  cases o with
  | global n => exact toList_slot 'g' n ▸ .global (writes_digits _)
  | var n => exact toList_slot 'v' n ▸ .var (writes_digits _)
  | arg n => exact toList_slot 'a' n ▸ .arg (writes_digits _)
  | lit v => exact .integer (writesInt_iff.2 ⟨isNumeral_text v, numeralValue_text v⟩)

/-- **Words are classified by their grammar.** A word is an integer exactly if it is an optional minus
sign and decimal digits whose value is that 64-bit integer, a slot exactly if it is the slot's letter and
decimal digits whose value is the slot's 32-bit number, an opcode exactly if it is its sigil, and the
opening brace exactly if it is a brace. The word that writes an operand is classified as that operand. -/
theorem words_classified_exactly (w : List Char) :
    (∀ v : Value, TokenKind.ofWord w = .integer v ↔ WritesInt w v.toInt) ∧
      (∀ o, TokenKind.ofWord w = .slot o ↔ ∃ (ds : List Char) (n : UInt32), Writes ds n.toNat ∧
        (w = 'g' :: ds ∧ o = .global n ∨ w = 'v' :: ds ∧ o = .var n ∨ w = 'a' :: ds ∧ o = .arg n)) ∧
      (∀ op : Opcode, TokenKind.ofWord w = .opcode op ↔ w = op.sigil.toList) ∧
      (TokenKind.ofWord w = .blockOpen ↔ w = ['\x7b']) ∧
      ∀ o : Operand, (TokenKind.ofWord o.text.toList).operand? = some o := by
  refine ⟨fun v => ?_, fun o => ?_, fun op => ?_, ?_, fun o => ?_⟩
  · refine (ofWord_iff (by simp)).trans ⟨fun form => ?_, .integer⟩
    cases form with
    | integer written => exact written
  · refine (ofWord_iff (by simp)).trans ⟨fun form => ?_, ?_⟩
    · cases form with
      | global written => exact ⟨_, _, written, .inl ⟨rfl, rfl⟩⟩
      | var written => exact ⟨_, _, written, .inr (.inl ⟨rfl, rfl⟩)⟩
      | arg written => exact ⟨_, _, written, .inr (.inr ⟨rfl, rfl⟩)⟩
    · rintro ⟨ds, n, written, ⟨rfl, rfl⟩ | ⟨rfl, rfl⟩ | ⟨rfl, rfl⟩⟩
      · exact .global written
      · exact .var written
      · exact .arg written
  · refine (ofWord_iff (by simp)).trans ⟨fun form => ?_, fun same => same ▸ .sigil op⟩
    cases form with
    | sigil => rfl
  · refine (ofWord_iff (by simp)).trans ⟨fun form => ?_, fun same => same ▸ .brace⟩
    cases form with
    | brace => rfl
  · rw [ofWord_text]
    cases o <;> rfl

end SlotLang
