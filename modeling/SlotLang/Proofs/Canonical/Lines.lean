import SlotLang.Proofs.Canonical.Words
import SlotLang.Proofs.Parsed

/-!
# Lines that are written and read

`LineForm.words` writes a line of some form, word by word. Each word is classified as what it was
written for (`ofWord_sigil`, `ofWord_text`), so the line has that form again (`ofTokens_written`):
an instruction only takes the number of the line that it now stands on.
-/

open List

namespace SlotLang

variable {c : Char}

/-! ## Characters -/

theorem isBlank_of_isDigit (digit : c.isDigit = true) : Text.isBlank c = false := by
  have range : 48 ≤ c.toNat ∧ c.toNat ≤ 57 := by
    simpa [Char.isDigit, UInt32.le_iff_toNat_le] using digit
  simp only [Text.isBlank]
  have low : ¬ c.toNat ≤ 13 := by omega
  have high : ¬ 0x2000 ≤ c.toNat := by omega
  have others : c.toNat ≠ 0x20 ∧ c.toNat ≠ 0x85 ∧ c.toNat ≠ 0xA0 ∧ c.toNat ≠ 0x1680 ∧
      c.toNat ≠ 0x2028 ∧ c.toNat ≠ 0x2029 ∧ c.toNat ≠ 0x202F ∧ c.toNat ≠ 0x205F ∧
      c.toNat ≠ 0x3000 := by omega
  simp [low, high, others]

theorem isWord_sigil (op : Opcode) : IsWord [op.sigilChar] := by
  refine ⟨by simp, ?_, ?_⟩
  · simp only [mem_singleton, forall_eq]
    cases op with
    | binary op => cases op <;> decide
    | _ => decide
  · cases op with
    | binary op => cases op <;> decide
    | _ => decide

theorem isWord_digits (n : Nat) : IsWord (digits n) where
  nonempty := digits_ne_nil n
  solid := fun c member => isBlank_of_isDigit (isDigit_of_mem_digits member)
  visible := by
    intro first
    have digit : ';'.isDigit = true := isDigit_of_mem_digits (mem_of_mem_head? first)
    cases digit

theorem isWord_cons_digits (solid : Text.isBlank c = false) (visible : c ≠ ';') (n : Nat) :
    IsWord (c :: digits n) where
  nonempty := by simp
  solid := by
    intro d member
    rcases mem_cons.1 member with rfl | digit
    · exact solid
    · exact (isWord_digits n).solid d digit
  visible := by simpa using visible

theorem isWord_text (o : Operand) : IsWord o.text.toList := by
  cases o with
  | global n => exact toList_slot 'g' n ▸ isWord_cons_digits (by decide) (by decide) n.toNat
  | var n => exact toList_slot 'v' n ▸ isWord_cons_digits (by decide) (by decide) n.toNat
  | arg n => exact toList_slot 'a' n ▸ isWord_cons_digits (by decide) (by decide) n.toNat
  | lit v =>
    rw [Operand.text, toList_text]
    split
    · exact isWord_cons_digits (by decide) (by decide) _
    · exact isWord_digits _

/-! ## Forms of lines -/

namespace LineForm

variable {expected : OperandKind} {o : Operand} {op : Opcode}

def words : LineForm → List (List Char)
  | .empty => []
  | .opener index paramCount =>
    [[Opcode.defineFunc.sigilChar], digits index.toNat, digits paramCount.toNat, ['\x7b']]
  | .closer => [[Opcode.blockClose.sigilChar]]
  | .instruction i => [i.opcode.sigilChar] :: i.operands.map fun o => o.text.toList

def onLine (line : Nat) : LineForm → LineForm
  | .instruction i => .instruction { i with line }
  | form => form

/-- The form can be written and read back. -/
def Written : LineForm → Prop
  | .empty => False
  | .instruction i => i.Shaped
  | _ => True

theorem isWord_words {form : LineForm} {w : List Char} (member : w ∈ form.words) : IsWord w := by
  cases form with
  | empty => cases member
  | opener index paramCount =>
    simp only [words, mem_cons, not_mem_nil, or_false] at member
    rcases member with rfl | rfl | rfl | rfl
    · exact isWord_sigil .defineFunc
    · exact isWord_digits _
    · exact isWord_digits _
    · refine ⟨by simp, fun c brace => ?_, by decide⟩
      rw [mem_singleton.1 brace]
      decide
  | closer =>
    obtain rfl := mem_singleton.1 member
    exact isWord_sigil .blockClose
  | instruction i =>
    rcases mem_cons.1 member with rfl | operand
    · exact isWord_sigil i.opcode
    · obtain ⟨o, -, rfl⟩ := mem_map.1 operand
      exact isWord_text o

/-! ## Checks -/

/-- Operands that pass the check of an opcode. -/
def OperandsFit : List OperandKind → List Operand → Prop
  | _, [] => True
  | expected, o :: os =>
    accept? (expected.headD .value) o.kind = some [o] ∧ OperandsFit expected.tail os

theorem accept?_value_kind (o : Operand) : accept? .value o.kind = some [o] := by
  cases o <;> rfl

theorem accept?_dest_kind (slot : o.isSlot = true) : accept? .dest o.kind = some [o] := by
  cases o with
  | lit v => cases slot
  | global n | var n | arg n => rfl

theorem accept?_index_kind (index : expected = .label ∨ expected = .funcIndex ∨ expected = .count)
    {v : Value} (range : isIndex v = true) :
    accept? expected (Operand.lit v).kind = some [.lit v] := by
  rcases index with rfl | rfl | rfl <;> exact if_pos range

theorem operandsFit_values (os : List Operand) : OperandsFit [] os := by
  induction os with
  | nil => trivial
  | cons o os ih => exact ⟨accept?_value_kind o, ih⟩

theorem checkOperand_kind {t : Token} (kind : t.kind = o.kind)
    (accepted : accept? expected o.kind = some [o]) : checkOperand op expected t = .ok [o] := by
  have fits : o.kind ≠ .outOfRange := by
    cases o <;> simp [Operand.kind]
  rw [checkOperand, kind, if_neg fits, accepted]

theorem checkOperands_kinds {expected : List OperandKind} {ts : List Token} {os : List Operand}
    (kinds : ts.map Token.kind = os.map Operand.kind) (fit : OperandsFit expected os) :
    checkOperands op expected ts = .ok os := by
  induction os generalizing expected ts with
  | nil =>
    rw [map_eq_nil_iff.1 kinds, checkOperands]
  | cons o os ih =>
    obtain ⟨t, ts, rfl, kind, others⟩ := map_eq_cons_iff.1 kinds
    rw [checkOperands, checkOperand_kind kind fit.1, ih others fit.2]
    rfl

end LineForm

theorem Instruction.Shaped.operandsFit {i : Instruction} (shaped : i.Shaped) :
    LineForm.OperandsFit i.opcode.signature i.operands ∧
      i.opcode.takesCount i.operands.length = true ∧
      i.opcode ≠ .defineFunc ∧ i.opcode ≠ .blockClose := by
  have label {v : Value} (range : LineForm.isIndex v = true) :
      LineForm.accept? .label (Operand.lit v).kind = some [.lit v] :=
    LineForm.accept?_index_kind (.inl rfl) range
  cases shaped with
  | @assign dest a line slot | @not dest a line slot =>
    exact ⟨⟨LineForm.accept?_dest_kind slot, LineForm.accept?_value_kind a, trivial⟩, rfl, by simp⟩
  | @binary op dest a b line slot =>
    exact ⟨⟨LineForm.accept?_dest_kind slot, LineForm.accept?_value_kind a,
      LineForm.accept?_value_kind b, trivial⟩, rfl, by simp⟩
  | label range | jump range => exact ⟨⟨label range, trivial⟩, rfl, by simp⟩
  | @jumpIf a v line range =>
    exact ⟨⟨LineForm.accept?_value_kind a, label range, trivial⟩, rfl, by simp⟩
  | @call dest v args line slot range =>
    refine ⟨⟨LineForm.accept?_dest_kind slot, LineForm.accept?_index_kind (.inr (.inl rfl)) range,
      LineForm.operandsFit_values args⟩, ?_, by simp⟩
    simp [Opcode.takesCount, Opcode.isVariadic, Opcode.signature]
  | @ret a line | @output a line => exact ⟨⟨LineForm.accept?_value_kind a, trivial⟩, rfl, by simp⟩

namespace LineForm

variable {line : Nat} {ts : List Token}

theorem ofTokens_instruction {i : Instruction} (shaped : i.Shaped)
    (kinds : ts.map Token.kind = .opcode i.opcode :: i.operands.map Operand.kind) :
    ofTokens line ts = .ok (.instruction { i with line }) := by
  obtain ⟨head, operands, rfl, opcode, others⟩ := map_eq_cons_iff.1 kinds
  obtain ⟨fit, count, plain⟩ := shaped.operandsFit
  have length : operands.length = i.operands.length := by
    simpa using congrArg List.length others
  have form : ofOperands line i.opcode i.operands = .instruction { i with line } := by
    obtain ⟨op, os, number⟩ := i
    cases op <;> simp_all [ofOperands]
  simp only [ofTokens, opcode, ofOpcode, plain.1, false_and, if_false, length, count,
    checkOperands_kinds others fit]
  exact congrArg Except.ok form

theorem isIndex_ofIndex (n : UInt32) : isIndex (Value.ofIndex n) = true := by
  have small : n.toNat < 0x100000000 := n.toNat_lt
  rw [isIndex, Value.toInt_ofIndex, Bool.and_eq_true, decide_eq_true_eq, decide_eq_true_eq]
  omega

theorem ofWord_index (n : UInt32) :
    TokenKind.ofWord (digits n.toNat) = (Operand.lit (Value.ofIndex n)).kind := by
  rw [← ofWord_text, Operand.text, toList_text_ofIndex]

theorem ofTokens_opener {index paramCount : UInt32}
    (kinds : ts.map Token.kind = [.opcode .defineFunc, (Operand.lit (.ofIndex index)).kind,
      (Operand.lit (.ofIndex paramCount)).kind, .blockOpen]) :
    ofTokens line ts = .ok (.opener index paramCount) := by
  obtain ⟨head, ts, rfl, opcode, kinds⟩ := map_eq_cons_iff.1 kinds
  obtain ⟨first, ts, rfl, firstKind, kinds⟩ := map_eq_cons_iff.1 kinds
  obtain ⟨second, ts, rfl, secondKind, kinds⟩ := map_eq_cons_iff.1 kinds
  obtain ⟨brace, ts, rfl, braceKind, kinds⟩ := map_eq_cons_iff.1 kinds
  obtain rfl := map_eq_nil_iff.1 kinds
  have firstChecked : checkOperand .defineFunc .funcIndex first = .ok [.lit (.ofIndex index)] :=
    checkOperand_kind firstKind (accept?_index_kind (.inr (.inl rfl)) (isIndex_ofIndex index))
  have secondChecked : checkOperand .defineFunc .count second = .ok [.lit (.ofIndex paramCount)] :=
    checkOperand_kind secondKind (accept?_index_kind (.inr (.inr rfl)) (isIndex_ofIndex paramCount))
  have braceChecked : checkOperand .defineFunc .blockOpen brace = .ok [] := by
    rw [checkOperand, braceKind]
    rfl
  have checked : checkOperands .defineFunc Opcode.defineFunc.signature [first, second, brace] =
      .ok [.lit (.ofIndex index), .lit (.ofIndex paramCount)] := by
    simp only [Opcode.signature, checkOperands, headD_cons, tail_cons, firstChecked,
      secondChecked, braceChecked]
    rfl
  have last : [first, second, brace].getLast?.map Token.kind = some .blockOpen :=
    congrArg some braceKind
  have count : Opcode.defineFunc.takesCount [first, second, brace].length = true := rfl
  simp only [ofTokens, opcode, ofOpcode, last, ne_eq, not_true, and_false, if_false, count, checked,
    Bool.true_eq_false]
  exact congrArg Except.ok (by simp [ofOperands, indexAt, Operand.literal?])

theorem ofTokens_closer (kinds : ts.map Token.kind = [.opcode .blockClose]) :
    ofTokens line ts = .ok .closer := by
  obtain ⟨head, ts, rfl, opcode, kinds⟩ := map_eq_cons_iff.1 kinds
  obtain rfl := map_eq_nil_iff.1 kinds
  simp only [ofTokens, opcode]
  rfl

theorem ofTokens_written {form : LineForm} (written : form.Written) (line : Nat) :
    ofTokens line (Token.ofLine line (String.ofList (spaced form.words))) =
      .ok (form.onLine line) := by
  have kinds := kinds_ofLine (fun w (member : w ∈ form.words) => isWord_words member) line
  cases form with
  | empty => exact written.elim
  | opener index paramCount =>
    refine ofTokens_opener (kinds.trans ?_)
    simp only [words, map_cons, map_nil, ofWord_sigil, ofWord_index]
    rfl
  | closer => exact ofTokens_closer kinds
  | instruction i =>
    refine ofTokens_instruction written (kinds.trans ?_)
    simp only [words, map_cons, map_map, ofWord_sigil, List.cons.injEq, true_and]
    exact map_congr_left fun o _ => ofWord_text o

end LineForm

end SlotLang
