import SlotLang.Proofs.Grammar
import SlotLang.Proofs.Tokens
import SlotLang.Line

/-!
# Faults of operands

`OperandKind.Admits` says which words a position of a line takes. The check of a line walks over its
operands and stops at the first word that its position does not admit; `Misfit` is the fault that such
a word has. `operand_faults_exact` follows the check from one operand (`checkOperand_iff`) over the
operands (`checkOperands_eq_error`) to the line.
-/

open List

namespace SlotLang

/-- The words that an operand position takes. -/
def OperandKind.Admits (w : List Char) : OperandKind → Prop
  | .blockOpen => Lexical w .blockOpen
  | .dest => ∃ o, Lexical w (.slot o)
  | .value => (∃ o, Lexical w (.slot o)) ∨ ∃ v, Lexical w (.integer v)
  | .label | .funcIndex | .count =>
    ∃ v, Lexical w (.integer v) ∧ 0 ≤ v.toInt ∧ v.toInt < 0x100000000

/-- What an operand position of an opcode asks for: positions beyond the signature take values. -/
def Opcode.operandKind (op : Opcode) (k : Nat) : OperandKind :=
  op.signature[k]?.getD .value

/-- The fault of a word in a position that does not take it. -/
def Misfit (op : Opcode) (kind : OperandKind) (t : Token) (e : LineError) : Prop :=
  ¬kind.Admits t.text.toList ∧ e.span = t.span ∧
    (TooLarge t.text.toList ∧ e.fault = .outOfRange t.text ∨
      ¬TooLarge t.text.toList ∧ e.fault = .invalidOperand t.text op kind)

namespace LineForm

variable {op : Opcode} {kind : OperandKind} {t : Token} {e : LineError}

theorem accept?_isSome (w : List Char) (kind : OperandKind) :
    (accept? kind (.ofWord w)).isSome = true ↔ kind.Admits w := by
  constructor
  · intro taken
    have word : Lexical w (.ofWord w) := by
      refine lexical_ofWord fun invalid => ?_
      rw [invalid] at taken
      cases kind <;> cases taken
    generalize TokenKind.ofWord w = k at taken word
    cases kind with
    | blockOpen => cases k <;> first | exact word | cases taken
    | dest => cases k <;> first | exact ⟨_, word⟩ | cases taken
    | value => cases k <;> first | exact .inl ⟨_, word⟩ | exact .inr ⟨_, word⟩ | cases taken
    | label | funcIndex | count =>
      cases k with
      | integer v => exact ⟨v, word, by simpa [accept?, isIndex] using taken⟩
      | _ => cases taken
  · intro admitted
    cases kind with
    | blockOpen => rw [admitted.ofWord]; rfl
    | dest =>
      obtain ⟨o, word⟩ := admitted
      rw [word.ofWord]
      rfl
    | value =>
      rcases admitted with ⟨o, word⟩ | ⟨v, word⟩ <;> rw [word.ofWord] <;> rfl
    | label | funcIndex | count =>
      obtain ⟨v, word, range⟩ := admitted
      rw [word.ofWord]
      simp [accept?, isIndex, range]

/-- An operand passes its check if its position admits it, and has its fault otherwise. -/
theorem checkOperand_iff (op : Opcode) (kind : OperandKind) (read : t.kind = .ofWord t.text.toList) :
    ((∃ os, checkOperand op kind t = .ok os) ↔ kind.Admits t.text.toList) ∧
      ∀ e, checkOperand op kind t = .error e ↔ Misfit op kind t e := by
  have accepts := accept?_isSome t.text.toList kind
  have large : t.kind = .outOfRange ↔ TooLarge t.text.toList := by rw [read, ofWord_eq_outOfRange]
  have same (fault : LineFault) (e : LineError) :
      (.error ⟨fault, t.span⟩ : Except LineError (List Operand)) = .error e ↔
        e.span = t.span ∧ e.fault = fault := by
    cases e
    simp [eq_comm, and_comm]
  rw [← read] at accepts
  unfold checkOperand Misfit
  rw [← large, ← accepts]
  by_cases out : t.kind = .outOfRange
  · have refused : accept? kind .outOfRange = none := by cases kind <;> rfl
    simp [out, refused, same]
  · cases accept? kind t.kind <;> simp [out, same]

/-- The check of the operands ends at the first one that does not fit. -/
theorem checkOperands_eq_error {ts : List Token} (expected : List OperandKind)
    (read : ∀ t ∈ ts, t.kind = .ofWord t.text.toList) :
    checkOperands op expected ts = .error e ↔ ∃ before t after, ts = before ++ t :: after ∧
      (∀ (k : Nat) (u : Token), before[k]? = some u →
        (expected[k]?.getD .value).Admits u.text.toList) ∧
      Misfit op (expected[before.length]?.getD .value) t e := by
  induction ts generalizing expected with
  | nil => simp [checkOperands]
  | cons t ts ih =>
    rw [forall_mem_cons] at read
    have rest := ih expected.tail read.2
    have first : expected.headD .value = expected[0]?.getD .value := by cases expected <;> rfl
    have checked := checkOperand_iff op (expected.headD .value) read.1
    rw [first] at checked
    rw [checkOperands, bind_eq_error, first, checked.2]
    constructor
    · rintro (misfit | ⟨os, passed, later⟩)
      · exact ⟨[], t, ts, rfl, by simp, misfit⟩
      · rcases bind_eq_error.1 later with later | ⟨os', -, nothing⟩
        · obtain ⟨before, u, after, rfl, admitted, misfit⟩ := rest.1 later
          refine ⟨t :: before, u, after, rfl, fun k v found => ?_, by simpa using misfit⟩
          cases k with
          | zero =>
            cases found
            exact checked.1.1 ⟨os, passed⟩
          | succ k => simpa using admitted k v found
        · cases nothing
    · rintro ⟨before, u, after, split, admitted, misfit⟩
      cases before with
      | nil =>
        cases split
        exact .inl misfit
      | cons v before =>
        cases split
        obtain ⟨os, passed⟩ := checked.1.2 (admitted 0 _ rfl)
        refine .inr ⟨os, passed, bind_eq_error.2 (.inl (rest.2 ⟨before, u, after, rfl, ?_, ?_⟩))⟩
        · intro k v found
          simpa using admitted (k + 1) v found
        · simpa using misfit

/-- A line has a fault in an operand only if its end and the number of its words are right. -/
theorem ofOpcode_eq_error {line : Nat} {head : Span} {ts : List Token}
    (operand : e.fault.code = 102 ∨ e.fault.code = 103) : ofOpcode line op head ts = .error e ↔
      (op = .defineFunc → ts.getLast?.map Token.kind = some .blockOpen) ∧
        op.takesCount ts.length = true ∧ checkOperands op op.signature ts = .error e := by
  have other {fault : LineFault} (code : fault.code ≠ 102 ∧ fault.code ≠ 103) :
      (throw ⟨fault, head⟩ : Except LineError LineForm) ≠ .error e := by
    rintro ⟨⟩
    tauto
  unfold ofOpcode
  by_cases brace : op = .defineFunc ∧ ts.getLast?.map Token.kind ≠ some .blockOpen
  · rw [if_pos brace]
    exact ⟨fun failed => absurd failed (other (by simp [LineFault.code])),
      fun right => absurd (right.1 brace.1) brace.2⟩
  · have right : op = .defineFunc → ts.getLast?.map Token.kind = some .blockOpen := by tauto
    rw [if_neg brace]
    cases count : op.takesCount ts.length with
    | false =>
      exact ⟨fun failed => absurd failed (other (by simp [LineFault.code])), by simp⟩
    | true =>
      refine Iff.trans bind_eq_error ?_
      simp only [pure, Except.pure, reduceCtorEq, and_false, exists_false, or_false, true_and]
      exact ⟨fun failed => ⟨right, failed⟩, And.right⟩

end LineForm

theorem Misfit.code {op : Opcode} {kind : OperandKind} {t : Token} {e : LineError}
    (misfit : Misfit op kind t e) : e.fault.code = 102 ∨ e.fault.code = 103 := by
  rcases misfit.2.2 with ⟨-, fault⟩ | ⟨-, fault⟩ <;> simp [fault, LineFault.code]

theorem text_of_mem_ofLine {line : Nat} {text : String} {t : Token}
    (member : t ∈ Token.ofLine line text) :
    t.text.toList = (text.toList.drop (t.span.column - 1)).take (t.span.endColumn - t.span.column) := by
  obtain ⟨w, taken, rfl⟩ := mem_map.1 member
  obtain ⟨before, after, same, place, -⟩ := mem_fromColumn.1 (takeWhile_subset _ taken)
  have column : w.column - 1 = before.length := by omega
  simp [Token.ofWord, same, column]

/-- **Faults of operands are about the first word that does not fit.** The check of a line reports a
fault in an operand exactly if the line starts with a sigil, has the words that its opcode takes, and one
of them is not what its position asks for. The fault is that of the first such word and stands under it:
the number is out of range if the word is a numeral outside of 64 bits, or digits that are no 32-bit
number behind any character but a digit or a minus sign; any other word is an invalid operand. -/
theorem operand_faults_exact (line : Nat) (text : String) (e : LineError) :
    LineForm.ofText line text = .error e ∧ (e.fault.code = 102 ∨ e.fault.code = 103) ↔
      ∃ (op : Opcode) (head : Token) (before : List Token) (t : Token) (after : List Token),
        Token.ofLine line text = head :: (before ++ t :: after) ∧ head.kind = .opcode op ∧
        (op = .defineFunc → (before ++ t :: after).getLast?.map Token.kind = some .blockOpen) ∧
        op.takesCount (before ++ t :: after).length = true ∧
        (∀ (k : Nat) (u : Token), before[k]? = some u → (op.operandKind k).Admits u.text.toList) ∧
        Misfit op (op.operandKind before.length) t e ∧ t.text.toList =
          (text.toList.drop (e.span.column - 1)).take (e.span.endColumn - e.span.column) := by
  have read : ∀ t ∈ Token.ofLine line text, t.kind = .ofWord t.text.toList := by
    intro t member
    obtain ⟨w, -, rfl⟩ := mem_map.1 member
    simp [Token.ofWord]
  unfold LineForm.ofText
  constructor
  · rintro ⟨failed, code⟩
    cases found : Token.ofLine line text with
    | nil =>
      rw [found] at failed
      cases failed
    | cons head ts =>
      rw [found, forall_mem_cons] at read
      rw [found, LineForm.ofTokens] at failed
      split at failed
      · next op kind =>
        obtain ⟨last, count, failed⟩ := (LineForm.ofOpcode_eq_error code).1 failed
        obtain ⟨before, t, after, rfl, admitted, misfit⟩ :=
          (LineForm.checkOperands_eq_error _ read.2).1 failed
        have member : t ∈ Token.ofLine line text := by simp [found]
        exact ⟨op, head, before, t, after, rfl, kind, last, count, admitted, misfit,
          misfit.2.1 ▸ text_of_mem_ofLine member⟩
      · cases failed
        simp [LineFault.code] at code
  · rintro ⟨op, head, before, t, after, found, kind, last, count, admitted, misfit, -⟩
    rw [found, forall_mem_cons] at read
    refine ⟨?_, misfit.code⟩
    simp only [found, LineForm.ofTokens, kind]
    exact (LineForm.ofOpcode_eq_error misfit.code).2
      ⟨last, count, (LineForm.checkOperands_eq_error _ read.2).2
        ⟨before, t, after, rfl, admitted, misfit⟩⟩

/-- The number is judged before the letter, which begins neither a numeral nor a slot. -/
theorem unknown_letter_out_of_range :
    LineForm.ofText 1 "= g0 x99999999999" = .error ⟨.outOfRange "x99999999999", ⟨1, 6, 18⟩⟩ ∧
      (∀ i, ¬WritesInt "x99999999999".toList i) ∧
      "x99999999999".toList.head? ∉ [some 'g', some 'v', some 'a'] := by
  refine ⟨by cbv, fun i written => ?_, by decide⟩
  exact absurd (writesInt_iff.1 written).1 (by decide)

end SlotLang
