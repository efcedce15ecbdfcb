import SlotLang.Machine.Fault
import SlotLang.Proofs.Script.Meaning
import SlotLang.Script.Emit

/-!
# The helper functions compute on values

On integers that are values, the exact operations followed by `wrap` are the operations on values,
and `divide` and `rest` give the quotient and the remainder of values or raise where those fail.
-/

namespace SlotLang.Script

/-- The exception that a failed operation corresponds to. -/
def exception? : Cause → Option Exception
  | .divisionByZero => some .zeroDivision
  | .divisionOverflow => some .overflow
  | _ => none

theorem wrap_eq_bmod (x : Int) : wrap x = x.bmod 0x10000000000000000 := by
  rw [Int.bmod_def, wrap]
  split <;> split <;> omega

theorem wrap_add (a b : Value) : wrap (a.toInt + b.toInt) = (a + b).toInt := by
  rw [wrap_eq_bmod, Int64.toInt_add]

theorem wrap_sub (a b : Value) : wrap (a.toInt - b.toInt) = (a - b).toInt := by
  rw [wrap_eq_bmod, Int64.toInt_sub]

theorem wrap_mul (a b : Value) : wrap (a.toInt * b.toInt) = (a * b).toInt := by
  rw [wrap_eq_bmod, Int64.toInt_mul]

theorem toInt_eq_zero {v : Value} : v.toInt = 0 ↔ v = 0 :=
  Int64.toInt_inj (y := 0)

theorem signed_quotient (a b : Int) :
    (if a < 0 ↔ b < 0 then (a.natAbs / b.natAbs : Int) else -(a.natAbs / b.natAbs : Int)) =
      a.tdiv b := by
  have nonneg : ∀ n : Nat, ((n : Int) < 0) = False := fun n => eq_false (by omega)
  rcases a with a | a <;> rcases b with b | b <;> simp [Int.tdiv, Int.negSucc_lt_zero, nonneg]

theorem signed_remainder (a b : Int) :
    (if a < 0 then -(a.natAbs % b.natAbs : Int) else (a.natAbs % b.natAbs : Int)) = a.tmod b := by
  have nonneg : ∀ n : Nat, ((n : Int) < 0) = False := fun n => eq_false (by omega)
  rcases a with a | a <;> rcases b with b | b <;> simp [Int.tmod, Int.negSucc_lt_zero, nonneg]

/-- Where neither operand stands for the overflow, the quotient is exact. -/
theorem toInt_div {a b : Value} (fits : ¬ (a = Int64.minValue ∧ b = -1)) :
    (a / b).toInt = a.toInt.tdiv b.toInt := by
  by_cases least : a = Int64.minValue
  · exact Int64.toInt_div_of_ne_right a b fun minus => fits ⟨least, minus⟩
  · exact Int64.toInt_div_of_ne_left a b least

theorem toInt_le (v : Value) : v.toInt ≤ 0x7FFFFFFFFFFFFFFF := by
  have bound := v.toInt_lt
  omega

/-- What the exact counterpart of an operation gives. -/
def Follows (exact : Except Exception Int) : Except Cause Value → Prop
  | .ok v => exact = .ok v.toInt
  | .error c => ∃ e, exception? c = some e ∧ exact = .error e

theorem divide_follows (a b : Value) :
    Follows (divide a.toInt b.toInt) (BinaryOp.div.apply a b) := by
  unfold BinaryOp.apply divide
  by_cases zero : b = 0
  · simp only [if_pos zero, if_pos (toInt_eq_zero.2 zero)]
    exact ⟨_, rfl, rfl⟩
  · simp only [if_neg zero, if_neg (mt toInt_eq_zero.1 zero), signed_quotient]
    by_cases overflow : a = Int64.minValue ∧ b = -1
    · rw [if_pos overflow, overflow.1, overflow.2]
      exact ⟨_, rfl, rfl⟩
    · rw [if_neg overflow, ← toInt_div overflow, if_neg (by have := toInt_le (a / b); omega)]
      rfl

theorem rest_follows (a b : Value) : Follows (rest a.toInt b.toInt) (BinaryOp.rem.apply a b) := by
  unfold BinaryOp.apply rest
  by_cases zero : b = 0
  · simp only [if_pos zero, if_pos (toInt_eq_zero.2 zero)]
    exact ⟨_, rfl, rfl⟩
  · simp only [if_neg zero, if_neg (mt toInt_eq_zero.1 zero), signed_remainder]
    rw [← Int64.toInt_mod]
    rfl

theorem ofBool_eq_toInt (b : Bool) : ofBool b = (Value.ofBool b).toInt := by
  cases b <;> rfl

theorem term_follows {s : State} (op : BinaryOp) {a b : Operand} {x y : Value}
    (left : s.operand a = .ok x.toInt) (right : s.operand b = .ok y.toInt) :
    Follows (s.term (.ofBinary op a b)) (op.apply x y) := by
  have both : ∀ f : Int → Int → Except Exception Int,
      (do f (← s.operand a) (← s.operand b)) = f x.toInt y.toInt := by
    intro f
    rw [left, right]
    rfl
  cases op with
  | add => exact (both fun x y => .ok (wrap (x + y))).trans (congrArg _ (wrap_add x y))
  | sub => exact (both fun x y => .ok (wrap (x - y))).trans (congrArg _ (wrap_sub x y))
  | mul => exact (both fun x y => .ok (wrap (x * y))).trans (congrArg _ (wrap_mul x y))
  | div =>
    change Follows (do divide (← s.operand a) (← s.operand b)) _
    rw [both]
    exact divide_follows x y
  | rem =>
    change Follows (do rest (← s.operand a) (← s.operand b)) _
    rw [both]
    exact rest_follows x y
  | lt =>
    refine (both fun x y => .ok (ofBool (x < y))).trans (congrArg _ ?_)
    rw [ofBool_eq_toInt, decide_eq_decide.2 Int64.lt_iff_toInt_lt.symm]
  | gt =>
    refine (both fun x y => .ok (ofBool (x > y))).trans (congrArg _ ?_)
    rw [ofBool_eq_toInt, decide_eq_decide.2 (Int64.lt_iff_toInt_lt (x := y) (y := x)).symm]
  | eq =>
    refine (both fun x y => .ok (ofBool (x = y))).trans (congrArg _ ?_)
    rw [ofBool_eq_toInt, decide_eq_decide.2 Int64.toInt_inj]
  | and =>
    change (do if (← s.operand a) ≠ 0 then return ofBool ((← s.operand b) ≠ 0) else return 0) = _
    rw [left, right, Bool.decide_and]
    change (if x.toInt ≠ 0 then Except.ok (ofBool (y.toInt ≠ 0)) else .ok 0) = _
    by_cases zero : x = 0
    · simp [zero, Value.ofBool]
    · rw [if_pos (mt toInt_eq_zero.1 zero), ofBool_eq_toInt]
      simp [zero, toInt_eq_zero]
  | or =>
    change (do if (← s.operand a) ≠ 0 then return 1 else return ofBool ((← s.operand b) ≠ 0)) = _
    rw [left, right, Bool.decide_or]
    change (if x.toInt ≠ 0 then Except.ok 1 else .ok (ofBool (y.toInt ≠ 0))) = _
    by_cases zero : x = 0
    · rw [if_neg (not_not_intro (toInt_eq_zero.2 zero)), ofBool_eq_toInt]
      simp [zero, toInt_eq_zero]
    · rw [if_pos (mt toInt_eq_zero.1 zero)]
      simp [zero, Value.ofBool]

end SlotLang.Script
