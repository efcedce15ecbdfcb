import Mathlib.Data.Int.Bitwise
import SlotLang.Proofs.Script.Arithmetic

/-!
# The text of the helper functions

The helper functions are short enough to be written down as syntax trees. Printing the trees gives the
lines in front of a script, and running them, on integers of any size and with division that rounds
down, gives `wrap`, `divide` and `rest`.
-/

namespace SlotLang.Script

/-! ## Syntax -/

inductive Sign where
  | minus | quotient | remainder | less | greater | atLeast | equal

inductive Formula where
  | name (n : String)
  | zero
  | hex (n : Nat)
  | abs (e : Formula)
  | neg (e : Formula)
  | binary (sign : Sign) (a b : Formula)
  | grouped (e : Formula)
  | choice (yes test no : Formula)

inductive Command where
  | assign (n : String) (e : Formula)
  /-- Keeps the bits of a variable that a mask has. -/
  | mask (n : String) (e : Formula)
  | raiseIf (test : Formula) (kind message : String)
  | ret (e : Formula)

structure Helper where
  name : String
  params : List String
  body : List Command

def Sign.text : Sign → String
  | minus => "-"
  | quotient => "//"
  | remainder => "%"
  | less => "<"
  | greater => ">"
  | atLeast => ">="
  | equal => "=="

def Formula.text : Formula → String
  | name n => n
  | zero => "0"
  | hex n => "0x" ++ String.ofList ((Nat.toDigits 16 n).map Char.toUpper)
  | abs e => "abs(" ++ e.text ++ ")"
  | neg e => "-" ++ e.text
  | binary sign a b => a.text ++ " " ++ sign.text ++ " " ++ b.text
  | grouped e => "(" ++ e.text ++ ")"
  | choice yes test no => yes.text ++ " if " ++ test.text ++ " else " ++ no.text

def Command.lines : Command → List String
  | assign n e => [lineAt 1 (n ++ " = " ++ e.text)]
  | mask n e => [lineAt 1 (n ++ " &= " ++ e.text)]
  | raiseIf test kind message =>
    [lineAt 1 ("if " ++ test.text ++ ":"), lineAt 2 ("raise " ++ kind ++ "(\"" ++ message ++ "\")")]
  | ret e => [lineAt 1 ("return " ++ e.text)]

def Helper.lines (h : Helper) : List String :=
  ("def " ++ h.name ++ "(" ++ commaList h.params ++ "):") :: h.body.flatMap Command.lines

/-! ## Meaning -/

/-- Division rounds down, and a truth value is an integer. -/
def Sign.apply (x y : Int) : Sign → Except Exception Int
  | minus => .ok (x - y)
  | quotient => if y = 0 then .error .zeroDivision else .ok (x.fdiv y)
  | remainder => if y = 0 then .error .zeroDivision else .ok (x.fmod y)
  | less => .ok (ofBool (x < y))
  | greater => .ok (ofBool (x > y))
  | atLeast => .ok (ofBool (x ≥ y))
  | equal => .ok (ofBool (x = y))

def Formula.eval (vars : Variables) : Formula → Except Exception Int
  | name n => (vars n).elim (.error (.name n)) .ok
  | zero => .ok 0
  | hex n => .ok n
  | abs e => do return (← e.eval vars).natAbs
  | neg e => do return -(← e.eval vars)
  | binary sign a b => do sign.apply (← a.eval vars) (← b.eval vars)
  | grouped e => e.eval vars
  | choice yes test no => do if (← test.eval vars) ≠ 0 then yes.eval vars else no.eval vars

def Exception.ofKind (kind message : String) : Exception :=
  if kind = "ZeroDivisionError" then .zeroDivision
  else if kind = "OverflowError" then .overflow
  else .runtime message

/-- Runs a body. What returns nothing gives no integer. -/
def runBody (vars : Variables) : List Command → Except Exception Int
  | [] => .error .type
  | .assign n e :: rest => do runBody (vars.set n (← e.eval vars)) rest
  | .mask n e :: rest => do
    runBody (vars.set n ((← (Formula.name n).eval vars).land (← e.eval vars))) rest
  | .raiseIf test kind message :: rest => do
    if (← test.eval vars) ≠ 0 then .error (.ofKind kind message) else runBody vars rest
  | .ret e :: _ => e.eval vars

def Helper.call (h : Helper) (args : List Int) : Except Exception Int :=
  if args.length = h.params.length then runBody (fun n => (h.params.zip args).lookup n) h.body
  else .error .type

/-! ## The three functions -/

def wrapHelper : Helper where
  name := "_wrap"
  params := ["x"]
  body :=
    [.mask "x" (.hex 0xFFFFFFFFFFFFFFFF),
      .ret (.choice (.binary .minus (.name "x") (.hex 0x10000000000000000))
        (.binary .atLeast (.name "x") (.hex 0x8000000000000000)) (.name "x"))]

def failOnZero : Command :=
  .raiseIf (.binary .equal (.name "b") .zero) "ZeroDivisionError" "division by zero"

def isNegative (n : String) : Formula :=
  .binary .less (.name n) .zero

def divHelper : Helper where
  name := "_div"
  params := ["a", "b"]
  body :=
    [failOnZero,
      .assign "q" (.binary .quotient (.abs (.name "a")) (.abs (.name "b"))),
      .assign "q" (.choice (.name "q")
        (.binary .equal (.grouped (isNegative "a")) (.grouped (isNegative "b"))) (.neg (.name "q"))),
      .raiseIf (.binary .greater (.name "q") (.hex 0x7FFFFFFFFFFFFFFF)) "OverflowError"
        "division overflow",
      .ret (.name "q")]

def remHelper : Helper where
  name := "_rem"
  params := ["a", "b"]
  body :=
    [failOnZero,
      .assign "r" (.binary .remainder (.abs (.name "a")) (.abs (.name "b"))),
      .ret (.choice (.neg (.name "r")) (isNegative "a") (.name "r"))]

theorem lines_helpers :
    ["", ""].intercalate ([wrapHelper, divHelper, remHelper].map Helper.lines) = helperLines := by
  decide +kernel

/-! ## Running them -/

theorem land_mask (x : Int) : x.land 0xFFFFFFFFFFFFFFFF = x % 0x10000000000000000 := by
  cases x with
  | ofNat n => exact congrArg Int.ofNat (Nat.and_two_pow_sub_one_eq_mod n 64)
  | negSucc n =>
    have bits : Nat.ldiff (2 ^ 64 - 1) n = 2 ^ 64 - (n % 2 ^ 64 + 1) := by
      refine Nat.eq_of_testBit_eq fun i => ?_
      rw [Nat.testBit_ldiff, Nat.testBit_two_pow_sub_one,
        Nat.testBit_two_pow_sub_succ (Nat.mod_lt _ (by decide)), Nat.testBit_mod_two_pow]
      by_cases low : i < 64 <;> simp [low]
    change ((Nat.ldiff (2 ^ 64 - 1) n : Nat) : Int) = _
    rw [bits]
    omega

theorem ofBool_ne_zero (b : Bool) : ofBool b ≠ 0 ↔ b = true := by
  cases b <;> decide

theorem ofBool_inj (b c : Bool) : ofBool b = ofBool c ↔ (b = true ↔ c = true) := by
  cases b <;> cases c <;> decide

theorem call_wrapHelper (x : Int) : wrapHelper.call [x] = .ok (wrap x) := by
  have run : wrapHelper.call [x] =
      if ofBool (x.land 0xFFFFFFFFFFFFFFFF ≥ 0x8000000000000000) ≠ 0 then
        .ok (x.land 0xFFFFFFFFFFFFFFFF - 0x10000000000000000)
      else .ok (x.land 0xFFFFFFFFFFFFFFFF) := by rfl
  rw [run, wrap]
  simp only [ofBool_ne_zero, land_mask, decide_eq_true_iff]
  split <;> rfl

theorem call_divHelper (a b : Int) : divHelper.call [a, b] = divide a b := by
  have run : divHelper.call [a, b] =
      if ofBool (b = 0) ≠ 0 then .error .zeroDivision
      else Sign.quotient.apply a.natAbs b.natAbs >>= fun q =>
        (if ofBool (ofBool (a < 0) = ofBool (b < 0)) ≠ 0 then .ok q else .ok (-q)) >>= fun q =>
          if ofBool (q > 0x7FFFFFFFFFFFFFFF) ≠ 0 then .error .overflow else .ok q := by rfl
  rw [run, divide]
  simp only [ofBool_ne_zero, ofBool_inj, decide_eq_true_iff]
  by_cases zero : b = 0
  · rw [if_pos zero, if_pos zero]
  · have quotient : Sign.quotient.apply a.natAbs b.natAbs = .ok (a.natAbs / b.natAbs) := by
      rw [Sign.apply, if_neg (by omega), Int.fdiv_eq_ediv_of_nonneg _ (Int.natCast_nonneg _)]
    rw [if_neg zero, if_neg zero, quotient]
    by_cases signs : a < 0 ↔ b < 0
    · simp only [if_pos signs]
      rfl
    · simp only [if_neg signs]
      rfl

theorem call_remHelper (a b : Int) : remHelper.call [a, b] = rest a b := by
  have run : remHelper.call [a, b] =
      if ofBool (b = 0) ≠ 0 then .error .zeroDivision
      else Sign.remainder.apply a.natAbs b.natAbs >>= fun r =>
        if ofBool (a < 0) ≠ 0 then .ok (-r) else .ok r := by rfl
  rw [run, rest]
  simp only [ofBool_ne_zero, decide_eq_true_iff]
  by_cases zero : b = 0
  · rw [if_pos zero, if_pos zero]
  · have remainder : Sign.remainder.apply a.natAbs b.natAbs = .ok (a.natAbs % b.natAbs) := by
      rw [Sign.apply, if_neg (by omega), Int.fmod_eq_emod_of_nonneg _ (Int.natCast_nonneg _)]
    rw [if_neg zero, if_neg zero, remainder]
    change (if a < 0 then _ else _) = _
    split <;> rfl

/-! ## The arithmetic of values -/

theorem wrap_unique (x v : Int) : v = wrap x ↔
    -0x8000000000000000 ≤ v ∧ v < 0x8000000000000000 ∧
      v % 0x10000000000000000 = x % 0x10000000000000000 := by
  rw [wrap]
  split <;> omega

theorem Follows.error_iff {exact : Except Exception Int} {done : Except Cause Value} {c : Cause}
    {e : Exception} (follows : Follows exact done) (only : ∀ d, exception? d = some e ↔ d = c) :
    exact = .error e ↔ done = .error c := by
  cases done with
  | ok v =>
    rw [show exact = .ok v.toInt from follows]
    exact ⟨nofun, nofun⟩
  | error d =>
    obtain ⟨e', known, rfl⟩ := follows
    constructor <;> intro same <;> cases same
    · rw [(only d).1 known]
    · rw [← Option.some.inj (known.symm.trans ((only c).2 rfl))]

theorem exception?_zeroDivision (c : Cause) :
    exception? c = some .zeroDivision ↔ c = .divisionByZero := by
  cases c <;> simp [exception?]

theorem exception?_overflow (c : Cause) :
    exception? c = some .overflow ↔ c = .divisionOverflow := by
  cases c <;> simp [exception?]

/-- The helper functions, as they stand in the text, compute as the machine does: `_wrap` gives the
only value that agrees with an integer modulo 64 bits, and `_div` and `_rem` give the quotient and
the remainder or raise where the machine fails. -/
theorem helpers_compute_on_values :
    ["", ""].intercalate ([wrapHelper, divHelper, remHelper].map Helper.lines) = helperLines ∧
    (∀ x, ∃ w, wrapHelper.call [x] = .ok w ∧ ∀ v : Int, v = w ↔
      -0x8000000000000000 ≤ v ∧ v < 0x8000000000000000 ∧
        v % 0x10000000000000000 = x % 0x10000000000000000) ∧
    ∀ a b : Value,
      Follows (wrapHelper.call [a.toInt + b.toInt]) (BinaryOp.add.apply a b) ∧
      Follows (wrapHelper.call [a.toInt - b.toInt]) (BinaryOp.sub.apply a b) ∧
      Follows (wrapHelper.call [a.toInt * b.toInt]) (BinaryOp.mul.apply a b) ∧
      Follows (divHelper.call [a.toInt, b.toInt]) (BinaryOp.div.apply a b) ∧
      Follows (remHelper.call [a.toInt, b.toInt]) (BinaryOp.rem.apply a b) ∧
      (divHelper.call [a.toInt, b.toInt] = .error .zeroDivision ↔
        BinaryOp.div.apply a b = .error .divisionByZero) ∧
      (divHelper.call [a.toInt, b.toInt] = .error .overflow ↔
        BinaryOp.div.apply a b = .error .divisionOverflow) ∧
      (remHelper.call [a.toInt, b.toInt] = .error .zeroDivision ↔
        BinaryOp.rem.apply a b = .error .divisionByZero) ∧
      ∀ e, remHelper.call [a.toInt, b.toInt] = .error e → e = .zeroDivision := by
  refine ⟨lines_helpers, fun x => ⟨wrap x, call_wrapHelper x, wrap_unique x⟩, fun a b => ?_⟩
  simp only [call_wrapHelper, call_divHelper, call_remHelper]
  have quotient := divide_follows a b
  have remainder := rest_follows a b
  refine ⟨congrArg _ (wrap_add a b), congrArg _ (wrap_sub a b), congrArg _ (wrap_mul a b), quotient,
    remainder, quotient.error_iff exception?_zeroDivision, quotient.error_iff exception?_overflow,
    remainder.error_iff exception?_zeroDivision, fun e raised => ?_⟩
  unfold rest at raised
  split at raised <;> cases raised
  rfl

end SlotLang.Script
