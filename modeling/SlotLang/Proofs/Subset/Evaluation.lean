import Mathlib.Data.Int.Basic
import SlotLang.Proofs.Subset.Meaning
import SlotLang.Subset.Lower

/-!
# What evaluations can do

Evaluating an expression leaves the locals alone, and all of the memory if the expression is free of
effects; then it also gives a value. Expressions that lowering takes for truth values are so. The
quotient and the remainder rounded down are the truncating ones with a correction.
-/

namespace SlotLang.Subset

variable {α β : Type} {a b : Value} {es : List Expr} {mem mem' : Memory}

/-- What an evaluation gives, and the memory afterwards. -/
def Eval.result (x : Eval α) (mem : Memory) : Except Stop α × Memory :=
  x.run.run mem

theorem result_bind (x : Eval α) (f : α → Eval β) (mem : Memory) :
    (x >>= f).result mem =
      match x.result mem with
      | (.ok a, mem') => (f a).result mem'
      | (.error stop, mem') => (.error stop, mem') := by
  change StateT.run (ExceptT.bindCont f (x.result mem).1) (x.result mem).2 = _
  rcases x.result mem with ⟨_ | _, _⟩ <;> rfl

theorem result_bind_eq_ok {x : Eval α} {f : α → Eval β} {b : β} :
    (x >>= f).result mem = (.ok b, mem') ↔
      ∃ a mem₁, x.result mem = (.ok a, mem₁) ∧ (f a).result mem₁ = (.ok b, mem') := by
  rw [result_bind]
  rcases x.result mem with ⟨stop | a, mem₁⟩
  · simp
  · constructor
    · exact fun result => ⟨a, mem₁, rfl, result⟩
    · rintro ⟨a', mem₂, same, result⟩
      cases same
      exact result

theorem result_bind_of_ok {x : Eval α} {f : α → Eval β} {mem₁ : Memory} {a : α}
    (first : x.result mem = (.ok a, mem₁)) : (x >>= f).result mem = (f a).result mem₁ := by
  rw [result_bind, first]

@[simp] theorem result_pure (a : α) (mem : Memory) : (pure a : Eval α).result mem = (.ok a, mem) :=
  rfl

@[simp] theorem result_ofExcept (x : Except Stop α) (mem : Memory) :
    (Eval.ofExcept x).result mem = (x, mem) :=
  rfl

/-! ## Expressions without effects -/

theorem Arith.apply_ok {op : Arith} (notDiv : op ≠ .floorDiv) (notMod : op ≠ .floorMod) (a b : Value) :
    ∃ v, op.apply a b = .ok v := by
  cases op with
  | add | sub | mul => exact ⟨_, rfl⟩
  | floorDiv => exact absurd rfl notDiv
  | floorMod => exact absurd rfl notMod

theorem evalAll_singleton (s : Setting) (e : Expr) :
    evalAll s [e] = e.eval s >>= fun v => pure [v] := by
  rw [evalAll, evalAll]
  rfl

theorem length_of_evalAll (s : Setting) {vs : List Value}
    (result : (evalAll s es).result mem = (.ok vs, mem')) : vs.length = es.length := by
  induction es generalizing mem vs with
  | nil =>
    cases result
    rfl
  | cons e es ih =>
    obtain ⟨v, mem₁, -, rest⟩ := result_bind_eq_ok.1 result
    obtain ⟨ws, mem₂, others, last⟩ := result_bind_eq_ok.1 rest
    cases last
    rw [List.length_cons, List.length_cons, ih others]

theorem result_passthrough (s : Setting) {callee : String} (pass : isPassthrough callee = true)
    (e : Expr) (mem : Memory) :
    ((Expr.call callee [e]).eval s).result mem = (e.eval s).result mem := by
  have names : callee = "int" ∨ callee = "_wrap" := by
    simpa [isPassthrough] using pass
  rw [Expr.eval, evalAll_singleton, result_bind, result_bind]
  rcases (e.eval s).result mem with ⟨stop | v, mem'⟩
  · rfl
  · change (s.apply callee [v]).result mem' = _
    rw [Setting.apply, if_pos names]
    rfl

/-- An expression without effects gives a value and leaves the memory alone. -/
theorem result_of_isEffectFree (s : Setting) (e : Expr) (free : e.isEffectFree = true)
    (mem : Memory) : ∃ v, (e.eval s).result mem = (.ok v, mem) := by
  match e with
  | .int v => exact ⟨v, rfl⟩
  | .name id => exact ⟨_, rfl⟩
  | .neg e =>
    obtain ⟨v, value⟩ := result_of_isEffectFree s e free mem
    exact ⟨-v, result_bind_of_ok value⟩
  | .not e =>
    obtain ⟨v, value⟩ := result_of_isEffectFree s e free mem
    exact ⟨_, result_bind_of_ok value⟩
  | .arith op a b =>
    have parts : op ≠ .floorDiv ∧ op ≠ .floorMod ∧ a.isEffectFree = true ∧ b.isEffectFree = true := by
      cases op <;> simp_all [Expr.isEffectFree]
    obtain ⟨x, left⟩ := result_of_isEffectFree s a parts.2.2.1 mem
    obtain ⟨y, right⟩ := result_of_isEffectFree s b parts.2.2.2 mem
    obtain ⟨v, result⟩ := Arith.apply_ok parts.1 parts.2.1 x y
    refine ⟨v, ?_⟩
    rw [Expr.eval, result_bind_of_ok left, result_bind_of_ok right, result_ofExcept, result]
  | .compare op a b =>
    rw [Expr.isEffectFree, Bool.and_eq_true] at free
    obtain ⟨x, left⟩ := result_of_isEffectFree s a free.1 mem
    obtain ⟨y, right⟩ := result_of_isEffectFree s b free.2 mem
    refine ⟨.ofBool (op.holds x y), ?_⟩
    rw [Expr.eval, result_bind_of_ok left, result_bind_of_ok right, result_pure]
  | .connect op a b =>
    rw [Expr.isEffectFree, Bool.and_eq_true] at free
    obtain ⟨x, left⟩ := result_of_isEffectFree s a free.1 mem
    obtain ⟨y, right⟩ := result_of_isEffectFree s b free.2 mem
    rw [Expr.eval, result_bind_of_ok left]
    split_ifs
    · exact ⟨x, rfl⟩
    · exact ⟨y, right⟩
  | .call callee [e] =>
    rw [Expr.isEffectFree, Bool.and_eq_true] at free
    rw [result_passthrough s free.1]
    exact result_of_isEffectFree s e free.2 mem

theorem evalAll_of_isEffectFree (s : Setting) (free : ∀ e ∈ es, e.isEffectFree = true)
    (mem : Memory) : ∃ vs, (evalAll s es).result mem = (.ok vs, mem) := by
  induction es with
  | nil => exact ⟨[], rfl⟩
  | cons e es ih =>
    obtain ⟨v, first⟩ := result_of_isEffectFree s e (free e List.mem_cons_self) mem
    obtain ⟨vs, rest⟩ := ih fun e' member => free e' (List.mem_cons_of_mem _ member)
    refine ⟨v :: vs, ?_⟩
    rw [evalAll, result_bind_of_ok first, result_bind_of_ok rest, result_pure]

/-! ## Locals -/

/-- An evaluation that gives a value leaves the locals as they were. -/
def Eval.KeepsLocals (x : Eval α) : Prop :=
  ∀ mem a mem', x.result mem = (.ok a, mem') → mem'.locals = mem.locals

namespace Eval.KeepsLocals

theorem pure (a : α) : (Pure.pure a : Eval α).KeepsLocals := by
  intro mem a' mem' result
  cases result
  rfl

theorem ofExcept (x : Except Stop α) : (Eval.ofExcept x).KeepsLocals := by
  intro mem a mem' result
  cases result
  rfl

theorem bind {x : Eval α} {f : α → Eval β} (first : x.KeepsLocals)
    (second : ∀ a, (f a).KeepsLocals) : (x >>= f).KeepsLocals := by
  intro mem b mem' result
  obtain ⟨a, mem₁, left, right⟩ := result_bind_eq_ok.1 result
  exact (second a mem₁ b mem' right).trans (first mem a mem₁ left)

end Eval.KeepsLocals

/-- Calls leave the locals of the caller alone. -/
def Setting.KeepsLocals (s : Setting) : Prop :=
  ∀ callee vs, (s.call callee vs).KeepsLocals

theorem keepsLocals_apply {s : Setting} (calls : s.KeepsLocals) (callee : String)
    (vs : List Value) : (s.apply callee vs).KeepsLocals := by
  unfold Setting.apply
  split
  · split
    · exact .pure _
    · exact calls _ _
  · split
    · split
      · exact .ofExcept _
      · exact calls _ _
    · exact calls _ _

mutual

theorem keepsLocals_eval {s : Setting} (calls : s.KeepsLocals) (e : Expr) :
    (e.eval s).KeepsLocals := by
  match e with
  | .int v => exact .pure v
  | .name id =>
    intro mem a mem' result
    cases result
    rfl
  | .neg e | .not e => exact (keepsLocals_eval calls e).bind fun _ => .pure _
  | .arith op a b =>
    exact (keepsLocals_eval calls a).bind fun _ =>
      (keepsLocals_eval calls b).bind fun _ => .ofExcept _
  | .compare op a b =>
    exact (keepsLocals_eval calls a).bind fun _ => (keepsLocals_eval calls b).bind fun _ => .pure _
  | .connect op a b =>
    refine (keepsLocals_eval calls a).bind fun x => ?_
    split
    · exact .pure x
    · exact keepsLocals_eval calls b
  | .call callee args => exact (keepsLocals_evalAll calls args).bind (keepsLocals_apply calls callee)

theorem keepsLocals_evalAll {s : Setting} (calls : s.KeepsLocals) (es : List Expr) :
    (evalAll s es).KeepsLocals := by
  match es with
  | [] => exact .pure []
  | e :: es =>
    exact (keepsLocals_eval calls e).bind fun _ =>
      (keepsLocals_evalAll calls es).bind fun _ => .pure _

end

/-! ## Truth values -/

@[simp] theorem ofBool_eq_zero {b : Bool} : Value.ofBool b = 0 ↔ b = false := by
  cases b <;> decide

@[simp] theorem ofBool_inj {a b : Bool} : Value.ofBool a = Value.ofBool b ↔ a = b := by
  cases a <;> cases b <;> decide

/-- Expressions that are taken for truth values are zero or one. -/
theorem eq_ofBool_of_isFlag (s : Setting) (e : Expr) (flag : e.isFlag = true) {mem mem' : Memory}
    {v : Value} (result : (e.eval s).result mem = (.ok v, mem')) : ∃ b, v = .ofBool b := by
  match e with
  | .int w =>
    cases result
    rcases Bool.or_eq_true _ _ ▸ flag with zero | one
    · exact ⟨false, eq_of_beq zero⟩
    · exact ⟨true, eq_of_beq one⟩
  | .not e =>
    obtain ⟨w, mem₁, -, last⟩ := result_bind_eq_ok.1 result
    cases last
    exact ⟨_, rfl⟩
  | .compare op a b =>
    obtain ⟨x, mem₁, -, rest⟩ := result_bind_eq_ok.1 result
    obtain ⟨y, mem₂, -, last⟩ := result_bind_eq_ok.1 rest
    cases last
    exact ⟨_, rfl⟩
  | .connect op a b =>
    simp only [Expr.isFlag, Bool.and_eq_true] at flag
    obtain ⟨x, mem₁, left, rest⟩ := result_bind_eq_ok.1 result
    split at rest
    · cases rest
      exact eq_ofBool_of_isFlag s a flag.1.1 left
    · exact eq_ofBool_of_isFlag s b flag.2.1 rest
  | .call callee [e] =>
    simp only [Expr.isFlag, Bool.and_eq_true, beq_iff_eq] at flag
    rw [result_passthrough s (by rw [flag.1]; rfl)] at result
    exact eq_ofBool_of_isFlag s e flag.2.1 result

/-! ## Rounding down -/

/-- A remainder that calls for a correction: it is not zero and has a sign unlike the divisor's. -/
def roundsDown (remainder divisor : Value) : Bool :=
  remainder ≠ 0 ∧ ¬(remainder < 0 ↔ divisor < 0)

theorem fdiv_eq_tdiv_sub {a b : Int} (nonzero : b ≠ 0) :
    a.fdiv b = a.tdiv b - if a.tmod b ≠ 0 ∧ ¬(a.tmod b < 0 ↔ b < 0) then 1 else 0 := by
  have dvd : b ∣ a ↔ a.tmod b = 0 := Int.dvd_iff_tmod_eq_zero
  have nonneg : 0 ≤ a → 0 ≤ a.tmod b := Int.tmod_nonneg b
  have nonpos : a ≤ 0 → a.tmod b ≤ 0 := fun le => by
    have := Int.tmod_nonneg b (Int.neg_nonneg_of_nonpos le)
    rw [Int.neg_tmod] at this
    omega
  rw [Int.fdiv_eq_tdiv]
  rcases Int.lt_or_gt_of_ne nonzero with negative | positive
  · rw [Int.sign_eq_neg_one_of_neg negative]
    split_ifs <;> omega
  · rw [Int.sign_eq_one_of_pos positive]
    split_ifs <;> omega

theorem fmod_eq_tmod_add {a b : Int} (nonzero : b ≠ 0) :
    a.fmod b = a.tmod b + if a.tmod b ≠ 0 ∧ ¬(a.tmod b < 0 ↔ b < 0) then b else 0 := by
  have quotient := fdiv_eq_tdiv_sub (a := a) nonzero
  have floor := Int.mul_fdiv_add_fmod a b
  have trunc := Int.mul_tdiv_add_tmod a b
  rw [quotient] at floor
  split_ifs at floor ⊢
  · rw [Int.mul_sub, Int.mul_one] at floor
    omega
  · rw [Int.sub_zero] at floor
    omega

theorem roundsDown_iff : roundsDown (a % b) b = true ↔
      a.toInt.tmod b.toInt ≠ 0 ∧ ¬(a.toInt.tmod b.toInt < 0 ↔ b.toInt < 0) := by
  rw [roundsDown, decide_eq_true_iff, Int64.lt_iff_toInt_lt, Int64.lt_iff_toInt_lt, ← Int64.toInt_mod,
    ne_eq, ← Int64.toInt_inj]
  rfl

theorem ofInt_fdiv (nonzero : b ≠ 0) :
    Int64.ofInt (a.toInt.fdiv b.toInt) = if roundsDown (a % b) b then a / b - 1 else a / b := by
  have divisor : b.toInt ≠ 0 := fun zero => nonzero (Int64.toInt_inj.1 zero)
  have quotient : Int64.ofInt (a.toInt.tdiv b.toInt) = a / b := by
    rw [Int64.ofInt_tdiv a.minValue_le_toInt a.toInt_le b.minValue_le_toInt b.toInt_le,
      Int64.ofInt_toInt, Int64.ofInt_toInt]
  rw [fdiv_eq_tdiv_sub divisor, Int64.ofInt_sub, quotient]
  by_cases rounds : roundsDown (a % b) b = true
  · rw [if_pos rounds, if_pos (roundsDown_iff.1 rounds)]
    rfl
  · rw [if_neg rounds, if_neg fun same => rounds (roundsDown_iff.2 same)]
    exact Int64.sub_zero _

theorem ofInt_fmod (nonzero : b ≠ 0) :
    Int64.ofInt (a.toInt.fmod b.toInt) = if roundsDown (a % b) b then a % b + b else a % b := by
  have divisor : b.toInt ≠ 0 := fun zero => nonzero (Int64.toInt_inj.1 zero)
  have remainder : Int64.ofInt (a.toInt.tmod b.toInt) = a % b := by
    rw [← Int64.toInt_mod, Int64.ofInt_toInt]
  rw [fmod_eq_tmod_add divisor, Int64.ofInt_add, remainder]
  by_cases rounds : roundsDown (a % b) b = true
  · rw [if_pos rounds, if_pos (roundsDown_iff.1 rounds), Int64.ofInt_toInt]
  · rw [if_neg rounds, if_neg fun same => rounds (roundsDown_iff.2 same)]
    exact Int64.add_zero _

theorem toInt_ofInt_fdiv (nonzero : b ≠ 0) (fits : ¬(a = Int64.minValue ∧ b = -1)) :
    (Int64.ofInt (a.toInt.fdiv b.toInt)).toInt = a.toInt.fdiv b.toInt := by
  have divisor : b.toInt ≠ 0 := fun zero => nonzero (Int64.toInt_inj.1 zero)
  have inside : ¬(a.toInt = -0x8000000000000000 ∧ b.toInt = -1) := fun both =>
    fits ⟨Int64.toInt_inj.1 both.1, Int64.toInt_inj.1 both.2⟩
  have low : -0x8000000000000000 ≤ a.toInt := a.minValue_le_toInt
  have high : a.toInt ≤ 0x7fffffffffffffff := a.toInt_le
  have bounds {x y : Int} (positive : 0 < y) (low : -0x8000000000000000 ≤ x)
      (high : x < 0x8000000000000000 * y) : -0x8000000000000000 ≤ x / y ∧ x / y < 0x8000000000000000 :=
    ⟨Int.le_ediv_of_mul_le positive (by omega), Int.ediv_lt_of_lt_mul positive high⟩
  have quotient : -0x8000000000000000 ≤ a.toInt.fdiv b.toInt ∧
      a.toInt.fdiv b.toInt < 0x8000000000000000 := by
    rcases Int.lt_or_gt_of_ne divisor with negative | positive
    · rw [← Int.neg_fdiv_neg, Int.fdiv_eq_ediv_of_nonneg _ (by omega)]
      exact bounds (by omega) (by omega) (by omega)
    · rw [Int.fdiv_eq_ediv_of_nonneg _ (by omega)]
      exact bounds positive low (by omega)
  exact Int64.toInt_ofInt_of_le quotient.1 quotient.2

theorem toInt_ofInt_fmod (nonzero : b ≠ 0) :
    (Int64.ofInt (a.toInt.fmod b.toInt)).toInt = a.toInt.fmod b.toInt := by
  have divisor : b.toInt ≠ 0 := fun zero => nonzero (Int64.toInt_inj.1 zero)
  have low : -0x8000000000000000 ≤ b.toInt := b.minValue_le_toInt
  have high : b.toInt ≤ 0x7fffffffffffffff := b.toInt_le
  have remainder : -0x8000000000000000 ≤ a.toInt.fmod b.toInt ∧
      a.toInt.fmod b.toInt < 0x8000000000000000 := by
    rcases Int.lt_or_gt_of_ne divisor with negative | positive
    · have mirrored := Int.neg_fmod_neg a.toInt b.toInt
      have := Int.fmod_nonneg_of_pos (-a.toInt) (Int.neg_pos_of_neg negative)
      have := Int.fmod_lt_of_pos (-a.toInt) (Int.neg_pos_of_neg negative)
      omega
    · have := Int.fmod_nonneg_of_pos a.toInt positive
      have := Int.fmod_lt_of_pos a.toInt positive
      omega
  exact Int64.toInt_ofInt_of_le remainder.1 remainder.2

end SlotLang.Subset
