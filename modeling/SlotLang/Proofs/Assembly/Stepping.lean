import SlotLang.Proofs.Basic
import SlotLang.Proofs.Execution
import SlotLang.Assembly.Emit
import SlotLang.Assembly.Exec
import SlotLang.Machine.Fault

/-!
# Executing emitted code

For each piece of code that the emitter writes there is one statement about its execution, in front
of any other code and on top of any stack. `before` is a state with its code and stack
replaced: all these statements go from one such state to another.
-/

open List

namespace SlotLang.Assembly

open State

variable {m : Module} {s t : State}

/-- No more than `n` steps lead from one state to another. -/
abbrev Reaches (m : Module) (n : Nat) : State → State → Prop :=
  ReachesIn (run m) n

/-- Every execution that is given enough steps ends this way. -/
abbrev Ends (m : Module) (s : State) (outcome : Outcome) (store : Store) : Prop :=
  SlotLang.Ends (run m) s (outcome, store)

/-- Every execution that is given `n` steps ends this way. -/
abbrev EndsIn (m : Module) (n : Nat) (s : State) (outcome : Outcome) (store : Store) : Prop :=
  SlotLang.EndsIn (run m) n s (outcome, store)

theorem reaches_of_step (next : s.step m = .running t) : Reaches m 1 s t :=
  reachesIn_of_succ fun fuel => by rw [run, next]

theorem ends_of_finished {result : Option Value} {store : Store}
    (last : s.step m = .finished result store) : EndsIn m 1 s (.finished result) store :=
  endsIn_of_succ fun fuel => by rw [run, last]

theorem ends_of_trapped {trap : Trap} {store : Store} (last : s.step m = .trapped trap store) :
    EndsIn m 1 s (.trapped trap) store :=
  endsIn_of_succ fun fuel => by rw [run, last]

namespace State

def before (s : State) (code : List Instr) (stack : List Cell) : State :=
  s.withFrame (s.frame.resume code stack)

def value? (s : State) : Operand → Option Value
  | .global n => s.store.globals[n.toNat]?
  | .var n => s.frame.vars[n.toNat]?
  | .arg n => s.frame.args[n.toNat]?
  | .lit v => some v

/-- Whether an operand is a slot that exists. -/
def hasSlot (s : State) : Operand → Bool
  | .global n => n.toNat < s.store.globals.size
  | .var n => n.toNat < s.frame.vars.size
  | .arg n => n.toNat < s.frame.args.size
  | .lit _ => false

def write (s : State) (slot : Operand) (v : Value) : State :=
  match slot with
  | .global n =>
    { s with store := { s.store with globals := s.store.globals.setIfInBounds n.toNat v } }
  | .var n => s.withFrame { s.frame with vars := s.frame.vars.setIfInBounds n.toNat v }
  | .arg n => s.withFrame { s.frame with args := s.frame.args.setIfInBounds n.toNat v }
  | .lit _ => s

def print (s : State) (v : Value) : State :=
  { s with store := { s.store with output := s.store.output.push v } }

end State

section Code

variable {rest : List Instr} {stack : List Cell} {a b o : Operand} {v x y : Value}

theorem step_proceed {i : Instr} {stack' : List Cell}
    (exec : (s.before (i :: rest) stack).exec m i rest =
      (s.before (i :: rest) stack).proceed rest stack') :
    Reaches m 1 (s.before (i :: rest) stack) (s.before rest stack') :=
  reaches_of_step exec

theorem reaches_read (value : s.value? o = some v) :
    Reaches m 1 (s.before (readCode o :: rest) stack) (s.before rest (.i64 v :: stack)) := by
  refine reaches_of_step ?_
  cases o with
  | lit w =>
    cases value
    rfl
  | global n =>
    change proceedWith _ (s.store.globals[n.toNat]?.map _) = _
    rw [show s.store.globals[n.toNat]? = some v from value]
    rfl
  | var n =>
    change proceedWith _ ((s.frame.vars[n.toNat]?.map Cell.i64).map _) = _
    rw [show s.frame.vars[n.toNat]? = some v from value]
    rfl
  | arg n =>
    change proceedWith _ ((s.frame.args[n.toNat]?.map Cell.i64).map _) = _
    rw [show s.frame.args[n.toNat]? = some v from value]
    rfl

theorem reaches_write {slot : Operand} (exists_ : s.hasSlot slot = true) :
    Reaches m 1 (s.before (writeCode slot :: rest) (.i64 v :: stack))
      ((s.write slot v).before rest stack) := by
  refine reaches_of_step ?_
  cases slot with
  | lit w => cases exists_
  | global n =>
    change (if n.toNat < s.store.globals.size then _ else _) = _
    rw [if_pos (of_decide_eq_true exists_)]
    rfl
  | var n =>
    change proceedWith _ (Option.map _ (if n.toNat < s.frame.vars.size then _ else _)) = _
    rw [if_pos (of_decide_eq_true exists_)]
    rfl
  | arg n =>
    change proceedWith _ (Option.map _ (if n.toNat < s.frame.args.size then _ else _)) = _
    rw [if_pos (of_decide_eq_true exists_)]
    rfl

theorem reaches_readAll {operands : List Operand} {vs : List Value}
    (values : List.Forall₂ (fun o v => s.value? o = some v) operands vs) :
    Reaches m operands.length (s.before (operands.map readCode ++ rest) stack)
      (s.before rest ((vs.map .i64).reverse ++ stack)) := by
  induction values generalizing stack with
  | nil => exact .refl _ _
  | @cons o v operands vs value values ih =>
    rw [map_cons, cons_append, map_cons, reverse_cons, append_assoc, singleton_append]
    exact ((reaches_read value).trans ih).mono (by simp only [length_cons]; omega)

theorem reaches_truth (value : s.value? o = some v) :
    Reaches m 3 (s.before (truthCode o ++ rest) stack)
      (s.before rest (.ofBool (v ≠ 0) :: stack)) := by
  refine (reaches_read value).trans (n := 2) ?_
  have constant : Reaches m 1 (s.before (.const 0 :: .compare .ne :: rest) (.i64 v :: stack))
      (s.before (.compare .ne :: rest) (.i64 0 :: .i64 v :: stack)) := step_proceed rfl
  exact constant.trans (step_proceed rfl)

theorem reaches_arith {op : Arith} (left : s.value? a = some x) (right : s.value? b = some y)
    (result : op.apply x y = .ok v) :
    Reaches m 3 (s.before ([readCode a, readCode b, .arith op] ++ rest) stack)
      (s.before rest (.i64 v :: stack)) := by
  refine ((reaches_read left).trans (reaches_read right)).trans (step_proceed ?_)
  simp only [exec, before, withFrame, Frame.resume, result]

theorem ends_arith {op : Arith} {trap : Trap} (left : s.value? a = some x)
    (right : s.value? b = some y) (result : op.apply x y = .error trap) :
    EndsIn m 3 (s.before ([readCode a, readCode b, .arith op] ++ rest) stack) (.trapped trap)
      s.store := by
  refine ((reaches_read left).trans (reaches_read right)).endsIn (ends_of_trapped ?_)
  change exec m (s.before (.arith op :: rest) (.i64 y :: .i64 x :: stack)) (.arith op) rest = _
  simp only [exec, before, withFrame, Frame.resume, result]

theorem value_ofIndex_ofBool (b : Bool) : Value.ofIndex (if b then 1 else 0) = .ofBool b := by
  cases b <;> rfl

theorem reaches_widen (b : Bool) :
    Reaches m 1 (s.before (.widen :: rest) (.ofBool b :: stack))
      (s.before rest (.i64 (.ofBool b) :: stack)) := by
  refine step_proceed ?_
  rw [← value_ofIndex_ofBool b]
  rfl

theorem reaches_compare {op : Comparison} (left : s.value? a = some x) (right : s.value? b = some y) :
    Reaches m 4 (s.before ([readCode a, readCode b, .compare op, .widen] ++ rest) stack)
      (s.before rest (.i64 (.ofBool (op.holds x y)) :: stack)) := by
  refine ((reaches_read left).trans (reaches_read right)).trans (n := 2) ?_
  exact .trans (t := s.before (.widen :: rest) (.ofBool (op.holds x y) :: stack))
    (step_proceed rfl) (reaches_widen _)

theorem ofBool_and (p q : Bool) :
    Cell.ofBool (p && q) = .i32 ((if p then 1 else 0) &&& (if q then 1 else 0)) := by
  cases p <;> cases q <;> rfl

theorem ofBool_or (p q : Bool) :
    Cell.ofBool (p || q) = .i32 ((if p then 1 else 0) ||| (if q then 1 else 0)) := by
  cases p <;> cases q <;> rfl

theorem reaches_joined {i : Instr} {v : Bool} (left : s.value? a = some x) (right : s.value? b = some y)
    (joins : Reaches m 1
      (s.before (i :: .widen :: rest) (.ofBool (y ≠ 0) :: .ofBool (x ≠ 0) :: stack))
      (s.before (.widen :: rest) (.ofBool v :: stack))) :
    Reaches m 8 (s.before (truthCode a ++ truthCode b ++ [i, .widen] ++ rest) stack)
      (s.before rest (.i64 (.ofBool v) :: stack)) := by
  rw [append_assoc, append_assoc]
  exact ((reaches_truth left).trans (reaches_truth right)).trans (joins.trans (reaches_widen v))

def trap? : Cause → Option Trap
  | .divisionByZero => some .divideByZero
  | .divisionOverflow => some .overflow
  | .depthExceeded _ => some .stackExhausted
  | _ => none

/-- A division of a module gives what an operation gives, and traps where the operation fails. -/
def Arith.Follows (f : Arith) (op : BinaryOp) (x y : Value) : Prop :=
  match op.apply x y with
  | .ok v => f.apply x y = .ok v
  | .error c => ∃ trap, trap? c = some trap ∧ f.apply x y = .error trap

variable {f : Arith} {op : BinaryOp} {c : Cause}

theorem Arith.Follows.ok (follows : f.Follows op x y) (result : op.apply x y = .ok v) :
    f.apply x y = .ok v := by
  rwa [Follows, result] at follows

theorem Arith.Follows.error (follows : f.Follows op x y) (result : op.apply x y = .error c) :
    ∃ trap, trap? c = some trap ∧ f.apply x y = .error trap := by
  rwa [Follows, result] at follows

theorem div_follows (x y : Value) : Arith.div.Follows .div x y := by
  unfold Arith.Follows BinaryOp.apply Arith.apply
  by_cases zero : y = 0
  · simp [zero, trap?]
  · by_cases overflow : x = Int64.minValue ∧ y = -1 <;> simp [zero, overflow, trap?]

theorem rem_follows (x y : Value) : Arith.rem.Follows .rem x y := by
  unfold Arith.Follows BinaryOp.apply Arith.apply
  by_cases zero : y = 0 <;> simp [zero, trap?]

theorem reaches_binary (left : s.value? a = some x) (right : s.value? b = some y)
    (result : op.apply x y = .ok v) :
    Reaches m 8 (s.before (binaryCode op a b ++ rest) stack) (s.before rest (.i64 v :: stack)) := by
  cases op with
  | add | sub | mul =>
    cases result
    exact (reaches_arith left right rfl).mono (by decide)
  | div => exact (reaches_arith left right ((div_follows x y).ok result)).mono (by decide)
  | rem => exact (reaches_arith left right ((rem_follows x y).ok result)).mono (by decide)
  | lt | gt | eq =>
    cases result
    exact (reaches_compare left right).mono (by decide)
  | and =>
    cases result
    rw [Bool.decide_and]
    refine reaches_joined left right (step_proceed ?_)
    rw [ofBool_and]
    rfl
  | or =>
    cases result
    rw [Bool.decide_or]
    refine reaches_joined left right (step_proceed ?_)
    rw [ofBool_or]
    rfl

theorem ends_binary (rest : List Instr) (stack : List Cell)
    (left : s.value? a = some x) (right : s.value? b = some y) (result : op.apply x y = .error c) :
    ∃ trap, trap? c = some trap ∧
      EndsIn m 3 (s.before (binaryCode op a b ++ rest) stack) (.trapped trap) s.store := by
  cases op with
  | div =>
    obtain ⟨trap, same, target⟩ := (div_follows x y).error result
    exact ⟨trap, same, ends_arith left right target⟩
  | rem =>
    obtain ⟨trap, same, target⟩ := (rem_follows x y).error result
    exact ⟨trap, same, ends_arith left right target⟩
  | _ => cases result

theorem reaches_not (value : s.value? o = some v) :
    Reaches m 3 (s.before (readCode o :: .isZero :: .widen :: rest) stack)
      (s.before rest (.i64 (.ofBool (v = 0)) :: stack)) := by
  refine (reaches_read value).trans (n := 2) ?_
  exact .trans (t := s.before (.widen :: rest) (.ofBool (v = 0) :: stack)) (step_proceed rfl)
    (reaches_widen _)

theorem reaches_print (value : s.value? o = some v) :
    Reaches m 2 (s.before (readCode o :: .print :: rest) stack)
      ((s.print v).before rest stack) :=
  (reaches_read value).trans (reaches_of_step rfl)

theorem reaches_notes (notes : List UInt32) (rest : List Instr) (stack : List Cell) :
    Reaches m notes.length (s.before (notes.map .note ++ rest) stack) (s.before rest stack) := by
  induction notes with
  | nil => exact .refl _ _
  | cons note notes ih =>
    exact (ReachesIn.trans (step_proceed rfl) ih).mono (by simp only [length_cons]; omega)

theorem integers?_map (vs : List Value) : integers? (vs.map .i64) = some vs := by
  induction vs with
  | nil => rfl
  | cons v vs ih =>
    rw [integers?] at ih ⊢
    rw [map_cons, mapM_cons, ih]
    rfl

/-- A call with its arguments on the stack is entered, unless too many frames are waiting. -/
theorem step_call {index : UInt32} {d : FuncDef} {vs : List Value} (rest : List Instr)
    (stack : List Cell) (found : m.func? index = some d)
    (count : vs.length = d.paramCount.toNat) :
    (s.before (.call index :: rest) ((vs.map .i64).reverse ++ stack)).step m =
      if maxCallFrames ≤ s.callers.length + 1 then .trapped .stackExhausted s.store
      else .running { s with frame := Frame.ofFunc d vs,
                             callers := s.frame.resume rest stack :: s.callers } := by
  have length : ((vs.map Cell.i64).reverse).length = d.paramCount.toNat := by simp [count]
  change call m _ index rest = _
  rw [call, found]
  have args : integers? (((s.before (.call index :: rest)
      ((vs.map .i64).reverse ++ stack)).frame.stack.take d.paramCount.toNat).reverse) = some vs := by
    change integers? (((vs.map Cell.i64).reverse ++ stack).take d.paramCount.toNat).reverse = _
    rw [take_left' length, reverse_reverse, integers?_map]
  dsimp only
  rw [args]
  change (if vs.length ≠ d.paramCount.toNat then _ else
    if maxCallFrames ≤ s.callers.length + 1 then _ else Progress.running _) = _
  rw [if_neg (not_not_intro count)]
  change _ = if _ then _ else Progress.running { s with
    frame := Frame.ofFunc d vs, callers := s.frame.resume rest stack :: s.callers }
  have dropped : ((vs.map Cell.i64).reverse ++ stack).drop d.paramCount.toNat = stack :=
    drop_left' length
  simp only [before, withFrame, Frame.resume, dropped]

end Code

end SlotLang.Assembly
