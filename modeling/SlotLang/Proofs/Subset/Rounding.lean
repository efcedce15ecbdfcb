import SlotLang.Proofs.Subset.Simulation

/-!
# Division that rounds down

The machine truncates. The code of a division that rounds down corrects the truncating result where
the remainder has another sign than the divisor. `Passes` follows such code one instruction at a time
and keeps account of the rounds, of the position and of the slots that change, so the sequences are
run here on any machine, whatever stands around them.
-/

open List

namespace SlotLang.Subset

open Machine

/-- Within so many rounds a machine has come to a position, and at most some slots have changed. -/
structure Passes (slots : List Operand) (bound : Nat) (m : Machine) (pos : Nat) (n : Machine) : Prop
    extends Changes slots m n where
  leads : ∃ k ≤ bound, Leads k m n
  pc : n.top.pc = pos

section Code

variable {c : Context} {code xs : Code} {pos pos' bound : Nat} {slots : List Operand} {m n : Machine}
  {i : Instruction} {op : BinaryOp} {dest x y r t u : Operand} {a b v w : Value} {done : UInt32}

theorem passes_self (slots : List Operand) (pc : m.top.pc = pos) : Passes slots 0 m pos m :=
  ⟨.refl slots m, ⟨0, Nat.le_refl 0, fun _ _ => rfl⟩, pc⟩

theorem Passes.mono {bound' : Nat} (passes : Passes slots bound m pos n) (le : bound ≤ bound') :
    Passes slots bound' m pos n := by
  obtain ⟨k, few, leads⟩ := passes.leads
  exact { passes with leads := ⟨k, Nat.le_trans few le, leads⟩ }

namespace Passes

variable (passes : Passes slots bound m pos n) (runs : m.top.routine = Routine.ofCode code)

include passes runs

theorem current (placed : Placed code pos (i :: xs)) : n.top.current? = some i := by
  rw [Activation.current?, passes.shape.routine, runs, passes.pc, ← placed.current]
  exact getElem?_toArray

theorem step {e : Effect} {l : Machine} (placed : Placed code pos (i :: xs))
    (does : ∀ limits, Does limits n i e) (next : n.perform e = .running l)
    (changes : Changes slots m l) (pc : l.top.pc = pos') : Passes slots (bound + 1) m pos' l := by
  obtain ⟨k, le, leads⟩ := passes.leads
  exact ⟨changes, ⟨k + 1, Nat.succ_le_succ le, leads.step (passes.current runs placed) does next⟩, pc⟩

theorem label (placed : Placed code pos (c.label done :: xs)) :
    Passes slots (bound + 1) m (pos + 1) n.next :=
  passes.step runs placed (fun _ => .label) rfl (passes.goto _) (congrArg (· + 1) passes.pc)

theorem binary (placed : Placed code pos (c.ins (.binary op) [dest, x, y] :: xs))
    (member : dest ∈ slots) (writable : m.top.canWrite dest = true) (left : n.read x = .ok a)
    (right : n.read y = .ok b) (result : op.apply a b = .ok v) :
    ∃ l, Passes slots (bound + 1) m (pos + 1) l ∧ l.read dest = .ok v ∧
      ∀ o, o ≠ dest → l.read o = n.read o := by
  rw [← passes.shape.canWrite] at writable
  have pc : (n.next.write dest v).top.pc = pos + 1 := by
    rw [write_pc]
    exact congrArg (· + 1) passes.pc
  refine ⟨n.next.write dest v, ?_, read_write_self writable, fun o other => ?_⟩
  · exact passes.step runs placed (fun _ => .binary left right result writable) rfl
      ((passes.goto _).write member v) pc
  · rw [read_write_of_ne other, Machine.next, read_goto]

theorem jumpIf {flag : Bool} (placed : Placed code pos (c.jumpIf x done :: xs))
    (value : n.read x = .ok (.ofBool flag)) (position : labelPosition? code done = some pos') :
    Passes slots (bound + 1) m (if flag then pos' else pos + 1)
      (n.goto (if flag then pos' else pos + 1)) := by
  cases flag with
  | true =>
    have target : n.top.routine.labels.lookup (Value.ofIndex done).low = some pos' := by
      rw [Value.low_ofIndex, passes.shape.routine, runs]
      exact position
    exact passes.step runs placed (fun _ => .taken value (by decide) target) rfl (passes.goto _) rfl
  | false =>
    refine passes.step runs placed (fun _ => .skipped value) ?_ (passes.goto _) rfl
    rw [← passes.pc]
    rfl

/-- The sign check goes on behind itself if the remainder calls for a correction, and to the label
otherwise. -/
theorem signCheck (placed : Placed code pos (c.signCheck r y t u done)) (tMember : t ∈ slots)
    (uMember : u ∈ slots) (writable : ∀ o ∈ slots, m.top.canWrite o = true) (different : t ≠ u)
    (rOther : r ≠ t) (yOther : y ≠ t) (remainder : n.read r = .ok a) (divisor : n.read y = .ok b)
    (position : labelPosition? code done = some pos') :
    ∃ l, Passes slots (bound + 6) m (if roundsDown a b then pos + 6 else pos') l ∧
      ∀ o, o ≠ t → o ≠ u → l.read o = n.read o := by
  -- A remainder of zero ends the check.
  obtain ⟨n₁, passes₁, isZero, others₁⟩ :=
    passes.binary runs placed tMember (writable t tMember) remainder rfl rfl
  have jumped₁ := passes₁.jumpIf runs placed.tail isZero position
  by_cases a0 : a = 0
  · have target : (if decide (a = 0) = true then pos' else pos + 1 + 1) =
        if roundsDown a b then pos + 6 else pos' := by simp [a0, roundsDown]
    rw [target] at jumped₁
    refine ⟨_, jumped₁.mono (by omega), fun o other _ => ?_⟩
    rw [read_goto, others₁ o other]
  · rw [if_neg (by simpa using a0)] at jumped₁
    have kept : ∀ o, o ≠ t → (n₁.goto (pos + 1 + 1)).read o = n.read o := fun o other => by
      rw [read_goto, others₁ o other]
    -- The signs of the remainder and of the divisor are compared.
    obtain ⟨n₂, passes₂, rSign, others₂⟩ := jumped₁.binary runs placed.tail.tail tMember
      (writable t tMember) ((kept r rOther).trans remainder) rfl rfl
    obtain ⟨n₃, passes₃, ySign, others₃⟩ := passes₂.binary runs placed.tail.tail.tail uMember
      (writable u uMember) ((others₂ y yOther).trans ((kept y yOther).trans divisor)) rfl rfl
    obtain ⟨n₄, passes₄, sameSign, others₄⟩ := passes₃.binary runs placed.tail.tail.tail.tail tMember
      (writable t tMember) ((others₃ t different).trans rSign) ySign rfl
    have jumped₂ := passes₄.jumpIf runs placed.tail.tail.tail.tail.tail sameSign position
    have target : (if decide (Value.ofBool (a < 0) = Value.ofBool (b < 0)) = true then pos'
        else pos + 1 + 1 + 1 + 1 + 1 + 1) = if roundsDown a b then pos + 6 else pos' := by
      by_cases signs : a < 0 ↔ b < 0 <;> simp [roundsDown, a0, signs]
    rw [target] at jumped₂
    refine ⟨_, jumped₂, fun o tOther uOther => ?_⟩
    rw [read_goto, others₄ o tOther, others₃ o uOther, others₂ o tOther, kept o tOther]

end Passes

theorem Passes.correction (rounds : Bool)
    (passes : Passes slots bound m (if rounds then pos else pos + 1) n)
    (runs : m.top.routine = Routine.ofCode code)
    (placed : Placed code pos ([c.ins (.binary op) [dest, dest, x]] ++ [c.label done]))
    (member : dest ∈ slots) (writable : m.top.canWrite dest = true) (value : n.read dest = .ok v)
    (operand : n.read x = .ok a) (result : op.apply v a = .ok w) :
    ∃ l, Passes slots (bound + 2) m (pos + 2) l ∧ l.read dest = .ok (if rounds then w else v) := by
  cases rounds with
  | true =>
    obtain ⟨l, corrected, holds, -⟩ := passes.binary runs placed member writable value operand result
    exact ⟨_, corrected.label runs placed.tail, (read_goto _ _ _).trans holds⟩
  | false =>
    exact ⟨_, (passes.label runs placed.tail).mono (Nat.le_succ _), (read_goto _ _ _).trans value⟩

/-! ## The two sequences -/

section Sequences

variable (runs : m.top.routine = Routine.ofCode code) (pc : m.top.pc = pos)
  (left : m.read x = .ok a) (right : m.read y = .ok b) (nonzero : b ≠ 0)

include runs pc left right nonzero

theorem passes_floorDiv (fits : ¬(a = Int64.minValue ∧ b = -1))
    (placed : Placed code pos (c.floorDiv dest x y r t u done))
    (position : labelPosition? code done = some (pos + 9)) (distinct : [dest, r, t, u].Nodup)
    (xOther : x ∉ [dest, r, t, u]) (yOther : y ∉ [dest, r, t, u])
    (writable : ∀ o ∈ [dest, r, t, u], m.top.canWrite o = true) :
    ∃ n, Passes [dest, r, t, u] 10 m (pos + 10) n ∧
      n.read dest = .ok (if roundsDown (a % b) b then a / b - 1 else a / b) := by
  rw [floorDiv_eq, append_assoc] at placed
  simp only [nodup_cons, mem_cons, not_or] at distinct xOther yOther
  obtain ⟨⟨destR, destT, destU, -⟩, ⟨rT, rU, -⟩, ⟨tU, -⟩, -⟩ := distinct
  have quotient : BinaryOp.div.apply a b = .ok (a / b) := (if_neg nonzero).trans (if_neg fits)
  have remainder : BinaryOp.rem.apply a b = .ok (a % b) := if_neg nonzero
  obtain ⟨n₁, passes₁, value, others₁⟩ := (passes_self [dest, r, t, u] pc).binary runs placed
    mem_cons_self (writable dest mem_cons_self) left right quotient
  have divisor := (others₁ y yOther.1).trans right
  obtain ⟨n₂, passes₂, rest, others₂⟩ := passes₁.binary runs placed.left.left.tail (by simp)
    (writable r (by simp)) ((others₁ x xOther.1).trans left) divisor remainder
  obtain ⟨n₃, passes₃, others₃⟩ := passes₂.signCheck runs placed.left.right (by simp) (by simp)
    writable tU rT yOther.2.2.1 rest ((others₂ y yOther.2.1).trans divisor) position
  have kept : n₃.read dest = .ok (a / b) := by rw [others₃ dest destT destU, others₂ dest destR, value]
  exact passes₃.correction _ runs placed.right mem_cons_self (writable dest mem_cons_self) kept rfl rfl

theorem passes_floorMod (placed : Placed code pos (c.floorMod dest x y t u done))
    (position : labelPosition? code done = some (pos + 8)) (distinct : [dest, t, u].Nodup)
    (yOther : y ∉ [dest, t, u]) (writable : ∀ o ∈ [dest, t, u], m.top.canWrite o = true) :
    ∃ n, Passes [dest, t, u] 9 m (pos + 9) n ∧
      n.read dest = .ok (if roundsDown (a % b) b then a % b + b else a % b) := by
  rw [floorMod_eq, append_assoc] at placed
  simp only [nodup_cons, mem_cons, not_or] at distinct yOther
  obtain ⟨⟨destT, destU, -⟩, ⟨tU, -⟩, -⟩ := distinct
  have remainder : BinaryOp.rem.apply a b = .ok (a % b) := if_neg nonzero
  obtain ⟨n₁, passes₁, value, others₁⟩ := (passes_self [dest, t, u] pc).binary runs placed
    mem_cons_self (writable dest mem_cons_self) left right remainder
  have divisor := (others₁ y yOther.1).trans right
  obtain ⟨n₂, passes₂, others₂⟩ := passes₁.signCheck runs placed.left.right (by simp) (by simp)
    writable tU destT yOther.2.1 value divisor position
  have kept : n₂.read dest = .ok (a % b) := (others₂ dest destT destU).trans value
  have divisor := (others₂ y yOther.2.1 yOther.2.2.1).trans divisor
  exact passes₂.correction _ runs placed.right mem_cons_self (writable dest mem_cons_self) kept
    divisor rfl

end Sequences

/-! ## Exact results -/

theorem placed_between (before xs after : Code) : Placed (before ++ xs ++ after) before.length xs :=
  ⟨after, by rw [append_assoc, drop_left]⟩

theorem labelPosition?_between {before front after : Code} (c : Context)
    (fresh : done ∉ definedLabels before) (none : definedLabels front = []) :
    labelPosition? (before ++ (front ++ [c.label done]) ++ after) done =
      some (before.length + front.length) := by
  have first : FirstDefinition (before ++ (front ++ [c.label done]) ++ after) done (before ++ front)
      (c.label done) after := by
    refine ⟨by simp, definedLabel?_label c done, ?_⟩
    rwa [definedLabels_append, none, append_nil]
  rw [first.labelPosition?, length_append]

theorem round_of_apply_error {cause : Cause} (runs : m.top.routine = Routine.ofCode code)
    (pc : m.top.pc = pos) (placed : Placed code pos (c.ins (.binary op) [dest, x, y] :: xs))
    (left : m.read x = .ok a) (right : m.read y = .ok b) (result : op.apply a b = .error cause)
    (limits : Limits) (paid : 0 < m.gas) : m.round limits = .failed ⟨cause, c.line⟩ m := by
  obtain ⟨gas, enough⟩ := Nat.exists_eq_succ_of_ne_zero (Nat.ne_of_gt paid)
  exact round_of_error ((passes_self [] pc).current runs placed) enough
    (effect_of_apply left right result)

/-- Division that rounds down is exact: on any machine, with any different slots, what the code
leaves is the quotient rounded down or the remainder that goes with it, and nothing else changes but
the code's own slots. Only what has no result of 64 bits fails. -/
theorem rounding_exact (c : Context) (before after : Code)
    (runs : m.top.routine = Routine.ofCode code) (pc : m.top.pc = before.length)
    (fresh : done ∉ definedLabels before) (distinct : [dest, r, t, u].Nodup)
    (xOther : x ∉ [dest, r, t, u]) (yOther : y ∉ [dest, r, t, u])
    (writable : ∀ o ∈ [dest, r, t, u], m.top.canWrite o = true) (left : m.read x = .ok a)
    (right : m.read y = .ok b) :
    (code = before ++ c.floorDiv dest x y r t u done ++ after →
      (b ≠ 0 → ¬(a = Int64.minValue ∧ b = -1) →
        ∃ n v, Passes [dest, r, t, u] 10 m (before.length + 10) n ∧ n.read dest = .ok v ∧
          v.toInt = a.toInt.fdiv b.toInt) ∧
      (b = 0 → ∀ limits, 0 < m.gas → m.round limits = .failed ⟨.divisionByZero, c.line⟩ m) ∧
      (a = Int64.minValue → b = -1 →
        ∀ limits, 0 < m.gas → m.round limits = .failed ⟨.divisionOverflow, c.line⟩ m)) ∧
    (code = before ++ c.floorMod dest x y t u done ++ after →
      (b ≠ 0 →
        ∃ n v, Passes [dest, t, u] 9 m (before.length + 9) n ∧ n.read dest = .ok v ∧
          v.toInt = a.toInt - b.toInt * a.toInt.fdiv b.toInt) ∧
      (b = 0 → ∀ limits, 0 < m.gas → m.round limits = .failed ⟨.divisionByZero, c.line⟩ m) ∧
      (a = Int64.minValue → b = -1 →
        ∃ n, Passes [dest, t, u] 9 m (before.length + 9) n ∧ n.read dest = .ok 0)) := by
  refine ⟨?_, ?_⟩
  · rintro rfl
    have placed := placed_between before (c.floorDiv dest x y r t u done) after
    have position : labelPosition? (before ++ c.floorDiv dest x y r t u done ++ after) done =
        some (before.length + 9) := by
      rw [floorDiv_eq]
      exact labelPosition?_between c fresh rfl
    refine ⟨fun nonzero fits => ?_, fun zero => ?_, ?_⟩
    · obtain ⟨n, passes, value⟩ := passes_floorDiv runs pc left right nonzero fits placed position
        distinct xOther yOther writable
      rw [← ofInt_fdiv nonzero] at value
      exact ⟨n, _, passes, value, toInt_ofInt_fdiv nonzero fits⟩
    · exact round_of_apply_error runs pc placed left right (if_pos zero)
    · rintro rfl rfl
      exact round_of_apply_error runs pc placed left right rfl
  · rintro rfl
    have placed := placed_between before (c.floorMod dest x y t u done) after
    have position : labelPosition? (before ++ c.floorMod dest x y t u done ++ after) done =
        some (before.length + 8) := by
      rw [floorMod_eq]
      exact labelPosition?_between c fresh rfl
    have fewer : [dest, t, u] <+ [dest, r, t, u] := (sublist_cons_self r [t, u]).cons_cons dest
    have result (nonzero : b ≠ 0) : ∃ n v, Passes [dest, t, u] 9 m (before.length + 9) n ∧
        n.read dest = .ok v ∧ v.toInt = a.toInt - b.toInt * a.toInt.fdiv b.toInt := by
      obtain ⟨n, passes, value⟩ := passes_floorMod runs pc left right nonzero placed position
        (distinct.sublist fewer) (fun among => yOther (fewer.subset among))
        (fun o among => writable o (fewer.subset among))
      rw [← ofInt_fmod nonzero] at value
      exact ⟨n, _, passes, value, (toInt_ofInt_fmod nonzero).trans (Int.fmod_def _ _)⟩
    refine ⟨result, fun zero => ?_, ?_⟩
    · exact round_of_apply_error runs pc placed left right (if_pos zero)
    · rintro rfl rfl
      obtain ⟨n, v, passes, value, exact_⟩ := result (by decide)
      have zero : v = 0 := Int64.toInt_inj.1 (exact_.trans (by decide))
      exact ⟨n, passes, zero ▸ value⟩

end Code

/-- A machine in a function with four locals that is to divide -7 by 2. -/
def dividing (code : Code) : Machine where
  env := {}
  top := { routine := .ofCode code, locals := #[0, 0, 0, 0], args := #[-7, 2], entry := .ofHost }
  gas := 10

theorem rounding_exact_dividing :
    (∃ n v, Passes [.var 0, .var 1, .var 2, .var 3] 10
      (dividing (Context.floorDiv default (.var 0) (.arg 0) (.arg 1) (.var 1) (.var 2) (.var 3) 0))
      10 n ∧ n.read (.var 0) = .ok v ∧ v.toInt = -4) ∧
    ∃ n v, Passes [.var 0, .var 2, .var 3] 9
      (dividing (Context.floorMod default (.var 0) (.arg 0) (.arg 1) (.var 2) (.var 3) 0)) 9 n ∧
      n.read (.var 0) = .ok v ∧ v.toInt = 1 := by
  have distinct : [Operand.var 0, .var 1, .var 2, .var 3].Nodup := by decide
  have first : Operand.arg 0 ∉ [Operand.var 0, .var 1, .var 2, .var 3] := by decide
  have second : Operand.arg 1 ∉ [Operand.var 0, .var 1, .var 2, .var 3] := by decide
  have fresh : (0 : UInt32) ∉ definedLabels [] := not_mem_nil
  have writable (code : Code) : ∀ o ∈ [Operand.var 0, .var 1, .var 2, .var 3],
      (dividing code).top.canWrite o = true := by
    simp [dividing, Activation.canWrite]
  constructor
  · obtain ⟨n, v, passes, value, exact_⟩ := (rounding_exact (a := -7) (b := 2) default [] [] rfl rfl
      fresh distinct first second (writable _) rfl rfl).1 rfl |>.1 (by decide) (by decide)
    exact ⟨n, v, passes, value, exact_⟩
  · obtain ⟨n, v, passes, value, exact_⟩ := (rounding_exact (a := -7) (b := 2) default [] [] rfl rfl
      fresh distinct first second (writable _) rfl rfl).2 rfl |>.1 (by decide)
    exact ⟨n, v, passes, value, exact_⟩

end SlotLang.Subset
