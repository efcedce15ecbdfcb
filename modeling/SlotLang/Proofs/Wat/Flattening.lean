import SlotLang.Assembly.Text
import SlotLang.Proofs.Assembly.Neutral
import SlotLang.Proofs.Wat.Format

/-!
# Structured code as a flat sequence

Structured code is written as one sequence of instructions, with an `end` for every block. Wherever
the structured code is valid its sequence is, with one open level for each block around
(`checkAll_codeOps`). A body is taken piece by piece, one piece for each instruction of the program
and the rest for the dispatch loop, and between two pieces no operands are left (`Walk`).
-/

open List

namespace SlotLang.Assembly

variable {d : Declared} {levels : List Level}

open Wat

mutual

def Instr.ops : Instr → List Op
  | .const v => [.const .i64 v.toInt]
  | .index k => [.const .i32 k]
  | .get r => [.localGet r.text]
  | .set r => [.localSet r.text]
  | .globalGet n => [.globalGet ("$" ++ globalExport n)]
  | .globalSet n => [.globalSet ("$" ++ globalExport n)]
  | .drop => [.drop]
  | .arith op => [.numeric (.arith op)]
  | .compare op => [.numeric (.compare op)]
  | .isZero => [.numeric .isZero]
  | .widen => [.numeric .widen]
  | .both => [.numeric .both]
  | .either => [.numeric .either]
  | .call f => [.call ("$" ++ funcExport f)]
  | .print => [.call "$print_i64"]
  | .ret => [.ret]
  | .br m => [.br m.text]
  | .brTable ms otherwise => [.brTable (ms.map Mark.text ++ [otherwise.text])]
  | .block m body => .block m.text :: (codeOps body ++ [.finish])
  | .loop m body => .loop m.text :: (codeOps body ++ [.finish])
  | .ifThen body => .ifThen :: (codeOps body ++ [.finish])
  | .note _ => []

/-- Code as it stands in the text. -/
def codeOps : List Instr → List Op
  | [] => []
  | i :: rest => i.ops ++ codeOps rest

end

theorem codeOps_append (xs ys : List Instr) : codeOps (xs ++ ys) = codeOps xs ++ codeOps ys := by
  induction xs with
  | nil => simp [codeOps]
  | cons i xs ih => simp [codeOps, ih]

theorem codeOps_flatten (codes : List (List Instr)) :
    codeOps codes.flatten = codes.flatMap codeOps := by
  induction codes with
  | nil => simp [codeOps]
  | cons code codes ih => rw [flatten_cons, codeOps_append, ih, flatMap_cons]

theorem checkAll_append (c : Context) (levels : List Level) (xs ys : List Op) :
    checkAll c levels (xs ++ ys) = (checkAll c levels xs).bind (checkAll c · ys) :=
  foldlM_append

theorem checkAll_cons (c : Context) (levels : List Level) (op : Op) (rest : List Op) :
    checkAll c levels (op :: rest) = (op.check c levels).bind (checkAll c · rest) := rfl

theorem checkAll_single (c : Context) (levels : List Level) (op : Op) :
    checkAll c levels [op] = op.check c levels := by
  rw [checkAll_cons]
  cases op.check c levels <;> rfl

/-! ## Valid code is a valid sequence -/

/-- The text declares by name what structured code may refer to. -/
structure Names (d : Declared) (c : Context) : Prop where
  globals : ∀ n : UInt32, n.toNat < d.globalCount → "$" ++ globalExport n ∈ c.globals
  registers : ∀ r type, d.registerType? r = some type → c.locals.lookup r.text = some type
  funcs : ∀ f n, d.funcs.lookup f = some n →
    c.funcs.lookup ("$" ++ funcExport f) = some (List.replicate n.toNat .i64, [.i64])
  print : c.funcs.lookup "$print_i64" = some ([.i64], [])
  results : c.results = if d.hasResult then [.i64] else []

/-- Every mark in scope is the label of an open level. -/
def Enclosed (d : Declared) (levels : List Level) : Prop :=
  ∀ m ∈ d.marks, encloses levels m.text = true

theorem Names.inside {c : Context} (names : Names d c) (m : Mark) : Names (d.inside m) c :=
  ⟨names.globals, names.registers, names.funcs, names.print, names.results⟩

theorem Enclosed.inside {stack : StackType} (enclosed : Enclosed d levels) (m : Mark) :
    Enclosed (d.inside m) (⟨some m.text, stack⟩ :: levels) := by
  intro k member
  rcases mem_cons.1 member with rfl | outside
  · simp [encloses]
  · have found := enclosed k outside
    simp only [encloses, any_cons, Bool.or_eq_true] at found ⊢
    exact .inr found

theorem Enclosed.top {l : Option String} {s t : StackType} {outer : List Level}
    (enclosed : Enclosed d (⟨l, s⟩ :: outer)) : Enclosed d (⟨l, t⟩ :: outer) :=
  enclosed

theorem Enclosed.pushed {f : Level} (enclosed : Enclosed d levels) : Enclosed d (f :: levels) := by
  intro k member
  have found := enclosed k member
  simp only [encloses, any_cons, Bool.or_eq_true] at found ⊢
  exact .inr found

theorem popAll_replicate (n : Nat) (s : StackType) :
    popAll (List.replicate n .i64) s = s.popMany .i64 n := by
  rw [popAll, reverse_replicate]
  induction n generalizing s with
  | zero => rfl
  | succ n ih =>
    rw [replicate_succ, foldlM_cons, StackType.popMany]
    exact congrArg _ (funext fun s => ih s)

section

variable {c : Context} {l : Option String} {outer : List Level} {s t : StackType}

theorem checkAll_numeric {op : Numeric}
    (popped : (popAll op.type.1 s).map (·.push op.type.2) = some t) :
    checkAll c (⟨l, s⟩ :: outer) [.numeric op] = some (⟨l, t⟩ :: outer) := by
  rw [checkAll_single, Op.check, onTop, popped, Option.map_some]

/-- A block keeps the operands of the level around it. -/
theorem checkAll_nested {m : Mark} {code : List Op} {u : StackType}
    (nested : checkAll c (⟨some m.text, {}⟩ :: ⟨l, s⟩ :: outer) code =
      some (⟨some m.text, u⟩ :: ⟨l, s⟩ :: outer))
    (checked : (if u.isDone then some s else none) = some t) :
    checkAll c (⟨some m.text, {}⟩ :: ⟨l, s⟩ :: outer) (code ++ [.finish]) = some (⟨l, t⟩ :: outer) := by
  split at checked
  · next done =>
    cases checked
    rw [checkAll_append, nested]
    simp [checkAll_single, Op.check, done]
  · cases checked

mutual

theorem checkAll_ops (i : Instr) {d : Declared} (names : Names d c) {s t : StackType}
    {l : Option String} {outer : List Level} (enclosed : Enclosed d (⟨l, s⟩ :: outer))
    (checked : i.check d s = some t) :
    checkAll c (⟨l, s⟩ :: outer) i.ops = some (⟨l, t⟩ :: outer) := by
  match i with
  | .const v =>
    cases checked
    have low := Int64.le_toInt v
    have high := Int64.toInt_lt v
    have range : inRange .i64 v.toInt = true := by
      simp only [inRange, Bool.and_eq_true, decide_eq_true_eq]
      omega
    simp [Instr.ops, checkAll_single, Op.check, range, onTop]
  | .index k =>
    rw [Instr.check] at checked
    split at checked
    · next small =>
      cases checked
      have range : inRange .i32 k = true := by
        simp only [inRange, Bool.and_eq_true, decide_eq_true_eq]
        omega
      simp [Instr.ops, checkAll_single, Op.check, range, onTop]
    · cases checked
  | .get r =>
    rw [Instr.check, Option.map_eq_some_iff] at checked
    obtain ⟨type, found, rfl⟩ := checked
    simp [Instr.ops, checkAll_single, Op.check, names.registers r type found, onTop]
  | .set r =>
    rw [Instr.check, Option.bind_eq_some_iff] at checked
    obtain ⟨type, found, popped⟩ := checked
    simp [Instr.ops, checkAll_single, Op.check, names.registers r type found, onTop, popped]
  | .globalGet n =>
    rw [Instr.check] at checked
    split at checked
    · next small =>
      cases checked
      simp [Instr.ops, checkAll_single, Op.check, names.globals n small, onTop]
    · cases checked
  | .globalSet n =>
    rw [Instr.check] at checked
    split at checked
    · next small =>
      simp [Instr.ops, checkAll_single, Op.check, names.globals n small, onTop, checked]
    · cases checked
  | .drop =>
    rw [Instr.check] at checked
    simp [Instr.ops, checkAll_single, Op.check, onTop, checked]
  | .arith op | .compare op | .isZero | .widen | .both | .either =>
    exact checkAll_numeric
      (by simpa [Instr.check, Numeric.type, popAll, Option.bind_eq_some_iff] using checked)
  | .call f =>
    rw [Instr.check] at checked
    obtain ⟨n, found, rest⟩ := Option.bind_eq_some_iff.1 checked
    obtain ⟨u, popped, pushed⟩ := Option.bind_eq_some_iff.1 rest
    rw [← popAll_replicate] at popped
    cases pushed
    simp [Instr.ops, checkAll_single, Op.check, names.funcs f n found, onTop, popped]
  | .print =>
    have popped : popAll [.i64] s = some t := by simpa [Instr.check, popAll] using checked
    simp [Instr.ops, checkAll_single, Op.check, names.print, onTop, popped]
  | .ret =>
    have popped : (popAll c.results s).map (fun _ => StackType.never) = some t := by
      rw [names.results]
      rw [Instr.check] at checked
      cases result : d.hasResult with
      | true =>
        rw [result, if_pos rfl] at checked
        simpa [popAll] using checked
      | false =>
        rw [result, if_neg Bool.false_ne_true] at checked
        exact checked
    simp [Instr.ops, checkAll_single, Op.check, onTop, popped]
  | .br m =>
    rw [Instr.check] at checked
    split at checked
    · next inScope =>
      cases checked
      have found := enclosed m (by simpa using inScope)
      simp [Instr.ops, checkAll_single, Op.check, found, onTop]
    · cases checked
  | .brTable ms otherwise =>
    rw [Instr.check] at checked
    split at checked
    · next inScope =>
      have marks : ∀ m ∈ otherwise :: ms, m ∈ d.marks := by simpa using inScope
      have found : (ms.map Mark.text ++ [otherwise.text]).all (encloses (⟨l, s⟩ :: outer)) = true := by
        rw [all_eq_true]
        intro label member
        rcases mem_append.1 member with one | last
        · obtain ⟨m, there, rfl⟩ := mem_map.1 one
          exact enclosed m (marks m (mem_cons_of_mem _ there))
        · rw [mem_singleton.1 last]
          exact enclosed otherwise (marks otherwise mem_cons_self)
      rw [Instr.ops, checkAll_single, Op.check, if_pos found, onTop, checked]
      rfl
    · cases checked
  | .block m body | .loop m body =>
    rw [Instr.check] at checked
    cases inner : checkCode (d.inside m) {} body with
    | none =>
      rw [inner] at checked
      cases checked
    | some u =>
      rw [inner] at checked
      exact checkAll_nested (checkAll_codeOps body (names.inside m) (enclosed.inside m) inner) checked
  | .ifThen body =>
    rw [Instr.check] at checked
    cases inner : checkCode d {} body with
    | none =>
      rw [inner] at checked
      cases checked
    | some u =>
      rw [inner] at checked
      change (if u.isDone then s.pop .i32 else none) = some t at checked
      split at checked
      · next done =>
        have nested := checkAll_codeOps body names
          (enclosed.top (t := t)).pushed inner (l := none)
        rw [Instr.ops, checkAll_cons, Op.check, onTop, checked]
        simp only [Option.map_some, Option.bind_some]
        rw [checkAll_append, nested]
        simp [checkAll_single, Op.check, done]
      · cases checked
  | .note label =>
    cases checked
    rfl

theorem checkAll_codeOps (code : List Instr) {d : Declared} (names : Names d c) {s t : StackType}
    {l : Option String} {outer : List Level} (enclosed : Enclosed d (⟨l, s⟩ :: outer))
    (checked : checkCode d s code = some t) :
    checkAll c (⟨l, s⟩ :: outer) (codeOps code) = some (⟨l, t⟩ :: outer) := by
  match code with
  | [] =>
    rw [checkCode] at checked
    cases checked
    rfl
  | i :: rest =>
    obtain ⟨u, first, others⟩ := checkCode_cons checked
    rw [codeOps, checkAll_append, checkAll_ops i names enclosed first, Option.bind_some]
    exact checkAll_codeOps rest names enclosed.top others

end

end

end SlotLang.Assembly
