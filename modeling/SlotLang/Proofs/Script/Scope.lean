import Mathlib.Data.List.Nodup
import SlotLang.Proofs.Bodies
import SlotLang.Proofs.Script.Loop

/-!
# Which names are local

Different slots have different names, and no slot is named like `_pc`. In the script of a program, a
function's locals and parameters are local and globals never are, because every global that the
function assigns is declared.
-/

open List

namespace SlotLang

namespace Operand

variable {o : Operand}

def letter : Operand → Char
  | .global _ => 'g'
  | .var _ => 'v'
  | .arg _ => 'a'
  | .lit _ => '0'

def number : Operand → UInt32
  | .global n | .var n | .arg n => n
  | .lit _ => 0

theorem toList_text (slot : o.isSlot = true) :
    o.text.toList = o.letter :: (toString o.number.toNat).toList := by
  cases o with
  | lit v => cases slot
  | global n | var n | arg n => exact String.toList_append

theorem text_inj {o' : Operand} (slot : o.isSlot = true) (slot' : o'.isSlot = true)
    (same : o.text = o'.text) : o = o' := by
  have lists := congrArg String.toList same
  rw [toList_text slot, toList_text slot', List.cons.injEq] at lists
  obtain ⟨letters, digits⟩ := lists
  have numbers : o.number = o'.number :=
    UInt32.toNat_inj.1 (toString_inj (String.toList_inj.1 digits))
  cases o <;> cases o' <;> simp_all [letter, number, isSlot]

theorem text_ne_pcName (slot : o.isSlot = true) : o.text ≠ Script.pcName := by
  intro same
  have lists := congrArg String.toList same
  rw [toList_text slot, show Script.pcName.toList = ['_', 'p', 'c'] by decide] at lists
  cases o <;> simp [letter] at lists

end Operand

namespace Script

variable {code : List Instruction} {i : Instruction} {inFunc : Bool} {name : String}
  {table : List (UInt32 × Nat)}

/-! ## Names that statements assign -/

theorem assignedIn_append (xs ys : List Stmt) :
    assignedIn (xs ++ ys) = assignedIn xs ++ assignedIn ys := by
  induction xs with
  | nil => rfl
  | cons x xs ih => simp [assignedIn, ih]

/-- A name that some code can assign: `_pc` or the name of a slot that it writes. -/
def Assignable (code : List Instruction) (name : String) : Prop :=
  name = pcName ∨ ∃ i ∈ code, ∃ dest, i.dest? = some dest ∧ name = dest.text

theorem Assignable.mono {code' : List Instruction} (assignable : Assignable code name)
    (included : ∀ i ∈ code, i ∈ code') : Assignable code' name := by
  rcases assignable with isPc | ⟨i, member, written⟩
  · exact .inl isPc
  · exact .inr ⟨i, included i member, written⟩

theorem assignable_jumpStmts (assigned : name ∈ assignedIn (jumpStmts table i))
    (code : List Instruction) : Assignable code name := by
  unfold jumpStmts at assigned
  cases segment : table.lookup (i.label?.getD 0) with
  | none => simp [segment, assignedIn, Stmt.assigned] at assigned
  | some k =>
    left
    simpa [segment, assignedIn, Stmt.assigned] using assigned

theorem assignable_instructionStmts (shaped : i.Shaped)
    (assigned : name ∈ assignedIn (instructionStmts table inFunc i)) : Assignable [i] name := by
  cases shaped with
  | assign slot | binary slot | not slot | call slot index =>
    right
    refine ⟨_, mem_singleton_self _, _, rfl, ?_⟩
    exact mem_singleton.1 assigned
  | label index | output => exact absurd assigned not_mem_nil
  | jump index => exact assignable_jumpStmts assigned _
  | jumpIf index =>
    change name ∈ assignedIn (jumpStmts table _) ++ [] at assigned
    rw [append_nil] at assigned
    exact assignable_jumpStmts assigned _
  | ret =>
    cases inFunc <;> exact absurd assigned not_mem_nil

theorem assignable_sequenceStmts (shaped : ∀ i ∈ code, i.Shaped)
    (assigned : name ∈ assignedIn (sequenceStmts table inFunc code)) : Assignable code name := by
  induction code with
  | nil => exact absurd assigned not_mem_nil
  | cons i rest ih =>
    rw [sequenceStmts, flatMap_cons, assignedIn_append, mem_append] at assigned
    rcases assigned with here | later
    · exact (assignable_instructionStmts (shaped i mem_cons_self) here).mono (by simp)
    · exact (ih (fun j member => shaped j (mem_cons_of_mem _ member)) later).mono
        fun j member => mem_cons_of_mem _ member

theorem assignable_branchesFrom {count k : Nat} {cuts : List (List Instruction)}
    (shaped : ∀ i ∈ cuts.flatten, i.Shaped) (assigned : name ∈
      assignedIn (branchesFrom count k (cuts.map (sequenceStmts table inFunc)))) :
    Assignable cuts.flatten name := by
  induction cuts generalizing k with
  | nil => exact absurd assigned not_mem_nil
  | cons cut rest ih =>
    rw [map_cons, branchesFrom_cons] at assigned
    change name ∈ assignedIn (_ ++ [handOver count k]) ++ _ at assigned
    rw [assignedIn_append, mem_append, mem_append] at assigned
    rw [flatten_cons] at shaped ⊢
    rcases assigned with (here | handed) | later
    · exact (assignable_sequenceStmts (fun i member => shaped i (mem_append_left _ member))
        here).mono fun i member => mem_append_left _ member
    · left
      unfold handOver at handed
      split at handed
      · exact mem_singleton.1 handed
      · exact absurd handed not_mem_nil
    · exact (ih (fun i member => shaped i (mem_append_right _ member)) later).mono
        fun i member => mem_append_right _ member

/-- The statements of a body assign `_pc` and slots that the body writes. -/
theorem assignable_bodyStmts (shaped : ∀ i ∈ code, i.Shaped)
    (assigned : name ∈ assignedIn (bodyStmts inFunc code)) : Assignable code name := by
  cases steered : hasControl code with
  | false =>
    rw [bodyStmts_of_straight steered] at assigned
    exact assignable_sequenceStmts shaped assigned
  | true =>
    rw [bodyStmts_of_control steered] at assigned
    have whole := flatten_segments code
    change name ∈ pcName :: (assignedIn (loopBody inFunc code) ++ []) at assigned
    rw [append_nil] at assigned
    rcases mem_cons.1 assigned with isPc | looped
    · exact .inl isPc
    · have inside := assignable_branchesFrom (by rwa [whole]) looped
      rwa [whole] at inside

/-! ## Declared globals -/

theorem mem_keys_insertEntry {α : Type} (key : UInt32) (value : α) (entries : List (UInt32 × α))
    (k : UInt32) :
    k ∈ (SlotMap.insertEntry key value entries).map Prod.fst ↔ k = key ∨ k ∈ entries.map Prod.fst := by
  induction entries with
  | nil => simp [SlotMap.insertEntry]
  | cons head rest ih =>
    obtain ⟨j, v⟩ := head
    unfold SlotMap.insertEntry
    split
    · simp
    · split
      · next same => simp [same]
      · rw [map_cons, mem_cons, ih, map_cons, mem_cons, or_left_comm]

theorem mem_foldl_insert (ns : List UInt32) (found : SlotMap Unit) (k : UInt32) :
    k ∈ (ns.foldl (fun found n => found.insert n ()) found).toList.map Prod.fst ↔
      k ∈ ns ∨ k ∈ found.toList.map Prod.fst := by
  induction ns generalizing found with
  | nil => simp
  | cons n ns ih =>
    have inserted := mem_keys_insertEntry n () found.entries k
    rw [foldl_cons, ih, mem_cons, or_assoc, or_left_comm]
    exact or_congr_right inserted

theorem mem_writtenGlobals {n : UInt32} (member : i ∈ code) (writes : i.dest? = some (.global n)) :
    n ∈ writtenGlobals code := by
  refine (mem_foldl_insert _ _ n).2 (.inl (mem_filterMap.2 ⟨i, member, ?_⟩))
  rw [writtenGlobal?, writes]
  rfl

/-! ## The names of a body -/

/-- Names are local as the slots of a body ask for. -/
structure Scoped (b : Body) (isLocal : String → Bool) : Prop where
  global : ∀ n, isLocal (Operand.global n).text = false
  var : ∀ n : UInt32, n.toNat < b.varCount → isLocal (Operand.var n).text = true
  arg : ∀ n : UInt32, n.toNat < b.argCount → isLocal (Operand.arg n).text = true

/-- At the level of the module every name is global. -/
theorem scoped_main (p : Program) : Scoped p.mainBody fun _ => false :=
  ⟨fun _ => rfl, fun _ bound => absurd bound (Nat.not_lt_zero _),
    fun _ bound => absurd bound (Nat.not_lt_zero _)⟩

theorem mem_params {f : Func} : name ∈ (Def.ofFunc f).params ↔
      ∃ n : UInt32, n.toNat < f.paramCount.toNat ∧ name = (Operand.arg n).text := by
  constructor
  · intro member
    obtain ⟨n, range, rfl⟩ := mem_map.1 member
    have bound : n < f.paramCount.toNat := mem_range.1 range
    have fits : (UInt32.ofNat n).toNat = n :=
      UInt32.toNat_ofNat_of_lt' (Nat.lt_trans bound f.paramCount.toNat_lt)
    exact ⟨.ofNat n, by rwa [fits], by rw [Operand.text, fits]⟩
  · rintro ⟨n, bound, rfl⟩
    exact mem_map.2 ⟨n.toNat, mem_range.2 bound, rfl⟩

theorem nodup_params (d : Def) : d.params.Nodup := by
  refine List.Nodup.map_on (fun m _ n _ same => ?_) nodup_range
  exact toString_inj (String.append_right_inj "a" |>.1 same)

theorem mem_assignedIn_inits {ns : List Nat} :
    name ∈ assignedIn (ns.map fun n => .assign (.var (.ofNat n)) (.operand (.lit 0))) ↔
      ∃ n ∈ ns, name = (Operand.var (.ofNat n)).text := by
  induction ns with
  | nil => simp [assignedIn]
  | cons n ns ih => simp [assignedIn, Stmt.assigned, ih]

theorem assignedIn_stmts (d : Def) :
    assignedIn d.stmts = assignedIn ((List.range d.localCount.toNat).map
      fun n => .assign (.var (.ofNat n)) (.operand (.lit 0))) ++ assignedIn d.body := by
  rw [Def.stmts, assignedIn_append, assignedIn_append]
  simp [assignedIn, Stmt.assigned]

theorem isLocal_iff {d : Def} :
    d.isLocal name = true ↔ (name ∈ d.params ∨ name ∈ assignedIn d.stmts) ∧
      ∀ n ∈ d.globals, (Operand.global n).text ≠ name := by
  simp [Def.isLocal]

/-- The names of a function are local as its slots ask for. -/
theorem scoped_ofFunc {f : Func} (shaped : ∀ i ∈ f.body, i.Shaped) :
    Scoped f.toBody (Def.ofFunc f).isLocal := by
  refine ⟨fun n => ?_, fun n bound => ?_, fun n bound => ?_⟩
  · -- A global that is assigned is declared.
    refine Bool.eq_false_iff.2 fun isLocal => ?_
    obtain ⟨assigned, undeclared⟩ := isLocal_iff.1 isLocal
    rw [assignedIn_stmts, mem_append, mem_params, mem_assignedIn_inits] at assigned
    rcases assigned with ⟨m, -, same⟩ | ⟨m, -, same⟩ | assigned
    · cases Operand.text_inj rfl rfl same
    · cases Operand.text_inj rfl rfl same
    · rcases assignable_bodyStmts shaped assigned with isPc | ⟨i, member, dest, writes, same⟩
      · exact Operand.text_ne_pcName rfl isPc
      · cases Operand.text_inj rfl ((shaped i member).dest_isSlot writes).1 same
        exact undeclared n (mem_writtenGlobals member writes) rfl
  · refine isLocal_iff.2 ⟨.inr ?_, fun m _ same => ?_⟩
    · rw [assignedIn_stmts, mem_append, mem_assignedIn_inits]
      exact .inl ⟨n.toNat, mem_range.2 bound, by rw [UInt32.ofNat_toNat]⟩
    · cases Operand.text_inj rfl rfl same
  · refine isLocal_iff.2 ⟨.inl (mem_params.2 ⟨n, bound, rfl⟩), fun m _ same => ?_⟩
    cases Operand.text_inj rfl rfl same

end Script

end SlotLang
