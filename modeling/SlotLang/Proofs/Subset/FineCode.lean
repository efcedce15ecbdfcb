import SlotLang.Proofs.Canonical.Lines
import SlotLang.Proofs.Numerals
import SlotLang.Proofs.Segments
import SlotLang.Proofs.Subset.Inversion
import SlotLang.Proofs.Subset.Slots

/-!
# Lowered code fits its place

Every instruction that lowering makes has the operands that its opcode asks for, names only slots of
its place, calls a function of the program with as many arguments as that has parameters, and jumps to
a label that is defined around it. `FineCode` says this of a piece of code together with the labels
that enclosing statements will define.
-/

open List

namespace SlotLang

@[simp] theorem definedLabels_append (xs ys : List Instruction) :
    definedLabels (xs ++ ys) = definedLabels xs ++ definedLabels ys :=
  filterMap_append

namespace Subset

variable {m : ModuleScope} {scope : Option FuncScope} {outer labels : List UInt32}
  {c : Context} {k k' : Counters} {code xs ys : Code} {dest o : Operand}

/-! ## Instructions -/

/-- A slot of a scope: that of a name or of a temporary. -/
inductive Writable (m : ModuleScope) (scope : Option FuncScope) : Operand → Prop where
  | name {line : Nat} {x : String} {o : Operand}
    (resolved : Context.resolve ⟨m, scope, line⟩ x = .ok o) : Writable m scope o
  | temp (n : Nat) : Writable m scope (Context.temp ⟨m, scope, 0⟩ n)

/-- An operand that code of a scope may have. -/
def Readable (m : ModuleScope) (scope : Option FuncScope) (o : Operand) : Prop :=
  o.isSlot = false ∨ Writable m scope o

/-- A slot that a scope has: local ones and arguments stand in functions only. -/
def InScope (scope : Option FuncScope) : Operand → Prop
  | .lit _ => False
  | .global _ => True
  | .var _ => scope.isSome = true
  | .arg n => ∃ s, scope = some s ∧ n.toNat < s.params.length

theorem Writable.inScope (slot : Writable m scope o) : InScope scope o := by
  cases slot with
  | temp n => cases scope <;> trivial
  | name resolved =>
    rcases resolve_cases resolved with inside | ⟨-, n, -, rfl⟩
    · obtain ⟨s, rfl, slot⟩ := Option.bind_eq_some_iff.1 inside
      rcases FuncScope.slot?_eq_some slot with ⟨i, position, rfl⟩ | ⟨-, n, -, rfl⟩
      · have bound := (List.getElem?_eq_some_iff.1 (FuncScope.getElem?_of_idxOf? position)).1
        exact ⟨s, rfl, Nat.lt_of_le_of_lt (by simpa using Nat.mod_le _ _) bound⟩
      · rfl
    · trivial

theorem Writable.isSlot (slot : Writable m scope o) : o.isSlot = true := by
  cases o with
  | lit v => exact slot.inScope.elim
  | global | var | arg => rfl

theorem writable_temp (c : Context) (n : Nat) : Writable c.module c.scope (c.temp n) :=
  .temp n

theorem Writable.readable (slot : Writable m scope o) : Readable m scope o :=
  .inr slot

theorem Readable.inScope (readable : Readable m scope o) (slot : o.isSlot = true) :
    InScope scope o :=
  (readable.resolve_left (by simp [slot])).inScope

/-- An instruction that fits its place, if the given labels are defined. -/
structure Fine (m : ModuleScope) (scope : Option FuncScope) (labels : List UInt32)
    (i : Instruction) : Prop where
  shaped : i.Shaped
  operands : ∀ o ∈ i.operands, Readable m scope o
  returns : i.opcode = .ret → scope.isSome = true
  jumps : i.opcode = .jump ∨ i.opcode = .jumpIf → ∀ label, i.label? = some label → label ∈ labels
  calls : ∀ index args, i.callTarget? = some (index, args) →
    ∃ d ∈ m.defs, d.index = index ∧ args.length = d.params.length

/-- Instructions that fit their place, if some further labels are defined around them. -/
def FineCode (m : ModuleScope) (scope : Option FuncScope) (outer : List UInt32) (code : Code) : Prop :=
  ∀ i ∈ code, Fine m scope (outer ++ definedLabels code) i

theorem Fine.mono {i : Instruction} (fine : Fine m scope outer i)
    (more : ∀ l ∈ outer, l ∈ labels) : Fine m scope labels i :=
  { fine with jumps := fun jumps label target => more label (fine.jumps jumps label target) }

namespace FineCode

theorem nil : FineCode m scope outer [] := by
  intro i member
  cases member

theorem append (first : FineCode m scope outer xs) (second : FineCode m scope outer ys) :
    FineCode m scope outer (xs ++ ys) := by
  intro i member
  rw [definedLabels_append]
  rcases mem_append.1 member with left | right
  · exact (first i left).mono fun l there => by
      rcases mem_append.1 there with outside | inside <;> simp [*]
  · exact (second i right).mono fun l there => by
      rcases mem_append.1 there with outside | inside <;> simp [*]

theorem weaken (fine : FineCode m scope outer code) (more : ∀ l ∈ outer, l ∈ labels) :
    FineCode m scope labels code := by
  intro i member
  refine (fine i member).mono fun l there => ?_
  rcases mem_append.1 there with outside | inside
  · exact mem_append_left _ (more l outside)
  · exact mem_append_right _ inside

theorem discharge {l : UInt32} (fine : FineCode m scope (l :: outer) code)
    (defined : l ∈ definedLabels code) : FineCode m scope outer code := by
  intro i member
  refine (fine i member).mono fun l' there => ?_
  rcases mem_cons.1 there with rfl | there
  · exact mem_append_right _ defined
  · exact there

theorem single {i : Instruction} (fine : Fine m scope outer i) : FineCode m scope outer [i] := by
  intro j member
  rw [mem_singleton.1 member]
  exact fine.mono fun l there => mem_append_left _ there

theorem snoc {i : Instruction} (fine : FineCode m scope outer xs) (last : Fine m scope outer i) :
    FineCode m scope outer (xs ++ [i]) :=
  fine.append (single last)

theorem cons {i : Instruction} (first : Fine m scope outer i) (fine : FineCode m scope outer xs) :
    FineCode m scope outer (i :: xs) :=
  (single first).append fine

end FineCode

/-! ## The instructions of lowering -/

section

variable {l : UInt32} {a b : Operand}

theorem fine_copy (slot : Writable c.module c.scope dest) (readable : Readable c.module c.scope a) :
    Fine c.module c.scope outer (c.copy dest a) where
  shaped := .assign slot.isSlot
  operands := by simpa [Context.copy, Context.ins] using ⟨slot.readable, readable⟩
  returns := nofun
  jumps := nofun
  calls := nofun

theorem fine_binary {op : BinaryOp} (slot : Writable c.module c.scope dest)
    (left : Readable c.module c.scope a) (right : Readable c.module c.scope b) :
    Fine c.module c.scope outer (c.ins (.binary op) [dest, a, b]) where
  shaped := .binary slot.isSlot
  operands := by simpa [Context.ins] using ⟨slot.readable, left, right⟩
  returns := nofun
  jumps := nofun
  calls := nofun

theorem fine_not (slot : Writable c.module c.scope dest) (readable : Readable c.module c.scope a) :
    Fine c.module c.scope outer (c.ins .not [dest, a]) where
  shaped := .not slot.isSlot
  operands := by simpa [Context.ins] using ⟨slot.readable, readable⟩
  returns := nofun
  jumps := nofun
  calls := nofun

theorem definedLabel?_label (c : Context) (l : UInt32) : (c.label l).definedLabel? = some l :=
  congrArg some (Value.low_ofIndex l)

theorem fine_label : Fine c.module c.scope outer (c.label l) where
  shaped := .label (LineForm.isIndex_ofIndex l)
  operands := by simp [Context.label, Context.ins, Operand.ofIndex, Readable, Operand.isSlot]
  returns := nofun
  jumps := nofun
  calls := nofun

theorem label?_jump (c : Context) (l : UInt32) : (c.jump l).label? = some l :=
  congrArg some (Value.low_ofIndex l)

theorem label?_jumpIf (c : Context) (a : Operand) (l : UInt32) : (c.jumpIf a l).label? = some l :=
  congrArg some (Value.low_ofIndex l)

theorem fine_jump (target : l ∈ outer) : Fine c.module c.scope outer (c.jump l) where
  shaped := .jump (LineForm.isIndex_ofIndex l)
  operands := by simp [Context.jump, Context.ins, Operand.ofIndex, Readable, Operand.isSlot]
  returns := nofun
  jumps _ label named := by
    cases (label?_jump c l).symm.trans named
    exact target
  calls := nofun

theorem fine_jumpIf (readable : Readable c.module c.scope a) (target : l ∈ outer) :
    Fine c.module c.scope outer (c.jumpIf a l) where
  shaped := .jumpIf (LineForm.isIndex_ofIndex l)
  operands := by
    simpa [Context.jumpIf, Context.ins, Operand.ofIndex, Readable, Operand.isSlot] using readable
  returns := nofun
  jumps _ label named := by
    cases (label?_jumpIf c a l).symm.trans named
    exact target
  calls := nofun

theorem fine_output (readable : Readable c.module c.scope a) :
    Fine c.module c.scope outer (c.ins .output [a]) where
  shaped := .output
  operands := by simpa [Context.ins] using readable
  returns := nofun
  jumps := nofun
  calls := nofun

theorem fine_ret (inside : c.scope.isSome = true) (readable : Readable c.module c.scope a) :
    Fine c.module c.scope outer (c.ins .ret [a]) where
  shaped := .ret
  operands := by simpa [Context.ins] using readable
  returns _ := inside
  jumps := nofun
  calls := nofun

theorem fine_call {d : Def} {args : List Operand} (slot : Writable c.module c.scope dest)
    (known : d ∈ c.module.defs) (count : args.length = d.params.length)
    (readable : ∀ a ∈ args, Readable c.module c.scope a) :
    Fine c.module c.scope outer (c.ins .call (dest :: .ofIndex d.index :: args)) where
  shaped := .call slot.isSlot (LineForm.isIndex_ofIndex d.index)
  operands := by
    simp only [Context.ins, forall_mem_cons]
    exact ⟨slot.readable, .inl rfl, readable⟩
  returns := nofun
  jumps := nofun
  calls index args' target := by
    have here : (c.ins .call (dest :: .ofIndex d.index :: args)).callTarget? = some (d.index, args) := by
      simp [Context.ins, Instruction.callTarget?, Instruction.operand?, Operand.ofIndex,
        Operand.literal?, Value.low_ofIndex]
    cases here.symm.trans target
    exact ⟨d, known, rfl, count⟩

end

/-! ## Pieces of code -/

theorem fine_signCheck {r b t u : Operand} {done : UInt32} (remainder : Readable c.module c.scope r)
    (divisor : Readable c.module c.scope b) (first : Writable c.module c.scope t)
    (second : Writable c.module c.scope u) :
    FineCode c.module c.scope [done] (c.signCheck r b t u done) := by
  have lit : Readable c.module c.scope (.lit 0) := .inl rfl
  have here : done ∈ [done] := mem_cons_self
  exact .cons (fine_binary first remainder lit) <| .cons (fine_jumpIf first.readable here) <|
    .cons (fine_binary first remainder lit) <| .cons (fine_binary second divisor lit) <|
    .cons (fine_binary first first.readable second.readable) <|
    .single (fine_jumpIf first.readable here)

theorem FineCode.labelled {l : UInt32} (fine : FineCode c.module c.scope (l :: outer) code) :
    FineCode c.module c.scope outer (code ++ [c.label l]) := by
  refine (fine.snoc fine_label).discharge ?_
  rw [definedLabels_append]
  exact mem_append_right _ (mem_definedLabels mem_cons_self (definedLabel?_label c l))

theorem fine_skipCode (op : Connective) {t : Operand} (done : UInt32)
    (slot : Writable c.module c.scope dest) (temp : Writable c.module c.scope t) :
    FineCode c.module c.scope [done] (skipCode c op dest t done) := by
  have here : done ∈ [done] := mem_cons_self
  cases op with
  | and => exact .cons (fine_not temp slot.readable) (.single (fine_jumpIf temp.readable here))
  | or => exact .single (fine_jumpIf slot.readable here)

/-- The labels that a `break` or `continue` jumps to. -/
def loopTargets (loop : Option LoopLabels) : List UInt32 :=
  loop.toList.flatMap fun labels => [labels.top, labels.done]

end Subset

end SlotLang
