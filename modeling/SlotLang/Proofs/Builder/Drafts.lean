import SlotLang.Proofs.Builder.Layout

/-!
# What the builder finds in a unit

`take` is what a draft does with a line that passed its check. On the lines of a layout it gathers
exactly the functions and the module code of the layout, and finds nothing exactly if indices and
arguments fit (`take_layout`). A draft that finds nothing and ends outside all functions has seen
alternating borders (`alternating_of_quiet`), so these are all lines that matter.
-/

open List

namespace SlotLang

variable {known : UInt32} {indices : List UInt32}

/-- The function that the builder makes of a block. -/
def Block.func (b : Block) : Func where
  index := b.index
  paramCount := b.paramCount
  localCount := slotCount Operand.varIndex? b.body
  body := b.body
  line := b.line

/-- The body uses arguments that the function has. -/
def Block.ArgumentsFit (b : Block) : Prop :=
  ∀ i ∈ b.body, ∀ n, .arg n ∈ i.operands → n < b.paramCount

/-- Every element of a list is as `P` asks with respect to the elements before it. -/
def EachAfter {α : Type} (P : List α → α → Prop) : List α → List α → Prop
  | _, [] => True
  | earlier, x :: rest => P earlier x ∧ EachAfter P (earlier ++ [x]) rest

/-! ## Numbers of functions -/

/-- How many of some functions are new in the context of `known` functions. -/
def newAmong (known : UInt32) (indices : List UInt32) : Nat :=
  (indices.filter (known ≤ ·)).length

/-- The index of a function behind others: not used yet, and that of a known function or the next
one. -/
def IndexFits (known : UInt32) (earlier : List UInt32) (index : UInt32) : Prop :=
  index ∉ earlier ∧ (index < known ∨ index.toNat = known.toNat + newAmong known earlier)

/-- The same condition as the builder tests it, where the next index is computed in 32 bits. -/
def IndexPasses (known : UInt32) (earlier : List UInt32) (index : UInt32) : Prop :=
  index ∉ earlier ∧ (index < known ∨ index = known + UInt32.ofNat (newAmong known earlier))

/-- New functions have the indices right after the known ones. -/
structure Packed (known : UInt32) (indices : List UInt32) : Prop where
  bound : known.toNat + newAmong known indices ≤ 0x100000000
  covered : ∀ k < newAmong known indices, ∃ index ∈ indices, index.toNat = known.toNat + k

theorem packed_nil (known : UInt32) : Packed known [] where
  bound := Nat.le_of_lt known.toNat_lt
  covered := fun k less => absurd less (Nat.not_lt_zero k)

theorem newAmong_concat (known : UInt32) (indices : List UInt32) (index : UInt32) :
    newAmong known (indices ++ [index]) =
      newAmong known indices + if known ≤ index then 1 else 0 := by
  rw [newAmong, filter_append, length_append, newAmong]
  by_cases new : known ≤ index <;> simp [new]

theorem Packed.concat {index : UInt32} (packed : Packed known indices)
    (fits : IndexFits known indices index) : Packed known (indices ++ [index]) := by
  have count := newAmong_concat known indices index
  by_cases new : known ≤ index
  · rw [if_pos new] at count
    have next : index.toNat = known.toNat + newAmong known indices :=
      fits.2.resolve_left (UInt32.not_lt.2 new)
    have small := index.toNat_lt
    refine ⟨by omega, fun k less => ?_⟩
    rcases Nat.lt_or_ge k (newAmong known indices) with before | after
    · obtain ⟨j, member, same⟩ := packed.covered k before
      exact ⟨j, mem_append_left _ member, same⟩
    · exact ⟨index, by simp, by omega⟩
  · rw [if_neg new, Nat.add_zero] at count
    refine ⟨count ▸ packed.bound, fun k less => ?_⟩
    obtain ⟨j, member, same⟩ := packed.covered k (count ▸ less)
    exact ⟨j, mem_append_left _ member, same⟩

/-- The sum that the builder computes can wrap only to zero, and then zero is in use. -/
theorem Packed.passes_iff (packed : Packed known indices) (index : UInt32) :
    IndexPasses known indices index ↔ IndexFits known indices index := by
  have bound := packed.bound
  have sum : (known + UInt32.ofNat (newAmong known indices)).toNat =
      (known.toNat + newAmong known indices) % 0x100000000 := by
    simp [UInt32.toNat_add, UInt32.toNat_ofNat']
  unfold IndexPasses IndexFits
  refine and_congr_right fun fresh => or_congr_right' fun new => ?_
  constructor
  · intro next
    rcases Nat.lt_or_eq_of_le bound with less | full
    · rw [next, sum, Nat.mod_eq_of_lt less]
    · have zero : index.toNat = 0 := by
        rw [next, sum, full]
      have least := UInt32.le_iff_toNat_le.1 (UInt32.not_lt.1 new)
      have some : 0 < newAmong known indices := by omega
      obtain ⟨j, member, same⟩ := packed.covered 0 some
      have twice : j = index := UInt32.toNat_inj.1 (by omega)
      exact absurd (twice ▸ member) fresh
  · intro next
    have small := index.toNat_lt
    apply UInt32.toNat_inj.1
    rw [sum, Nat.mod_eq_of_lt (by omega), next]

theorem eachAfter_passes_iff {earlier : List UInt32} (packed : Packed known earlier)
    (indices : List UInt32) :
    EachAfter (IndexPasses known) earlier indices ↔ EachAfter (IndexFits known) earlier indices := by
  induction indices generalizing earlier with
  | nil => exact Iff.rfl
  | cons index indices ih =>
    unfold EachAfter
    rw [packed.passes_iff index]
    exact and_congr_right fun fits => ih (packed.concat fits)

/-! ## Lines that passed their checks -/

namespace Draft

variable {d : Draft} {xs : List FormedLine} {index : UInt32} {lines : List SourceLine}
  {x : FormedLine}

/-- Takes in a line that passed its check. -/
def take (known : UInt32) (d : Draft) (x : FormedLine) : Draft :=
  match x.form with
  | .empty => d
  | .opener index paramCount => d.openFunc known index paramCount x.number
  | .closer => d.closeFunc x.number
  | .instruction i => d.addInstruction i

theorem feed_eq_take {l : SourceLine} (number : x.number = l.number)
    (formed : LineForm.ofTokens l.number l.tokens = .ok x.form) :
    d.feed known l = d.take known x := by
  unfold feed take
  rw [formed, number]
  cases x.form <;> rfl

theorem foldl_feed_eq_take (reads : List.Forall₂ (fun l x => x.number = l.number ∧
      LineForm.ofTokens l.number l.tokens = .ok x.form) lines xs) :
    lines.foldl (feed known) d = xs.foldl (take known) d := by
  induction reads generalizing d with
  | nil => rfl
  | cons first rest ih =>
    rw [foldl_cons, foldl_cons, feed_eq_take first.1 first.2]
    exact ih

theorem formed_of_quiet (quiet : (lines.foldl (feed known) d).findings = #[]) :
    ∃ xs : List FormedLine, List.Forall₂ (fun l x => x.number = l.number ∧
      LineForm.ofTokens l.number l.tokens = .ok x.form) lines xs := by
  induction lines generalizing d with
  | nil => exact ⟨[], .nil⟩
  | cons l lines ih =>
    obtain ⟨-, form, formed⟩ := quiet_of_feed (quiet_of_feedAll quiet)
    obtain ⟨xs, reads⟩ := ih quiet
    exact ⟨⟨l.number, form⟩ :: xs, .cons ⟨rfl, formed⟩ reads⟩

theorem quiet_of_take (quiet : (d.take known x).findings = #[]) : d.findings = #[] := by
  unfold take at quiet
  split at quiet
  · exact quiet
  · exact (quiet_of_openFunc quiet).1
  · exact quiet_of_closeFunc quiet
  · exact (findings_addInstruction d _).symm.trans quiet

theorem quiet_of_takeAll (quiet : (xs.foldl (take known) d).findings = #[]) : d.findings = #[] := by
  induction xs generalizing d with
  | nil => exact quiet
  | cons x xs ih => exact quiet_of_take (ih quiet)

/-- A draft that finds nothing and ends outside all functions has seen alternating borders. Where it
starts inside a function, the opener of that function comes first. -/
theorem alternating_of_quiet (quiet : (xs.foldl (take known) d).findings = #[])
    (closed : (xs.foldl (take known) d).current = none) :
    (d.current = none → Alternating (xs.filter FormedLine.isBorder)) ∧
      ∀ opener : FormedLine, opener.index?.isSome = true → d.current.isSome = true →
        Alternating (opener :: xs.filter FormedLine.isBorder) := by
  induction xs generalizing d with
  | nil =>
    refine ⟨fun _ => trivial, fun opener _ inside => ?_⟩
    rw [show d.current = none from closed] at inside
    cases inside
  | cons x xs ih =>
    obtain ⟨between, behind⟩ := ih quiet closed
    have first : (d.take known x).findings = #[] := quiet_of_takeAll quiet
    obtain ⟨number, form⟩ := x
    cases form with
    | empty => exact ⟨between, behind⟩
    | opener index paramCount =>
      cases opened : d.current with
      | none =>
        refine ⟨fun _ => behind _ rfl ?_, fun _ _ inside => by simp at inside⟩
        simp [take, openFunc, opened]
      | some o =>
        simp only [take, openFunc, opened, Option.isSome_some, if_true] at first
        exact absurd first (findings_note d _)
    | closer =>
      cases opened : d.current with
      | none =>
        simp only [take, closeFunc, opened] at first
        exact absurd first (findings_note d _)
      | some o =>
        refine ⟨fun outside => by simp at outside, fun opener opens _ => ?_⟩
        refine ⟨opens, rfl, between ?_⟩
        simp only [take, closeFunc, opened, noteAll_eq]
        split <;> rfl
    | instruction i =>
      refine ⟨fun outside => between ?_, fun opener opens inside => behind opener opens ?_⟩
      · simp [take, addInstruction, outside]
      · cases opened : d.current with
        | none => simp [opened] at inside
        | some o => simp [take, addInstruction, opened]

/-! ## Items -/

theorem take_body {o : OpenFunc} (opened : d.current = some o) (body : List CodeLine) :
    (body.map CodeLine.formed).foldl (take known) d =
      { d with
        current := some { o with body := o.body ++ (body.map CodeLine.instruction).toArray } } := by
  induction body generalizing d o with
  | nil => simp [← opened]
  | cons c body ih =>
    have first : d.take known c.formed =
        { d with current := some { o with body := o.body.push c.instruction } } := by
      simp [take, CodeLine.formed, addInstruction, opened]
    rw [map_cons, foldl_cons, first, ih rfl]
    simp

/-- Adds a whole function, with what is wrong with its index and its arguments. -/
def addBlock (known : UInt32) (d : Draft) (b : Block) : Draft :=
  { d with
    funcs := d.funcs.push b.func
    findings := d.findings ++
      ((d.indexProblem? known b.index).toList.map (Finding.onLine · b.line)).toArray ++
      (argumentFindings b.index b.paramCount b.body).toArray }

theorem take_block (closed : d.current = none) (line : Nat) (index paramCount : UInt32)
    (body : List CodeLine) (last : Nat) :
    (Item.lines (.block line index paramCount body last)).foldl (take known) d =
      d.addBlock known ⟨line, index, paramCount, body.map CodeLine.instruction⟩ := by
  have opened : (d.take known ⟨line, .opener index paramCount⟩).current =
      some ⟨index, paramCount, line, #[], false⟩ := by
    simp [take, openFunc, closed]
  simp only [Item.lines, foldl_cons, foldl_append, foldl_nil]
  rw [take_body opened]
  simp [take, openFunc, closed, closeFunc, noteAll_eq, finish, addBlock, Block.func]

theorem argumentFindings_eq_nil {paramCount : UInt32} {body : List Instruction} :
    argumentFindings index paramCount body = [] ↔
      ∀ i ∈ body, ∀ n, .arg n ∈ i.operands → n < paramCount := by
  refine ⟨fun none i member n operand => argument_lt none member operand, fun fit => ?_⟩
  unfold argumentFindings
  rw [flatMap_eq_nil_iff]
  intro i member
  rw [filterMap_eq_nil_iff]
  intro o operand
  cases o with
  | arg n => simp [UInt32.not_le.2 (fit i member n operand)]
  | global n | var n | lit v => rfl

theorem indexProblem?_eq_none : d.indexProblem? known index = none ↔
    IndexPasses known (d.funcs.toList.map Func.index) index := by
  have count : newAmong known (d.funcs.toList.map Func.index) =
      (d.funcs.toList.filter fun f => known ≤ f.index).length := by
    rw [newAmong, filter_map, length_map]
    rfl
  unfold IndexPasses
  rw [count]
  constructor
  · intro fine
    obtain ⟨fresh, next⟩ := indexProblem?_none fine
    refine ⟨fun member => ?_, next⟩
    obtain ⟨f, there, same⟩ := mem_map.1 member
    exact fresh f there same
  · rintro ⟨fresh, next⟩
    unfold indexProblem?
    have unused : ¬ d.funcs.any (fun f => f.index == index) = true := by
      simp only [Array.any_eq_true', beq_iff_eq, not_exists, not_and]
      intro f member same
      exact fresh (mem_map.2 ⟨f, Array.mem_toList_iff.2 member, same⟩)
    rw [if_neg unused, if_neg]
    rintro ⟨other, new⟩
    rcases next with below | next
    · exact UInt32.not_le.2 below new
    · exact other next

theorem findings_addBlock {b : Block} : (d.addBlock known b).findings = #[] ↔ d.findings = #[] ∧
    IndexPasses known (d.funcs.toList.map Func.index) b.index ∧ b.ArgumentsFit := by
  have arguments : b.ArgumentsFit ↔ argumentFindings b.index b.paramCount b.body = [] :=
    argumentFindings_eq_nil.symm
  rw [← indexProblem?_eq_none, arguments]
  simp [addBlock]

variable (known d) in
/-- What a draft becomes by the lines of some items, and when nothing is found on the way. -/
theorem take_layout (closed : d.current = none) (items : List Item) :
    ((layout items).foldl (take known) d).current = none ∧
      ((layout items).foldl (take known) d).code.toList =
        d.code.toList ++ items.filterMap Item.code? ∧
      ((layout items).foldl (take known) d).funcs.toList =
        d.funcs.toList ++ (items.filterMap Item.block?).map Block.func ∧
      (((layout items).foldl (take known) d).findings = #[] ↔ d.findings = #[] ∧
        EachAfter (IndexPasses known) (d.funcs.toList.map Func.index)
          ((items.filterMap Item.block?).map Block.index) ∧
        ∀ b ∈ items.filterMap Item.block?, b.ArgumentsFit) := by
  induction items generalizing d with
  | nil => simp [closed, EachAfter]
  | cons item items ih =>
    rw [layout, flatMap_cons, foldl_append]
    cases item with
    | code c =>
      have first : (Item.lines (.code c)).foldl (take known) d =
          { d with code := d.code.push c.instruction } := by
        simp [Item.lines, take, CodeLine.formed, addInstruction, closed]
      rw [first]
      obtain ⟨current, code, funcs, findings⟩ :=
        ih { d with code := d.code.push c.instruction } closed
      refine ⟨current, code.trans ?_, funcs, findings⟩
      simp [Item.code?]
    | block line index paramCount body last =>
      rw [take_block closed]
      have blocks : (Item.block line index paramCount body last :: items).filterMap Item.block? =
          ⟨line, index, paramCount, body.map CodeLine.instruction⟩ ::
            items.filterMap Item.block? := rfl
      rw [blocks]
      generalize Block.mk line index paramCount (body.map CodeLine.instruction) = b
      have pushed : (d.addBlock known b).funcs.toList = d.funcs.toList ++ [b.func] := by
        simp [addBlock]
      obtain ⟨current, code, funcs, findings⟩ := ih (d.addBlock known b) closed
      refine ⟨current, code, funcs.trans (by simp [pushed]), findings.trans ?_⟩
      rw [findings_addBlock, pushed, map_append, forall_mem_cons]
      simp only [map_cons, map_nil, EachAfter, Block.func, and_assoc, and_left_comm]

end Draft

/-! ## Answers -/

theorem Report.foldl_push (ds : List Diagnostic) (r : Report) : ds.foldl push r =
    ⟨r.kept ++ ds.take (capacity - r.kept.length), r.total + .ofNat ds.length⟩ := by
  induction ds generalizing r with
  | nil => simp
  | cons d ds ih =>
    rw [foldl_cons, ih, push, length_cons, Nat.add_comm, UInt64.ofNat_add, ← UInt64.add_assoc]
    by_cases room : r.kept.length < capacity
    · have left : capacity - r.kept.length = capacity - (r.kept.length + 1) + 1 := by omega
      simp [room, left]
    · have full : capacity - r.kept.length = 0 := by omega
      simp [room, full]

/-- Everything that is found in a source. -/
def Source.findings (known : UInt32) (s : Source) : List Finding :=
  (Draft.ofLines known s.significantLines).allFindings known

/-- The builder puts out a program if nothing was found, and otherwise the first findings and their
number. -/
theorem Program.parse_eq (source : Source) (known : UInt32) : parse source known =
    if source.findings known = [] then .ok (Draft.ofLines known source.significantLines).toProgram
    else .error ⟨((source.findings known).take Report.capacity).map (Finding.diagnostic source),
      .ofNat (source.findings known).length⟩ := by
  unfold parse Source.findings
  dsimp only
  split
  · next none => rw [if_pos none]
  · next some =>
    rw [if_neg some, Report.ofList, Report.foldl_push]
    simp

/-- A unit that is not accepted is answered by a report that is not empty. -/
theorem Program.kept_of_parse {source : Source} {known : UInt32} {report : Report}
    (rejected : parse source known = .error report) : report.kept ≠ [] := by
  rw [parse_eq] at rejected
  split at rejected
  · cases rejected
  · next some =>
    rw [← Except.error.inj rejected]
    simpa [Report.capacity] using some

end SlotLang
