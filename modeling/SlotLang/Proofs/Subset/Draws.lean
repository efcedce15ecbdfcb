import Mathlib.Data.List.Perm.Basic
import SlotLang.Proofs.Subset.FineCode

/-!
# What lowering draws

Lowering numbers labels and temporaries by counting. Whatever it draws it uses: a temporary is an
operand of the code that it was drawn for (`Draws`), and the labels that code defines are those that
were drawn for it, each once (`DrawsLabels`). So code tells how far the counters went. One induction
shows this together with the fact that the code fits its place (`Makes`, `LaysOut`).
-/

open List

namespace SlotLang.Subset

variable {c : Context} {m : ModuleScope} {scope : Option FuncScope} {outer labels : List UInt32}
  {k k' k₁ k₂ : Counters} {code xs ys : Code} {dest o : Operand} {i : Instruction}

/-! ## Labels -/

/-- The labels that code defines are those drawn for it. -/
structure DrawsLabels (k k' : Counters) (code : Code) : Prop where
  le : k.labels ≤ k'.labels
  perm : (definedLabels code).Perm
    ((List.range' k.labels (k'.labels - k.labels)).map UInt32.ofNat)

namespace DrawsLabels

/-- Code without labels needs none to be drawn. -/
theorem none (same : k'.labels = k.labels) (plain : definedLabels code = []) :
    DrawsLabels k k' code where
  le := Nat.le_of_eq same.symm
  perm := by rw [plain, same, Nat.sub_self]; exact .refl _

theorem append (first : DrawsLabels k k₁ xs) (second : DrawsLabels k₁ k₂ ys) :
    DrawsLabels k k₂ (xs ++ ys) where
  le := Nat.le_trans first.le second.le
  perm := by
    have split : List.range' k.labels (k₂.labels - k.labels) =
        List.range' k.labels (k₁.labels - k.labels) ++
          List.range' k₁.labels (k₂.labels - k₁.labels) := by
      have firstLe := first.le
      have secondLe := second.le
      have joined := range'_append_1 (s := k.labels) (m := k₁.labels - k.labels)
        (n := k₂.labels - k₁.labels)
      rw [Nat.add_sub_cancel' firstLe] at joined
      rw [joined]
      congr 1
      omega
    rw [definedLabels_append, split, map_append]
    exact first.perm.append second.perm

theorem labelled (inner : DrawsLabels k.withLabel k' code) :
    DrawsLabels k k' (code ++ [c.label (UInt32.ofNat k.labels)]) where
  le := Nat.le_of_succ_le inner.le
  perm := by
    have le : k.labels + 1 ≤ k'.labels := inner.le
    have here : definedLabels [c.label (UInt32.ofNat k.labels)] = [UInt32.ofNat k.labels] :=
      filterMap_cons_some (definedLabel?_label c _)
    have split : List.range' k.labels (k'.labels - k.labels) =
        k.labels :: List.range' (k.labels + 1) (k'.labels - (k.labels + 1)) := by
      rw [← range'_succ]
      congr 1
      omega
    rw [definedLabels_append, here, split, map_cons]
    exact (perm_append_singleton _ _).trans (inner.perm.cons _)

theorem nodup (drawn : DrawsLabels k k' code)
    (few : (definedLabels code).length ≤ 0x100000000) : (definedLabels code).Nodup := by
  rw [drawn.perm.nodup_iff]
  have count := drawn.perm.length_eq
  rw [length_map, length_range'] at count
  rw [List.Nodup, pairwise_map]
  refine List.Pairwise.imp_of_mem ?_ (nodup_range' (s := k.labels))
  intro a b aMember bMember different same
  obtain ⟨i, aBound, rfl⟩ := mem_range'.1 aMember
  obtain ⟨j, bBound, rfl⟩ := mem_range'.1 bMember
  have same := congrArg UInt32.toNat same
  simp only [UInt32.toNat_ofNat'] at same
  omega

end DrawsLabels

/-! ## Temporaries -/

def Uses (code : Code) (o : Operand) : Prop :=
  ∃ i ∈ code, o ∈ i.operands

theorem Uses.append_left (used : Uses xs o) (ys : Code) : Uses (xs ++ ys) o := by
  obtain ⟨i, member, operand⟩ := used
  exact ⟨i, mem_append_left _ member, operand⟩

theorem Uses.append_right (used : Uses ys o) (xs : Code) : Uses (xs ++ ys) o := by
  obtain ⟨i, member, operand⟩ := used
  exact ⟨i, mem_append_right _ member, operand⟩

/-- The labels and temporaries drawn for some code are those in use. -/
structure Draws (c : Context) (k k' : Counters) (code : Code) : Prop extends
    DrawsLabels k k' code where
  temps_le : k.temps ≤ k'.temps
  used : ∀ n, k.temps ≤ n → n < k'.temps → Uses code (c.temp n)

namespace Draws

theorem plain (plain : definedLabels code = []) : Draws c k k code where
  toDrawsLabels := .none rfl plain
  temps_le := Nat.le_refl _
  used _ above below := absurd below (Nat.not_lt_of_le above)

theorem append (first : Draws c k k₁ xs) (second : Draws c k₁ k₂ ys) :
    Draws c k k₂ (xs ++ ys) where
  toDrawsLabels := first.toDrawsLabels.append second.toDrawsLabels
  temps_le := Nat.le_trans first.temps_le second.temps_le
  used n above below := by
    by_cases early : n < k₁.temps
    · exact (first.used n above early).append_left ys
    · exact (second.used n (Nat.le_of_not_lt early) below).append_right xs

/-- A temporary drawn first and used somewhere. -/
theorem fresh (inner : Draws c k.withTemp k' code) (used : Uses code (c.temp k.temps)) :
    Draws c k k' code where
  le := inner.le
  perm := inner.perm
  temps_le := Nat.le_of_succ_le inner.temps_le
  used n above below := by
    rcases Nat.eq_or_lt_of_le above with rfl | later
    · exact used
    · exact inner.used n later below

/-- A label drawn first and defined last. -/
theorem labelled (inner : Draws c k.withLabel k' code) :
    Draws c k k' (code ++ [c.label (UInt32.ofNat k.labels)]) where
  toDrawsLabels := inner.toDrawsLabels.labelled
  temps_le := inner.temps_le
  used n above below := (inner.used n above below).append_left _

end Draws

/-! ## Code in its place -/

/-- Code of statements: it defines the labels that are drawn for it and fits its place. -/
structure LaysOut (m : ModuleScope) (scope : Option FuncScope) (outer : List UInt32)
    (k k' : Counters) (code : Code) : Prop extends DrawsLabels k k' code where
  fine : FineCode m scope outer code

/-- Code of expressions: it uses whatever is drawn for it and fits its place. -/
structure Makes (c : Context) (outer : List UInt32) (k k' : Counters) (code : Code) : Prop extends
    Draws c k k' code, LaysOut c.module c.scope outer k k' code

namespace LaysOut

theorem weaken (made : LaysOut m scope outer k k' code) (more : ∀ l ∈ outer, l ∈ labels) :
    LaysOut m scope labels k k' code :=
  { made with fine := made.fine.weaken more }

theorem nil : LaysOut m scope outer k k [] :=
  ⟨.none rfl rfl, .nil⟩

theorem single (fine : Fine m scope outer i) (plain : definedLabels [i] = []) :
    LaysOut m scope outer k k [i] :=
  ⟨.none rfl plain, .single fine⟩

theorem append (first : LaysOut m scope outer k k₁ xs) (second : LaysOut m scope outer k₁ k₂ ys) :
    LaysOut m scope outer k k₂ (xs ++ ys) :=
  ⟨first.toDrawsLabels.append second.toDrawsLabels, first.fine.append second.fine⟩

/-- A label that is drawn first, may be jumped to, and is defined last. -/
theorem labelled
    (inner : LaysOut c.module c.scope (UInt32.ofNat k.labels :: outer) k.withLabel k' code) :
    LaysOut c.module c.scope outer k k' (code ++ [c.label (UInt32.ofNat k.labels)]) :=
  ⟨inner.toDrawsLabels.labelled, inner.fine.labelled⟩

/-- A label that the code defines need not be defined around it. -/
theorem discharge {l : UInt32} (made : LaysOut m scope (l :: outer) k k' code)
    (placed : c.label l ∈ code) : LaysOut m scope outer k k' code :=
  { made with fine := made.fine.discharge (mem_definedLabels placed (definedLabel?_label c l)) }

/-- Starting a statement draws no labels. -/
theorem of_reset (made : LaysOut m scope outer k.reset k' code) : LaysOut m scope outer k k' code :=
  ⟨⟨made.le, made.perm⟩, made.fine⟩

end LaysOut

namespace Makes

theorem weaken (made : Makes c outer k k' code) (more : ∀ l ∈ outer, l ∈ labels) :
    Makes c labels k k' code :=
  { made with fine := made.fine.weaken more }

theorem nil : Makes c outer k k [] :=
  ⟨.plain rfl, .nil⟩

theorem single (fine : Fine c.module c.scope outer i) (plain : definedLabels [i] = []) :
    Makes c outer k k [i] :=
  ⟨.plain plain, .single fine⟩

theorem append (first : Makes c outer k k₁ xs) (second : Makes c outer k₁ k₂ ys) :
    Makes c outer k k₂ (xs ++ ys) :=
  ⟨first.toDraws.append second.toDraws, first.fine.append second.fine⟩

theorem snoc (first : Makes c outer k k' xs) (fine : Fine c.module c.scope outer i)
    (plain : definedLabels [i] = []) : Makes c outer k k' (xs ++ [i]) :=
  first.append (single fine plain)

theorem labelled (inner : Makes c (UInt32.ofNat k.labels :: outer) k.withLabel k' code) :
    Makes c outer k k' (code ++ [c.label (UInt32.ofNat k.labels)]) :=
  ⟨inner.toDraws.labelled, inner.fine.labelled⟩

theorem write (first : Makes c outer k k' xs) (fine : Fine c.module c.scope outer i)
    (plain : definedLabels [i] = []) (operand : dest ∈ i.operands) :
    Makes c outer k k' (xs ++ [i]) ∧ Uses (xs ++ [i]) dest :=
  ⟨first.snoc fine plain, Uses.append_right ⟨i, mem_cons_self, operand⟩ xs⟩

/-- An instruction that computes into a new temporary, and one that uses it. -/
theorem scratch {j : Instruction} (fine : Fine c.module c.scope outer i)
    (fine' : Fine c.module c.scope outer j) (plain : definedLabels [i, j] = [])
    (operand : c.temp k.temps ∈ i.operands) : Makes c outer k k.withTemp [i, j] :=
  ⟨.fresh (.plain plain) ⟨i, mem_cons_self, operand⟩, .cons fine (.single fine')⟩

end Makes

/-! ## Plans -/

/-- An operand that holds a value: a literal, the slot of a name, or a temporary drawn between two
moments. -/
inductive Source (c : Context) (t t' : Nat) : Operand → Prop where
  | lit (v : Value) : Source c t t' (.lit v)
  | name {id : String} {o : Operand} (resolved : c.resolve id = .ok o) : Source c t t' o
  | temp {n : Nat} (above : t ≤ n) (below : n < t') : Source c t t' (c.temp n)

theorem Source.mono {t t' u u' : Nat} (source : Source c t t' o) (earlier : u ≤ t) (later : t' ≤ u') :
    Source c u u' o := by
  cases source with
  | lit v => exact .lit v
  | name resolved => exact .name resolved
  | temp above below => exact .temp (Nat.le_trans earlier above) (Nat.lt_of_lt_of_le below later)

theorem Source.readable {t t' : Nat} (source : Source c t t' o) : Readable c.module c.scope o := by
  cases source with
  | lit v => exact .inl rfl
  | name resolved => exact .inr (.name resolved)
  | temp _ _ => exact (writable_temp c _).readable

/-- The code of a plan uses what it draws, the destination included, and fits its place. -/
structure Plan.Tidy (c : Context) (p : Plan) : Prop where
  value {k k' : Counters} {code : Code} {o : Operand} (made : p.value k = .ok ((code, o), k')) :
    Makes c [] k k' code ∧ Source c k.temps k'.temps o
  into {k k' : Counters} {code : Code} {dest : Operand} (slot : Writable c.module c.scope dest)
    (made : p.into dest k = .ok (code, k')) : Makes c [] k k' code ∧ Uses code dest

namespace Plan

theorem tidy_held {operand : Except Error Operand}
    (source : ∀ o, operand = .ok o → ∀ t, Source c t t o) : (held c operand).Tidy c where
  value made := by
    obtain ⟨found, rfl, rfl⟩ := held_value_ok made
    exact ⟨.nil, source _ found _⟩
  into slot made := by
    obtain ⟨o, found, rfl, rfl⟩ := held_into_ok made
    exact ⟨.single (fine_copy slot (source o found 0).readable) rfl, _, mem_cons_self, mem_cons_self⟩

theorem tidy_computed {into : Operand → Lowering Code}
    (made : ∀ {dest k code k'}, Writable c.module c.scope dest → into dest k = .ok (code, k') →
      Makes c [] k k' code ∧ Uses code dest) : (computed c into).Tidy c where
  value result := by
    obtain ⟨rfl, inner⟩ := computed_value_ok result
    obtain ⟨draws, used⟩ := made (writable_temp c _) inner
    exact ⟨⟨draws.fresh used, draws.fine⟩, .temp (Nat.le_refl _) draws.temps_le⟩
  into := made

theorem tidy_refused (construct : Construct) : (refused c construct).Tidy c where
  value made := absurd made not_refused_value
  into _ made := absurd made not_refused_into

end Plan

theorem makes_read {p : Part} {later : List Part} (tidy : p.plan.Tidy c)
    (made : p.read c later k = .ok ((code, o), k')) :
    Makes c [] k k' code ∧ Source c k.temps k'.temps o := by
  rcases read_ok made with ⟨xs, v, k₁, value, rfl, rfl, rfl⟩ | ⟨value, -⟩
  · obtain ⟨first, source⟩ := tidy.value value
    have copy : Draws c k₁ k₁.withTemp [c.copy (c.temp k₁.temps) v] :=
      .fresh (.plain rfl) ⟨_, mem_cons_self, mem_cons_self⟩
    exact ⟨first.append ⟨copy, .single (fine_copy (writable_temp c _) source.readable)⟩,
      .temp first.temps_le (Nat.lt_succ_self _)⟩
  · exact tidy.value value

theorem makes_readAll {ps : List Part} (tidy : ∀ p ∈ ps, p.plan.Tidy c) {os : List Operand}
    (made : readAll c ps k = .ok ((code, os), k')) :
    Makes c [] k k' code ∧ (∀ o ∈ os, Readable c.module c.scope o) ∧ os.length = ps.length := by
  induction ps generalizing k code os with
  | nil =>
    obtain ⟨rfl, rfl, rfl⟩ := readAll_nil_ok made
    exact ⟨.nil, nofun, rfl⟩
  | cons p later ih =>
    obtain ⟨xs, x, k₁, ys, rest, first, others, rfl, rfl⟩ := readAll_cons_ok made
    obtain ⟨here, source⟩ := makes_read (tidy p mem_cons_self) first
    obtain ⟨there, readable, count⟩ :=
      ih (fun q member => tidy q (mem_cons_of_mem _ member)) others
    exact ⟨here.append there, forall_mem_cons.2 ⟨source.readable, readable⟩, congrArg (· + 1) count⟩

section Operators

variable {a b : Part} (left : a.plan.Tidy c) (right : b.plan.Tidy c)

include left right

theorem makes_readBoth {x y : Operand} (made : readBoth c a b k = .ok ((code, x, y), k')) :
    Makes c [] k k' code ∧ Readable c.module c.scope x ∧ Readable c.module c.scope y := by
  obtain ⟨xs, k₁, ys, first, second, rfl⟩ := readBoth_ok made
  obtain ⟨here, source⟩ := makes_read left first
  obtain ⟨there, source'⟩ := makes_read right second
  exact ⟨here.append there, source.readable, source'.readable⟩

theorem makes_binaryInto {op : BinaryOp} (slot : Writable c.module c.scope dest)
    (made : binaryInto c op a b dest k = .ok (code, k')) :
    Makes c [] k k' code ∧ Uses code dest := by
  obtain ⟨xs, x, y, operands, rfl⟩ := binaryInto_ok made
  obtain ⟨first, hx, hy⟩ := makes_readBoth left right operands
  exact first.write (fine_binary slot hx hy) rfl mem_cons_self

theorem makes_negatedInto {op : BinaryOp} (slot : Writable c.module c.scope dest)
    (made : negatedInto c op a b dest k = .ok (code, k')) :
    Makes c [] k k' code ∧ Uses code dest := by
  obtain ⟨xs, x, y, k₁, operands, rfl, rfl⟩ := negatedInto_ok made
  obtain ⟨first, hx, hy⟩ := makes_readBoth left right operands
  have temp := writable_temp c k₁.temps
  refine ⟨first.append (.scratch (fine_binary temp hx hy) (fine_not slot temp.readable) rfl
    mem_cons_self), Uses.append_right ?_ xs⟩
  exact ⟨_, mem_cons_of_mem _ mem_cons_self, mem_cons_self⟩

theorem makes_arithInto {op : Arith} (slot : Writable c.module c.scope dest)
    (made : arithInto c op a b dest k = .ok (code, k')) :
    Makes c [] k k' code ∧ Uses code dest := by
  have temp := writable_temp c
  cases op with
  | add | sub | mul => exact makes_binaryInto left right slot made
  | floorDiv =>
    obtain ⟨xs, x, y, k₁, operands, rfl, rfl⟩ := floorDivInto_ok made
    obtain ⟨first, hx, hy⟩ := makes_readBoth left right operands
    rw [floorDiv_eq]
    -- The three temporaries are drawn one after the other and written by the rounding.
    refine ⟨first.append (Makes.labelled ⟨?_, .append (.append (.cons ?_ (.single ?_)) ?_) (.single ?_)⟩),
      Uses.append_right ⟨_, mem_cons_self, mem_cons_self⟩ xs⟩
    · refine Draws.fresh (Draws.fresh (Draws.fresh (.plain rfl) ?_) ?_) ?_ <;>
        simp [Uses, Context.signCheck, Context.ins, Counters.withTemp, Counters.withLabel]
    · exact fine_binary slot hx hy
    · exact fine_binary (temp _) hx hy
    · exact fine_signCheck (temp _).readable hy (temp _) (temp _)
    · exact fine_binary slot slot.readable (.inl rfl)
  | floorMod =>
    obtain ⟨xs, x, y, k₁, operands, rfl, rfl⟩ := floorModInto_ok made
    obtain ⟨first, hx, hy⟩ := makes_readBoth left right operands
    rw [floorMod_eq]
    refine ⟨first.append (Makes.labelled ⟨?_, .append (.append (.single ?_) ?_) (.single ?_)⟩),
      Uses.append_right ⟨_, mem_cons_self, mem_cons_self⟩ xs⟩
    · refine Draws.fresh (Draws.fresh (.plain rfl) ?_) ?_ <;>
        simp [Uses, Context.signCheck, Context.ins, Counters.withTemp, Counters.withLabel]
    · exact fine_binary slot hx hy
    · exact fine_signCheck slot.readable hy (temp _) (temp _)
    · exact fine_binary slot slot.readable hy

theorem makes_compareInto {op : Relation} (slot : Writable c.module c.scope dest)
    (made : compareInto c op a b dest k = .ok (code, k')) :
    Makes c [] k k' code ∧ Uses code dest := by
  cases op with
  | lt | gt | eq => exact makes_binaryInto left right slot made
  | le | ge | ne => exact makes_negatedInto left right slot made

end Operators

theorem makes_skipCode (op : Connective) (done : UInt32) (slot : Writable c.module c.scope dest) :
    Makes c [done] k (k.withSkip op) (skipCode c op dest (c.temp k.temps) done) := by
  have fine := fine_skipCode op done slot (writable_temp c k.temps)
  cases op with
  | and => exact ⟨.fresh (.plain rfl) ⟨_, mem_cons_self, mem_cons_self⟩, fine⟩
  | or => exact ⟨.plain rfl, fine⟩

theorem makes_shortCircuitInto {op : Connective} {a b : Plan} (left : a.Tidy c) (right : b.Tidy c)
    (slot : Writable c.module c.scope dest)
    (made : shortCircuitInto c op a b dest k = .ok (code, k')) :
    Makes c [] k k' code ∧ Uses code dest := by
  obtain ⟨xs, k₁, ys, first, second, rfl⟩ := shortCircuitInto_ok made
  obtain ⟨before, used⟩ := left.into slot first
  obtain ⟨after, -⟩ := right.into slot second
  refine ⟨Makes.labelled (((before.weaken nofun).append (makes_skipCode op _ slot)).append
    (after.weaken nofun)), ?_⟩
  exact ((used.append_left _).append_left _).append_left _

theorem tidy_callPlan (callee : String) {args : List Part} (tidy : ∀ p ∈ args, p.plan.Tidy c) :
    (callPlan c callee args).Tidy c := by
  rcases callPlan_cases c callee args with
    ⟨construct, same⟩ | ⟨a, -, rfl, same⟩ | ⟨a, b, -, rfl, same⟩ | ⟨d, -, found, count, same⟩ <;>
    rw [same]
  · exact Plan.tidy_refused construct
  · exact tidy a mem_cons_self
  · refine Plan.tidy_computed (makes_binaryInto (tidy a mem_cons_self) ?_)
    exact tidy b (mem_cons_of_mem _ mem_cons_self)
  · refine Plan.tidy_computed fun slot made => ?_
    obtain ⟨xs, os, operands, rfl⟩ := callInto_ok made
    obtain ⟨before, readable, length⟩ := makes_readAll tidy operands
    have known := mem_of_find?_eq_some found
    exact before.write (fine_call slot known (length.trans count) readable) rfl mem_cons_self

mutual

/-- Every expression uses what is drawn for it, and its code fits its place. -/
theorem plan_tidy (c : Context) (e : Expr) : (plan c e).Tidy c := by
  match e with
  | .int v =>
    refine Plan.tidy_held fun o found t => ?_
    cases found
    exact .lit v
  | .name id => exact Plan.tidy_held fun o found t => .name found
  | .neg e =>
    refine Plan.tidy_computed fun slot made => ?_
    obtain ⟨xs, x, operand, rfl⟩ := neg_into_ok made
    obtain ⟨first, source⟩ := (plan_tidy c e).value operand
    exact first.write (fine_binary slot (.inl rfl) source.readable) rfl mem_cons_self
  | .not e =>
    refine Plan.tidy_computed fun slot made => ?_
    obtain ⟨xs, x, operand, rfl⟩ := not_into_ok made
    obtain ⟨first, source⟩ := (plan_tidy c e).value operand
    exact first.write (fine_not slot source.readable) rfl mem_cons_self
  | .arith op a b => exact Plan.tidy_computed (makes_arithInto (plan_tidy c a) (plan_tidy c b))
  | .compare op a b => exact Plan.tidy_computed (makes_compareInto (plan_tidy c a) (plan_tidy c b))
  | .connect op a b =>
    rw [plan]
    split
    · exact Plan.tidy_computed (makes_binaryInto (plan_tidy c a) (plan_tidy c b))
    · exact Plan.tidy_computed (makes_shortCircuitInto (plan_tidy c a) (plan_tidy c b))
  | .call callee args => exact tidy_callPlan callee (parts_tidy c args)

theorem parts_tidy (c : Context) (es : List Expr) : ∀ p ∈ parts c es, p.plan.Tidy c := by
  match es with
  | [] => exact nofun
  | e :: es =>
    intro p member
    rcases mem_cons.1 member with rfl | later
    · exact plan_tidy c e
    · exact parts_tidy c es p later

end

/-! ## Statements -/

theorem makes_store {e : Expr} (slot : Writable c.module c.scope dest)
    (made : store c dest e k = .ok (code, k')) : Makes c [] k k' code := by
  rcases store_ok made with ⟨-, xs, inner, rfl⟩ | ⟨-, inner⟩
  · have temp := writable_temp c k.temps
    obtain ⟨draws, used⟩ := (plan_tidy c e).into temp inner
    exact Makes.snoc ⟨draws.fresh used, draws.fine⟩ (fine_copy slot temp.readable) rfl
  · exact ((plan_tidy c e).into slot inner).1

theorem makes_jumpUnless (c : Context) (l : UInt32) (e : Expr)
    (made : jumpUnless c l e k = .ok (code, k')) : Makes c [l] k k' code := by
  have here : l ∈ [l] := mem_cons_self
  rcases jumpUnless_cases c l e with ⟨v, rfl, same⟩ | ⟨e', rfl, same⟩ |
    ⟨op, opposite, a, b, rfl, -, same⟩ | ⟨e', rfl, same⟩ | same <;> rw [same] at made
  · cases lowering_pure.1 made
    split
    · exact .single (fine_jump here) rfl
    · exact .nil
  · obtain ⟨⟨xs, x⟩, k₁, operand, result⟩ := lowering_bind.1 made
    cases lowering_pure.1 result
    obtain ⟨first, source⟩ := (plan_tidy c e').value operand
    exact (first.weaken nofun).snoc (fine_jumpIf source.readable here) rfl
  · obtain ⟨xs, x, y, k₁, operands, rfl, rfl⟩ := jumpOn_ok made
    obtain ⟨first, hx, hy⟩ := makes_readBoth (plan_tidy c a) (plan_tidy c b) operands
    have temp := writable_temp c k₁.temps
    exact (first.weaken nofun).append (.scratch (fine_binary temp hx hy)
      (fine_jumpIf temp.readable here) rfl mem_cons_self)
  · exact makes_jumpUnless c l e' made
  · obtain ⟨xs, x, k₁, operand, rfl, rfl⟩ := jumpOnZero_ok made
    obtain ⟨first, source⟩ := (plan_tidy c e).value operand
    have temp := writable_temp c k₁.temps
    exact (first.weaken nofun).append (.scratch (fine_not temp source.readable)
      (fine_jumpIf temp.readable here) rfl mem_cons_self)
termination_by sizeOf e

theorem makes_exprCode {e : Expr} (made : exprCode c e k = .ok (code, k')) :
    Makes c [] k k' code := by
  rcases exprCode_ok made with ⟨e', -, xs, x, operand, rfl⟩ | ⟨-, x, operand⟩
  · obtain ⟨first, source⟩ := (plan_tidy c e').value operand
    exact first.snoc (fine_output source.readable) rfl
  · exact ((plan_tidy c e).value operand).1

theorem makes_returnCode {value : Option Expr} (made : returnCode c value k = .ok (code, k')) :
    Makes c [] k k' code := by
  obtain ⟨inside, shape⟩ := returnCode_ok made
  cases value with
  | none =>
    obtain ⟨rfl, rfl⟩ := shape
    exact .single (fine_ret inside (.inl rfl)) rfl
  | some e =>
    obtain ⟨xs, x, operand, rfl⟩ := shape
    obtain ⟨first, source⟩ := (plan_tidy c e).value operand
    exact first.snoc (fine_ret inside source.readable) rfl

section Blocks

variable {check taken skipped repeated : Code} {done : UInt32}

/-- Two branches, the first of which jumps over the second. -/
theorem laysOut_branches
    (test : LaysOut c.module c.scope [UInt32.ofNat k.labels] k.withLabel k₁ check)
    (first : LaysOut c.module c.scope outer k₁ k₂ taken)
    (second : LaysOut c.module c.scope outer k₂.withLabel k' skipped) :
    LaysOut c.module c.scope outer k k' (check ++ taken ++
      [c.jump (UInt32.ofNat k₂.labels), c.label (UInt32.ofNat k.labels)] ++ skipped ++
      [c.label (UInt32.ofNat k₂.labels)]) := by
  generalize same : UInt32.ofNat k₂.labels = done
  have jump : LaysOut c.module c.scope (UInt32.ofNat k.labels :: done :: outer) k₂ k₂ [c.jump done] :=
    .single (fine_jump (by simp)) rfl
  have before := LaysOut.labelled
    (((test.weaken (by simp)).append (first.weaken (by simp +contextual))).append jump)
  have after : LaysOut c.module c.scope (done :: outer) k₂ k' (skipped ++ [_]) :=
    LaysOut.labelled (second.weaken (by simp +contextual))
  have whole := before.append after
  rw [same] at whole
  simp only [append_assoc, cons_append, nil_append] at whole ⊢
  exact whole.discharge (c := c) (by simp)

theorem laysOut_loop
    (test : LaysOut c.module c.scope [UInt32.ofNat k.withLabel.labels] k.withLabel.withLabel k₁ check)
    (inner : LaysOut c.module c.scope
      [UInt32.ofNat k.labels, UInt32.ofNat k.withLabel.labels] k₁ k' repeated) :
    LaysOut c.module c.scope outer k k' ([c.label (UInt32.ofNat k.labels)] ++ check ++ repeated ++
      [c.jump (UInt32.ofNat k.labels), c.label (UInt32.ofNat k.withLabel.labels)]) := by
  generalize same : UInt32.ofNat k.labels = top at inner ⊢
  have start : LaysOut c.module c.scope (top :: outer) k k.withLabel [_] := LaysOut.labelled .nil
  have jump : LaysOut c.module c.scope (UInt32.ofNat k.withLabel.labels :: top :: outer) k' k'
      [c.jump top] := .single (fine_jump (by simp)) rfl
  have whole := start.append (LaysOut.labelled
    (((test.weaken (by simp)).append (inner.weaken (by simp))).append jump))
  rw [same] at whole
  simp only [append_assoc, cons_append, nil_append] at whole ⊢
  exact whole.discharge (c := c) (by simp)

end Blocks

mutual

/-- The labels of a statement are those drawn for it, and its code fits its place: it may jump to the
labels of the innermost loop. -/
theorem stmtCode_laysOut (s : Stmt) {loop : Option LoopLabels} {k k' : Counters} {code : Code}
    (made : stmtCode m scope loop s k = .ok (code, k')) :
    LaysOut m scope (loopTargets loop) k k' code := by
  match s with
  | .assign target value line =>
    obtain ⟨dest, resolved, stored⟩ := assign_ok made
    exact ((makes_store (.name resolved) stored).weaken nofun).toLaysOut.of_reset
  | .augment target op value line =>
    obtain ⟨dest, resolved, stored⟩ := augment_ok made
    exact ((makes_store (.name resolved) stored).weaken nofun).toLaysOut.of_reset
  | .expr value line => exact ((makes_exprCode (reset_ok made)).weaken nofun).toLaysOut.of_reset
  | .ret value line => exact ((makes_returnCode (reset_ok made)).weaken nofun).toLaysOut.of_reset
  | .cond test body otherwise line =>
    obtain ⟨check, k₁, taken, k₂, checked, block, shape⟩ := cond_ok made
    have test := (makes_jumpUnless _ _ _ checked).toLaysOut
    have first := blockCode_laysOut body block
    rcases shape with ⟨-, rfl, rfl⟩ | ⟨skipped, others, rfl⟩
    · refine (LaysOut.labelled (c := ⟨m, scope, line⟩) ((test.weaken ?_).append
        (first.weaken ?_))).of_reset <;> simp +contextual
    · exact (laysOut_branches (c := ⟨m, scope, line⟩) test first
        (blockCode_laysOut otherwise others)).of_reset
  | .whileLoop test body line =>
    obtain ⟨check, k₁, repeated, checked, block, rfl⟩ := whileLoop_ok made
    exact (laysOut_loop (c := ⟨m, scope, line⟩) (k := k.reset)
      (makes_jumpUnless _ _ _ checked).toLaysOut (blockCode_laysOut body block)).of_reset
  | .breakLoop line | .continueLoop line =>
    cases loop with
    | none => cases made
    | some labels =>
      cases made
      exact .single (fine_jump (c := ⟨m, scope, line⟩) (by simp [loopTargets])) rfl
  | .global _ _ | .pass _ | .funcDef .. =>
    rw [stmtCode] at made
    cases made
    exact .nil

theorem blockCode_laysOut (body : List Stmt) {loop : Option LoopLabels} {k k' : Counters} {code : Code}
    (made : blockCode m scope loop body k = .ok (code, k')) :
    LaysOut m scope (loopTargets loop) k k' code := by
  match body with
  | [] =>
    rw [blockCode] at made
    cases made
    exact .nil
  | s :: rest =>
    obtain ⟨xs, k₁, ys, first, others, rfl⟩ := blockCode_cons_ok made
    exact (stmtCode_laysOut s first).append (blockCode_laysOut rest others)

end

end SlotLang.Subset
