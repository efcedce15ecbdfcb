import SlotLang.Proofs.Basic
import SlotLang.Proofs.Subset.Meaning
import SlotLang.Subset.Lower

/-!
# What lowering makes

For each way of making code, what must have been made before and how the code is put together.
-/

namespace SlotLang.Subset

variable {α β : Type} {c : Context} {k k' : Counters} {code : Code} {dest o : Operand} {a b : Part}
  {e : Expr} {op : BinaryOp} {construct : Construct} {l : UInt32} {later : List Part}
  {operand : Except Error Operand} {os : List Operand} {p : Part}

/-! ## Steps of lowering -/

theorem lowering_bind {x : Lowering α} {f : α → Lowering β} {r : β × Counters} :
    (x >>= f) k = .ok r ↔ ∃ a k', x k = .ok (a, k') ∧ f a k' = .ok r := by
  change (x k >>= fun p => f p.1 p.2) = _ ↔ _
  rw [bind_eq_ok]
  constructor
  · rintro ⟨⟨a, k'⟩, first, second⟩
    exact ⟨a, k', first, second⟩
  · rintro ⟨a, k', first, second⟩
    exact ⟨(a, k'), first, second⟩

theorem lift_ok {x : Except Error α} {f : α → Lowering β} {r : β × Counters}
    (made : ((liftM x : Lowering α) >>= f) k = .ok r) : ∃ a, x = .ok a ∧ f a k = .ok r := by
  obtain ⟨a, k₁, lifted, rest⟩ := lowering_bind.1 made
  change (x >>= fun a => pure (a, k)) = _ at lifted
  obtain ⟨b, found, same⟩ := bind_eq_ok.1 lifted
  cases same
  exact ⟨a, found, rest⟩

theorem lowering_pure {a : α} {r : α × Counters} :
    (pure a : Lowering α) k = .ok r ↔ r = (a, k) := by
  change Except.ok (a, k) = _ ↔ _
  rw [Except.ok.injEq, eq_comm]

namespace Counters

/-- The counters after a temporary has been drawn. -/
def withTemp (k : Counters) : Counters :=
  { k with temps := k.temps + 1 }

def withLabel (k : Counters) : Counters :=
  { k with labels := k.labels + 1 }

/-- The counters when a statement starts. -/
def reset (k : Counters) : Counters :=
  { k with temps := 0 }

@[simp] theorem temps_withTemp (k : Counters) : k.withTemp.temps = k.temps + 1 := rfl

@[simp] theorem temps_withLabel (k : Counters) : k.withLabel.temps = k.temps := rfl

@[simp] theorem labels_reset (k : Counters) : k.reset.labels = k.labels := rfl

end Counters

theorem fresh_bind (c : Context) (f : Operand → Lowering β) (k : Counters) :
    (c.fresh >>= f) k = f (c.temp k.temps) k.withTemp := rfl

theorem freshLabel_bind (f : UInt32 → Lowering β) (k : Counters) :
    (freshLabel >>= f) k = f (UInt32.ofNat k.labels) k.withLabel := rfl

/-! ## What each plan makes -/

theorem held_value_ok (made : (Plan.held c operand).value k = .ok ((code, o), k')) :
    operand = .ok o ∧ code = [] ∧ k' = k := by
  obtain ⟨v, found, result⟩ := lift_ok made
  cases lowering_pure.1 result
  exact ⟨found, rfl, rfl⟩

theorem held_into_ok (made : (Plan.held c operand).into dest k = .ok (code, k')) :
    ∃ o, operand = .ok o ∧ code = [c.copy dest o] ∧ k' = k := by
  obtain ⟨v, found, result⟩ := lift_ok made
  cases lowering_pure.1 result
  exact ⟨_, found, rfl, rfl⟩

theorem computed_value_ok {into : Operand → Lowering Code}
    (made : (Plan.computed c into).value k = .ok ((code, o), k')) :
    o = c.temp k.temps ∧ into o k.withTemp = .ok (code, k') := by
  obtain ⟨xs, k₂, inner, result⟩ := lowering_bind.1 ((fresh_bind c _ k).symm.trans made)
  cases lowering_pure.1 result
  exact ⟨rfl, inner⟩

theorem not_refused_value {r : (Code × Operand) × Counters} :
    (Plan.refused c construct).value k ≠ .ok r :=
  nofun

theorem not_refused_into {r : Code × Counters} : (Plan.refused c construct).into dest k ≠ .ok r :=
  nofun

/-- An operand is copied if it is a global that a later operand may change. -/
theorem read_ok (made : p.read c later k = .ok ((code, o), k')) :
    (∃ xs v k₁, p.plan.value k = .ok ((xs, v), k₁) ∧ code = xs ++ [c.copy (c.temp k₁.temps) v] ∧
        o = c.temp k₁.temps ∧ k' = k₁.withTemp) ∨
      p.plan.value k = .ok ((code, o), k') ∧
        (c.isNamedGlobal o = true → ∀ q ∈ later, q.isEffectFree = true) := by
  obtain ⟨⟨xs, v⟩, k₁, value, rest⟩ := lowering_bind.1 made
  dsimp only at rest
  by_cases copied : (c.isNamedGlobal v && later.any (!·.isEffectFree)) = true
  · rw [if_pos copied] at rest
    rw [fresh_bind] at rest
    cases lowering_pure.1 rest
    exact .inl ⟨xs, v, k₁, value, rfl, rfl, rfl⟩
  · rw [if_neg copied] at rest
    cases lowering_pure.1 rest
    refine .inr ⟨value, fun named q member => ?_⟩
    rw [named, Bool.true_and] at copied
    simpa using List.any_eq_false.1 (Bool.of_not_eq_true copied) q member

theorem readAll_nil_ok (made : readAll c [] k = .ok ((code, os), k')) :
    code = [] ∧ os = [] ∧ k' = k := by
  cases lowering_pure.1 made
  exact ⟨rfl, rfl, rfl⟩

theorem readAll_cons_ok (made : readAll c (p :: later) k = .ok ((code, os), k')) :
    ∃ xs x k₁ ys rest, p.read c later k = .ok ((xs, x), k₁) ∧
      readAll c later k₁ = .ok ((ys, rest), k') ∧ code = xs ++ ys ∧ os = x :: rest := by
  obtain ⟨⟨xs, x⟩, k₁, first, others⟩ := lowering_bind.1 made
  obtain ⟨⟨ys, rest⟩, k₂, second, result⟩ := lowering_bind.1 others
  cases lowering_pure.1 result
  exact ⟨xs, x, k₁, ys, rest, first, second, rfl, rfl⟩

theorem readBoth_ok {x y : Operand} (made : readBoth c a b k = .ok ((code, x, y), k')) :
    ∃ xs k₁ ys, a.read c [b] k = .ok ((xs, x), k₁) ∧ b.read c [] k₁ = .ok ((ys, y), k') ∧
      code = xs ++ ys := by
  obtain ⟨⟨xs, x⟩, k₁, first, others⟩ := lowering_bind.1 made
  obtain ⟨⟨ys, y⟩, k₂, second, result⟩ := lowering_bind.1 others
  cases lowering_pure.1 result
  exact ⟨xs, k₁, ys, first, second, rfl⟩

theorem binaryInto_ok (made : binaryInto c op a b dest k = .ok (code, k')) :
    ∃ xs x y, readBoth c a b k = .ok ((xs, x, y), k') ∧
      code = xs ++ [c.ins (.binary op) [dest, x, y]] := by
  obtain ⟨⟨xs, x, y⟩, k₁, operands, result⟩ := lowering_bind.1 made
  cases lowering_pure.1 result
  exact ⟨xs, x, y, operands, rfl⟩

theorem negatedInto_ok (made : negatedInto c op a b dest k = .ok (code, k')) :
    ∃ xs x y k₁, readBoth c a b k = .ok ((xs, x, y), k₁) ∧ k' = k₁.withTemp ∧
      code = xs ++ [c.ins (.binary op) [c.temp k₁.temps, x, y],
        c.ins .not [dest, c.temp k₁.temps]] := by
  obtain ⟨⟨xs, x, y⟩, k₁, operands, rest⟩ := lowering_bind.1 made
  dsimp only at rest
  rw [fresh_bind] at rest
  cases lowering_pure.1 rest
  exact ⟨xs, x, y, k₁, operands, rfl, rfl⟩

theorem floorDivInto_ok (made : arithInto c .floorDiv a b dest k = .ok (code, k')) :
    ∃ xs x y k₁, readBoth c a b k = .ok ((xs, x, y), k₁) ∧
      k' = k₁.withLabel.withTemp.withTemp.withTemp ∧
      code = xs ++ c.floorDiv dest x y (c.temp k₁.temps) (c.temp (k₁.temps + 1))
        (c.temp (k₁.temps + 2)) (UInt32.ofNat k₁.labels) := by
  obtain ⟨⟨xs, x, y⟩, k₁, operands, rest⟩ := lowering_bind.1 made
  dsimp only at rest
  rw [freshLabel_bind, fresh_bind, fresh_bind, fresh_bind] at rest
  cases lowering_pure.1 rest
  exact ⟨xs, x, y, k₁, operands, rfl, rfl⟩

theorem floorModInto_ok (made : arithInto c .floorMod a b dest k = .ok (code, k')) :
    ∃ xs x y k₁, readBoth c a b k = .ok ((xs, x, y), k₁) ∧
      k' = k₁.withLabel.withTemp.withTemp ∧
      code = xs ++ c.floorMod dest x y (c.temp k₁.temps) (c.temp (k₁.temps + 1))
        (UInt32.ofNat k₁.labels) := by
  obtain ⟨⟨xs, x, y⟩, k₁, operands, rest⟩ := lowering_bind.1 made
  dsimp only at rest
  rw [freshLabel_bind, fresh_bind, fresh_bind] at rest
  cases lowering_pure.1 rest
  exact ⟨xs, x, y, k₁, operands, rfl, rfl⟩

theorem floorDiv_eq (c : Context) (dest a b r t u : Operand) (done : UInt32) :
    c.floorDiv dest a b r t u done =
      [c.ins (.binary .div) [dest, a, b], c.ins (.binary .rem) [r, a, b]] ++
        c.signCheck r b t u done ++ [c.ins (.binary .sub) [dest, dest, .lit 1]] ++ [c.label done] :=
  rfl

theorem floorMod_eq (c : Context) (dest a b t u : Operand) (done : UInt32) :
    c.floorMod dest a b t u done =
      [c.ins (.binary .rem) [dest, a, b]] ++ c.signCheck dest b t u done ++
        [c.ins (.binary .add) [dest, dest, b]] ++ [c.label done] :=
  rfl

/-- The jump of a connective over its second operand. -/
def skipCode (c : Context) (op : Connective) (dest t : Operand) (done : UInt32) : Code :=
  match op with
  | .and => [c.ins .not [t, dest], c.jumpIf t done]
  | .or => [c.jumpIf dest done]

def Counters.withSkip (op : Connective) (k : Counters) : Counters :=
  match op with
  | .and => k.withTemp
  | .or => k

theorem shortCircuitInto_ok {op : Connective} {a b : Plan}
    (made : shortCircuitInto c op a b dest k = .ok (code, k')) :
    ∃ xs k₁ ys, a.into dest k.withLabel = .ok (xs, k₁) ∧
      b.into dest (k₁.withSkip op) = .ok (ys, k') ∧
      code = xs ++ skipCode c op dest (c.temp k₁.temps) (UInt32.ofNat k.labels) ++ ys ++
        [c.label (UInt32.ofNat k.labels)] := by
  unfold shortCircuitInto at made
  rw [freshLabel_bind] at made
  obtain ⟨xs, k₂, first, rest⟩ := lowering_bind.1 made
  cases op with
  | and =>
    dsimp only at rest
    rw [fresh_bind] at rest
    obtain ⟨skip, k₄, jump, rest⟩ := lowering_bind.1 rest
    cases lowering_pure.1 jump
    obtain ⟨ys, k₅, second, result⟩ := lowering_bind.1 rest
    cases lowering_pure.1 result
    exact ⟨xs, k₂, ys, first, second, rfl⟩
  | or =>
    obtain ⟨skip, k₃, jump, rest⟩ := lowering_bind.1 rest
    cases lowering_pure.1 jump
    obtain ⟨ys, k₅, second, result⟩ := lowering_bind.1 rest
    cases lowering_pure.1 result
    exact ⟨xs, k₂, ys, first, second, rfl⟩

theorem callInto_ok {d : Def} {args : List Part}
    (made : callInto c d args dest k = .ok (code, k')) :
    ∃ xs os, readAll c args k = .ok ((xs, os), k') ∧
      code = xs ++ [c.ins .call (dest :: .ofIndex d.index :: os)] := by
  obtain ⟨⟨xs, os⟩, k₁, operands, result⟩ := lowering_bind.1 made
  cases lowering_pure.1 result
  exact ⟨xs, os, operands, rfl⟩

theorem neg_into_ok (made : (plan c (.neg e)).into dest k = .ok (code, k')) :
    ∃ xs x, (plan c e).value k = .ok ((xs, x), k') ∧
      code = xs ++ [c.ins (.binary .sub) [dest, .lit 0, x]] := by
  obtain ⟨⟨xs, x⟩, k₁, operand, result⟩ := lowering_bind.1 made
  cases lowering_pure.1 result
  exact ⟨xs, x, operand, rfl⟩

theorem not_into_ok (made : (plan c (.not e)).into dest k = .ok (code, k')) :
    ∃ xs x, (plan c e).value k = .ok ((xs, x), k') ∧ code = xs ++ [c.ins .not [dest, x]] := by
  obtain ⟨⟨xs, x⟩, k₁, operand, result⟩ := lowering_bind.1 made
  cases lowering_pure.1 result
  exact ⟨xs, x, operand, rfl⟩

/-- A call that is lowered is a builtin that gives back its argument, a division toward zero, or a
call of a function with as many arguments as it has parameters. -/
theorem callPlan_cases (c : Context) (callee : String) (args : List Part) :
    (∃ construct, callPlan c callee args = .refused c construct) ∨
      (∃ a, isPassthrough callee = true ∧ args = [a] ∧ callPlan c callee args = a.plan) ∨
      (∃ a b, (callee = "_div" ∨ callee = "_rem") ∧ args = [a, b] ∧
        callPlan c callee args =
          .computed c (binaryInto c (if callee = "_div" then .div else .rem) a b)) ∨
      ∃ d, callee ∉ builtins ∧ c.module.func? callee = some d ∧ args.length = d.params.length ∧
        callPlan c callee args = .computed c (callInto c d args) := by
  unfold callPlan
  by_cases print : callee = "print"
  · exact .inl ⟨_, if_pos print⟩
  rw [if_neg print]
  by_cases pass : isPassthrough callee = true
  · rw [if_pos pass]
    match args with
    | [a] => exact .inr (.inl ⟨a, pass, rfl, rfl⟩)
    | [] | _ :: _ :: _ => exact .inl ⟨_, rfl⟩
  rw [if_neg pass]
  by_cases division : callee = "_div" ∨ callee = "_rem"
  · rw [if_pos division]
    match args with
    | [a, b] => exact .inr (.inr (.inl ⟨a, b, division, rfl, rfl⟩))
    | [] | [_] | _ :: _ :: _ :: _ => exact .inl ⟨_, rfl⟩
  rw [if_neg division]
  cases known : c.module.func? callee with
  | none => exact .inl ⟨_, rfl⟩
  | some d =>
    by_cases count : args.length = d.params.length
    · refine .inr (.inr (.inr ⟨d, ?_, rfl, count, if_pos count⟩))
      simp only [isPassthrough, Bool.or_eq_true, beq_iff_eq] at pass
      simp only [builtins, List.mem_cons, List.not_mem_nil, or_false]
      tauto
    · exact .inl ⟨_, if_neg count⟩

/-! ## What each statement makes -/

/-- A value that is written early goes through a temporary. -/
theorem store_ok (made : store c dest e k = .ok (code, k')) :
    (e.writesEarly = true ∧ ∃ xs, (plan c e).into (c.temp k.temps) k.withTemp = .ok (xs, k') ∧
        code = xs ++ [c.copy dest (c.temp k.temps)]) ∨
      e.writesEarly = false ∧ (plan c e).into dest k = .ok (code, k') := by
  unfold store at made
  cases early : e.writesEarly with
  | true =>
    rw [early, if_pos rfl] at made
    rw [fresh_bind] at made
    obtain ⟨xs, k₂, inner, result⟩ := lowering_bind.1 made
    cases lowering_pure.1 result
    exact .inl ⟨rfl, xs, inner, rfl⟩
  | false =>
    rw [early, if_neg Bool.false_ne_true] at made
    exact .inr ⟨rfl, made⟩

theorem jumpOn_ok {a b : Expr} (made : jumpOn c op a b l k = .ok (code, k')) :
    ∃ xs x y k₁, readBoth c (part c a) (part c b) k = .ok ((xs, x, y), k₁) ∧ k' = k₁.withTemp ∧
      code = xs ++ [c.ins (.binary op) [c.temp k₁.temps, x, y], c.jumpIf (c.temp k₁.temps) l] := by
  obtain ⟨⟨xs, x, y⟩, k₁, operands, rest⟩ := lowering_bind.1 made
  dsimp only at rest
  rw [fresh_bind] at rest
  cases lowering_pure.1 rest
  exact ⟨xs, x, y, k₁, operands, rfl, rfl⟩

theorem jumpOnZero_ok (made : jumpOnZero c e l k = .ok (code, k')) :
    ∃ xs x k₁, (plan c e).value k = .ok ((xs, x), k₁) ∧ k' = k₁.withTemp ∧
      code = xs ++ [c.ins .not [c.temp k₁.temps, x], c.jumpIf (c.temp k₁.temps) l] := by
  obtain ⟨⟨xs, x⟩, k₁, operand, rest⟩ := lowering_bind.1 made
  dsimp only at rest
  rw [fresh_bind] at rest
  cases lowering_pure.1 rest
  exact ⟨xs, x, k₁, operand, rfl, rfl⟩

/-- The instruction that gives the opposite of a comparison, if there is one. -/
def Relation.opposite? : Relation → Option BinaryOp
  | .le => some .gt
  | .ge => some .lt
  | .ne => some .eq
  | .lt | .gt | .eq => none

/-- Conditions with a jump of their own. All others jump on zero. -/
theorem jumpUnless_cases (c : Context) (l : UInt32) (e : Expr) :
    (∃ v, e = .int v ∧ jumpUnless c l e = pure (if v = 0 then [c.jump l] else [])) ∨
      (∃ e', e = .not e' ∧ jumpUnless c l e = do
        let (code, value) ← (plan c e').value
        return code ++ [c.jumpIf value l]) ∨
      (∃ op opposite a b, e = .compare op a b ∧ op.opposite? = some opposite ∧
        jumpUnless c l e = jumpOn c opposite a b l) ∨
      (∃ e', e = .call "int" [e'] ∧ jumpUnless c l e = jumpUnless c l e') ∨
      jumpUnless c l e = jumpOnZero c e l := by
  rw [jumpUnless.eq_def c l e]
  split
  · exact .inl ⟨_, rfl, rfl⟩
  · exact .inr (.inl ⟨_, rfl, rfl⟩)
  · exact .inr (.inr (.inl ⟨.le, _, _, _, rfl, rfl, rfl⟩))
  · exact .inr (.inr (.inl ⟨.ge, _, _, _, rfl, rfl, rfl⟩))
  · exact .inr (.inr (.inl ⟨.ne, _, _, _, rfl, rfl, rfl⟩))
  · next callee e' =>
    by_cases int : callee = "int"
    · subst int
      exact .inr (.inr (.inr (.inl ⟨e', rfl, if_pos rfl⟩)))
    · exact .inr (.inr (.inr (.inr (if_neg int))))
  · exact .inr (.inr (.inr (.inr rfl)))

theorem exprCode_ok (made : exprCode c e k = .ok (code, k')) :
    (∃ e', printed? e = some e' ∧ ∃ xs x, (plan c e').value k = .ok ((xs, x), k') ∧
        code = xs ++ [c.ins .output [x]]) ∨
      printed? e = none ∧ ∃ x, (plan c e).value k = .ok ((code, x), k') := by
  unfold exprCode at made
  split at made
  · next e' =>
    obtain ⟨⟨xs, x⟩, k₁, operand, result⟩ := lowering_bind.1 made
    cases lowering_pure.1 result
    exact .inl ⟨e', rfl, xs, x, operand, rfl⟩
  · cases made
  · next other several =>
    obtain ⟨⟨xs, x⟩, k₁, operand, result⟩ := lowering_bind.1 made
    cases lowering_pure.1 result
    refine .inr ⟨?_, x, operand⟩
    unfold printed?
    split
    · next callee e' =>
      by_cases print : callee = "print"
      · subst print
        exact absurd rfl (other e')
      · rw [if_neg print]
    · rfl

theorem returnCode_ok {value : Option Expr} (made : returnCode c value k = .ok (code, k')) :
    c.scope.isSome = true ∧
      match value with
      | none => code = [c.ins .ret [.lit 0]] ∧ k' = k
      | some e => ∃ xs x, (plan c e).value k = .ok ((xs, x), k') ∧ code = xs ++ [c.ins .ret [x]] := by
  unfold returnCode at made
  cases inside : c.scope with
  | none =>
    rw [inside] at made
    cases made
  | some scope =>
    rw [inside] at made
    refine ⟨rfl, ?_⟩
    cases value with
    | none =>
      cases lowering_pure.1 made
      exact ⟨rfl, rfl⟩
    | some e =>
      obtain ⟨⟨xs, x⟩, k₁, operand, result⟩ := lowering_bind.1 made
      cases lowering_pure.1 result
      exact ⟨xs, x, operand, rfl⟩

section Statements

variable {m : ModuleScope} {scope : Option FuncScope} {loop : Option LoopLabels} {line : Nat}
  {target : String} {value test : Expr} {body otherwise : List Stmt}

/-- Statements with code of their own start by freeing the temporaries. -/
theorem reset_ok {f : Unit → Lowering Code} (made : (resetTemps >>= f) k = .ok (code, k')) :
    f () k.reset = .ok (code, k') := by
  obtain ⟨⟨⟩, k₁, reset, rest⟩ := lowering_bind.1 made
  cases reset
  exact rest

theorem assign_ok (made : stmtCode m scope loop (.assign target value line) k = .ok (code, k')) :
    ∃ dest, (⟨m, scope, line⟩ : Context).resolve target = .ok dest ∧
      store ⟨m, scope, line⟩ dest value k.reset = .ok (code, k') := by
  rw [stmtCode] at made
  exact lift_ok (reset_ok made)

theorem augment_ok {op : Arith}
    (made : stmtCode m scope loop (.augment target op value line) k = .ok (code, k')) :
    ∃ dest, (⟨m, scope, line⟩ : Context).resolve target = .ok dest ∧
      store ⟨m, scope, line⟩ dest (.arith op (.name target) value) k.reset = .ok (code, k') := by
  rw [stmtCode] at made
  exact lift_ok (reset_ok made)

theorem cond_ok (made : stmtCode m scope loop (.cond test body otherwise line) k = .ok (code, k')) :
    let c : Context := ⟨m, scope, line⟩
    let toElse := UInt32.ofNat k.labels
    ∃ check k₁ taken k₂, jumpUnless c toElse test k.reset.withLabel = .ok (check, k₁) ∧
      blockCode m scope loop body k₁ = .ok (taken, k₂) ∧
      (otherwise = [] ∧ k' = k₂ ∧ code = check ++ taken ++ [c.label toElse] ∨
        ∃ skipped, blockCode m scope loop otherwise k₂.withLabel = .ok (skipped, k') ∧
          code = check ++ taken ++ [c.jump (UInt32.ofNat k₂.labels), c.label toElse] ++ skipped ++
            [c.label (UInt32.ofNat k₂.labels)]) := by
  rw [stmtCode] at made
  have made := reset_ok made
  rw [freshLabel_bind] at made
  obtain ⟨check, k₂, checked, rest⟩ := lowering_bind.1 made
  obtain ⟨taken, k₃, block, rest⟩ := lowering_bind.1 rest
  refine ⟨check, k₂, taken, k₃, checked, block, ?_⟩
  cases otherwise with
  | nil =>
    cases lowering_pure.1 rest
    exact .inl ⟨rfl, rfl, rfl⟩
  | cons s others =>
    rw [if_neg nofun, freshLabel_bind] at rest
    obtain ⟨skipped, k₅, block, result⟩ := lowering_bind.1 rest
    cases lowering_pure.1 result
    exact .inr ⟨skipped, block, rfl⟩

theorem whileLoop_ok (made : stmtCode m scope loop (.whileLoop test body line) k = .ok (code, k')) :
    let c : Context := ⟨m, scope, line⟩
    let top := UInt32.ofNat k.labels
    let done := UInt32.ofNat (k.labels + 1)
    ∃ check k₁ repeated, jumpUnless c done test k.reset.withLabel.withLabel = .ok (check, k₁) ∧
      blockCode m scope (some ⟨top, done⟩) body k₁ = .ok (repeated, k') ∧
      code = [c.label top] ++ check ++ repeated ++ [c.jump top, c.label done] := by
  rw [stmtCode] at made
  have made := reset_ok made
  rw [freshLabel_bind, freshLabel_bind] at made
  obtain ⟨check, k₃, checked, rest⟩ := lowering_bind.1 made
  obtain ⟨repeated, k₄, block, result⟩ := lowering_bind.1 rest
  cases lowering_pure.1 result
  exact ⟨check, k₃, repeated, checked, block, rfl⟩

theorem blockCode_cons_ok {s : Stmt} {rest : List Stmt}
    (made : blockCode m scope loop (s :: rest) k = .ok (code, k')) :
    ∃ xs k₁ ys, stmtCode m scope loop s k = .ok (xs, k₁) ∧
      blockCode m scope loop rest k₁ = .ok (ys, k') ∧ code = xs ++ ys := by
  rw [blockCode] at made
  obtain ⟨xs, k₁, first, others⟩ := lowering_bind.1 made
  obtain ⟨ys, k₂, second, result⟩ := lowering_bind.1 others
  cases lowering_pure.1 result
  exact ⟨xs, k₁, ys, first, second, rfl⟩

end Statements

end SlotLang.Subset
