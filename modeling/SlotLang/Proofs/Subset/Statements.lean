import SlotLang.Proofs.Subset.Plans

/-!
# Statements are correct

The code of a statement does what the statement does. If the statement goes on to the next one, the
machine comes to the end of the code; if it leaves a loop or starts its next round, the machine comes
to the label for that; if it returns, the machine comes to an instruction that returns the value.
-/

open List

namespace SlotLang.Subset

variable {allowed : Limits → Prop} {sc : Scene} {s : Setting} {line pos pos' t : Nat}
  {loop : Option LoopLabels} {k k' : Counters} {code xs : Code} {o dest : Operand} {v : Value}
  {mem mem' : Memory} {m n l : Machine} {c : Context} {e : Expr} {label : UInt32} {name : String}

/-! ## Assignments -/

theorem Leaves.assign (situated : Situated allowed sc s)
    (resolved : (sc.context line).resolve name = .ok dest)
    (leaves : Leaves sc 0 (some dest) pos dest m v mem n) :
    Arrives sc 0 none pos (mem.assign (s.isLocal name) name v) m n := by
  have isLocal : s.isLocal name = (localSlot? sc.scope name).isSome := by
    rw [situated.isLocal, sc.isLocal_eq]
  have noTemps : ∀ j < 0, some (sc.temp j) ≠ none → n.read (sc.temp j) = m.read (sc.temp j) :=
    fun j below => absurd below (Nat.not_lt_zero j)
  rcases resolve_cases resolved with named | ⟨unnamed, g, named, rfl⟩
  · change localSlot? sc.scope name = some dest at named
    rw [isLocal, named]
    refine { leaves.toArrives with globals := ?_, locals := ?_, temps := noTemps }
    · intro x g global _
      refine leaves.globals global fun same => ?_
      obtain ⟨-, ⟨j, rfl⟩ | ⟨j, rfl⟩⟩ := localSlot?_kind named <;> cases same
    · intro x o here _
      change Holds sc n o (if x = name then v else mem.locals x)
      by_cases same : x = name
      · subst same
        rw [named] at here
        cases here
        rw [if_pos rfl]
        exact leaves.holds
      · rw [if_neg same]
        refine leaves.locals here fun slot => same ?_
        cases slot
        exact sc.local_inj here named
  · change localSlot? sc.scope name = none at unnamed
    rw [isLocal, unnamed]
    refine { leaves.toArrives with globals := ?_, locals := ?_, temps := noTemps }
    · intro x g' global _
      change n.read _ = .ok (if x = name then v else mem.globals x)
      by_cases same : x = name
      · subst same
        rw [show sc.module.globals.slot? x = some g from named] at global
        cases global
        rw [if_pos rfl]
        exact leaves.holds.value nofun
      · rw [if_neg same]
        refine leaves.globals global fun slot => same ?_
        cases slot
        exact sc.global_inj global named
    · intro x o here _
      refine leaves.locals here fun slot => ?_
      obtain ⟨-, ⟨j, rfl⟩ | ⟨j, rfl⟩⟩ := localSlot?_kind here <;> cases slot

theorem sim_store (situated : Situated allowed sc s)
    (resolved : (sc.context line).resolve name = .ok dest)
    (made : store (sc.context line) dest e k = .ok (code, k')) (start : k.temps = 0)
    (placed : Placed sc.body.code pos code) (stands : Stands sc none pos mem m) :
    Sim allowed sc.module.globals (e.eval s) mem m fun v mem' n =>
      Arrives sc 0 none (pos + code.length) (mem'.assign (s.isLocal name) name v) m n := by
  have target : sc.Target dest := .inr ⟨line, name, resolved⟩
  have draws := (makes_store (.name resolved) made).toDraws
  have room := sc.room_of_draws rfl start draws placed.members
  rcases store_ok made with ⟨-, xs, inner, rfl⟩ | ⟨late, inner⟩
  · refine ((plan_correct situated e).into inner room placed.left stands (target_temp sc k.temps)
      fun _ => ⟨k.temps, Nat.lt_succ_self _, rfl⟩).after fun v mem' n _ leaves => ?_
    have below : k.temps < k'.temps := ((plan_tidy _ e).into (writable_temp _ _) inner).1.temps_le
    have leaves := leaves.of_temp room below (Nat.le_succ _)
    have arrives := leaves.toArrives.fewer (Nat.zero_le _)
    have writable := leaves.canWrite (placed.right.members _ mem_cons_self)
      mem_cons_self target
    refine ⟨_, leaves.reaches_copy placed.right target leaves.holds, ?_⟩
    rw [length_append, ← Nat.add_assoc]
    exact (arrives.leaves target writable v).assign situated resolved
  · refine ((plan_correct situated e).into inner room placed stands target
      fun early => absurd (late.symm.trans early) Bool.false_ne_true).mono fun v mem' n _ leaves => ?_
    exact Leaves.assign situated resolved
      ⟨leaves.toArrives.fewer (Nat.zero_le _), leaves.holds⟩

/-! ## Conditions -/

/-- A jump on a flag that says whether a value is zero. -/
theorem Arrives.branch {flag : Bool} (arrives : Arrives sc t none pos mem m n)
    (placed : Placed sc.body.code pos (c.jumpIf o label :: xs))
    (holds : Holds sc n o (.ofBool flag)) (isZero : flag = decide (v = 0))
    (position : labelPosition? sc.body.code label = some pos') :
    ∃ l, Reaches (Machine.outcome allowed) n l ∧
      Arrives sc t none (if v = 0 then pos' else pos + 1) mem m l := by
  subst isZero
  refine ⟨_, arrives.reaches_jumpIf_ofBool placed holds fun _ => position, ?_⟩
  simp only [decide_eq_true_eq]
  exact arrives.goto _

/-- A condition goes on if it holds, and to the label otherwise. -/
theorem sim_jumpUnless {label : UInt32} (situated : Situated allowed sc s) (e : Expr)
    (made : jumpUnless (sc.context line) label e k = .ok (code, k')) (room : sc.Room k'.temps)
    (placed : Placed sc.body.code pos code) (stands : Stands sc none pos mem m)
    (position : labelPosition? sc.body.code label = some pos') :
    Sim allowed sc.module.globals (e.eval s) mem m fun v mem' n =>
      Arrives sc k.temps none (if v = 0 then pos' else pos + code.length) mem' m n := by
  rcases jumpUnless_cases (sc.context line) label e with ⟨v, rfl, same⟩ | ⟨e', rfl, same⟩ |
    ⟨op, opposite, a, b, rfl, known, same⟩ | ⟨e', rfl, same⟩ | same <;> rw [same] at made
  · cases lowering_pure.1 made
    by_cases zero : v = 0
    · rw [if_pos zero] at placed ⊢
      refine .ok rfl (stands.reaches_jump placed position) ?_
      rw [if_pos zero]
      exact (stands.arrives _).goto pos'
    · rw [if_neg zero]
      refine .ok rfl (.refl _ m) ?_
      rw [if_neg zero]
      exact stands.arrives _
  · obtain ⟨⟨xs, x⟩, k₁, operand, result⟩ := lowering_bind.1 made
    cases lowering_pure.1 result
    refine ((plan_correct situated e').value operand room placed.left stands).bind
      fun v mem' n _ leaves => ?_
    refine .ok rfl (leaves.reaches_jumpIf placed.right leaves.holds fun _ => position) ?_
    have target : (if Value.ofBool (v = 0) = 0 then pos' else
        pos + (xs ++ [(sc.context line).jumpIf x label]).length) =
          if v = 0 then pos + xs.length + 1 else pos' := by
      by_cases zero : v = 0 <;> simp [zero, Nat.add_assoc]
    rw [target]
    exact leaves.goto _
  · obtain ⟨xs, x, y, k₁, operands, rfl, rfl⟩ := jumpOn_ok made
    have le := (makes_readBoth (plan_tidy _ a) (plan_tidy _ b) operands).1.temps_le
    refine sim_readBoth situated (plan_correct situated a) (plan_correct situated b) operands
      (room.mono (Nat.le_succ _)) placed.left stands fun u v mem' n arrives hx hy => ?_
    obtain ⟨l, reaches, arrives', flag⟩ :=
      reaches_scratch allowed arrives placed.right le room hx hy (apply_opposite known u v)
    have isZero : (!op.holds u v) = decide (Value.ofBool (op.holds u v) = 0) := by
      cases op.holds u v <;> rfl
    obtain ⟨l', jump, there⟩ := arrives'.branch placed.right.tail flag isZero position
    rw [length_append, ← Nat.add_assoc]
    exact .ok rfl (reaches.trans jump) there
  · refine (sim_jumpUnless situated e' made room placed stands position).congr ?_
    exact result_passthrough s rfl e' mem
  · obtain ⟨xs, x, k₁, operand, rfl, rfl⟩ := jumpOnZero_ok made
    have le := ((plan_tidy _ e).value operand).1.temps_le
    refine ((plan_correct situated e).value operand (room.mono (Nat.le_succ _)) placed.left
      stands).after fun v mem' n _ leaves => ?_
    have target := target_temp sc k₁.temps
    have writable := leaves.canWrite (placed.right.members _ mem_cons_self)
      mem_cons_self target
    have arrives := leaves.next.write target (.inr ⟨k₁.temps, le, room, rfl⟩) (.ofBool (v = 0))
    obtain ⟨l, jump, there⟩ := arrives.branch placed.right.tail (holds_write target writable) rfl position
    rw [length_append, ← Nat.add_assoc]
    exact ⟨l, (leaves.reaches_not placed.right target leaves.holds).trans jump, there⟩
termination_by sizeOf e

/-! ## Ways to end -/

/-- Where the machine stands when statements have ended in some way. -/
def Landed (sc : Scene) (loop : Option LoopLabels) (pos : Nat) (m : Machine) :
    Flow → Memory → Machine → Prop
  | .next, mem, n => Arrives sc 0 none pos mem m n
  | .leaveLoop, mem, n => ∃ labels pos', loop = some labels ∧
      labelPosition? sc.body.code labels.done = some pos' ∧ Arrives sc 0 none pos' mem m n
  | .nextRound, mem, n => ∃ labels pos', loop = some labels ∧
      labelPosition? sc.body.code labels.top = some pos' ∧ Arrives sc 0 none pos' mem m n
  | .ret v, mem, n => ∃ pos' o line, sc.scope.isSome = true ∧
      sc.body.code[pos']? = some ⟨.ret, [o], line⟩ ∧ Arrives sc 0 none pos' mem m n ∧ n.read o = .ok v

namespace Landed

variable {flow : Flow}

/-- Some code may have run before. -/
theorem after (arrives : Arrives sc t none pos mem l m) (landed : Landed sc loop pos' m flow mem' n) :
    Landed sc loop pos' l flow mem' n := by
  have arrives := arrives.fewer (Nat.zero_le t)
  cases flow with
  | next => exact arrives.trans landed (Nat.le_refl 0)
  | leaveLoop | nextRound =>
    obtain ⟨labels, p, inside, position, there⟩ := landed
    exact ⟨labels, p, inside, position, arrives.trans there (Nat.le_refl 0)⟩
  | ret v =>
    obtain ⟨p, o, line, inside, current, there, value⟩ := landed
    exact ⟨p, o, line, inside, current, arrives.trans there (Nat.le_refl 0), value⟩

/-- The end of the code matters only if the statements go on. -/
theorem elsewhere (landed : Landed sc loop pos m flow mem n) (leaves : flow ≠ .next) (pos' : Nat) :
    Landed sc loop pos' m flow mem n := by
  cases flow with
  | next => exact absurd rfl leaves
  | leaveLoop | nextRound | ret v => exact landed

end Landed

/-- The labels of the loop around some code have positions. -/
def Looped (sc : Scene) (loop : Option LoopLabels) : Prop :=
  ∀ labels, loop = some labels → (∃ p, labelPosition? sc.body.code labels.top = some p) ∧
    ∃ p, labelPosition? sc.body.code labels.done = some p

/-- Statements behind which the machine can go on by itself. -/
theorem Sim.landed_after {x : Eval Flow} {pos₁ pos₂ : Nat}
    (sim : Sim allowed sc.module.globals x mem m (Landed sc loop pos₁ m))
    (more : ∀ mem n, Stands sc none pos₁ mem n →
      ∃ l, Reaches (Machine.outcome allowed) n l ∧ Arrives sc 0 none pos₂ mem n l) :
    Sim allowed sc.module.globals x mem m (Landed sc loop pos₂ m) := by
  refine sim.after fun flow mem' n _ landed => ?_
  by_cases goesOn : flow = .next
  · subst goesOn
    obtain ⟨l, reaches, there⟩ := more mem' n landed.toStands
    exact ⟨l, reaches, landed.trans there (Nat.le_refl 0)⟩
  · exact ⟨n, .refl _ n, landed.elsewhere goesOn pos₂⟩

/-! ## Loops -/

theorem sim_repeatWhile {test : Eval Value} {body : Eval Flow} (labels : LoopLabels)
    (start : Nat) {top finish done : Nat} (rounds : Nat)
    (topPosition : labelPosition? sc.body.code labels.top = some top)
    (donePosition : labelPosition? sc.body.code labels.done = some done)
    (tested : ∀ mem m, Stands sc none top mem m →
      Sim allowed sc.module.globals test mem m fun v mem' n =>
        Arrives sc 0 none (if v = 0 then done else start) mem' m n)
    (repeated : ∀ mem m, Stands sc none start mem m →
      Sim allowed sc.module.globals body mem m (Landed sc (some labels) finish m))
    (again : ∀ mem n, Stands sc none finish mem n →
      ∃ l, Reaches (Machine.outcome allowed) n l ∧ Arrives sc 0 none top mem n l)
    (exit : ∀ mem n, Stands sc none done mem n →
      ∃ l, Reaches (Machine.outcome allowed) n l ∧ Arrives sc 0 none pos mem n l)
    (stands : Stands sc none top mem m) :
    Sim allowed sc.module.globals (repeatWhile test body rounds) mem m (Landed sc loop pos m) := by
  induction rounds generalizing mem m with
  | zero => exact .error rfl fun cause known => absurd known nofun
  | succ rounds ih =>
    refine (tested mem m stands).bind fun v mem₁ n₁ _ arrives => ?_
    by_cases zero : v = 0
    · rw [if_pos zero] at arrives ⊢
      obtain ⟨l, reaches, there⟩ := exit mem₁ n₁ arrives.toStands
      exact .before reaches (.pure (arrives.trans there (Nat.le_refl 0)))
    · rw [if_neg zero] at arrives ⊢
      refine (repeated mem₁ n₁ arrives.toStands).bind fun flow mem₂ n₂ _ landed => ?_
      cases flow with
      | next =>
        obtain ⟨l, reaches, there⟩ := again mem₂ n₂ landed.toStands
        have here := arrives.trans (landed.trans there (Nat.le_refl 0)) (Nat.le_refl 0)
        exact .before reaches ((ih there.toStands).mono fun _ _ _ _ later => later.after here)
      | nextRound =>
        obtain ⟨labels', p, same, position, there⟩ := landed
        cases same
        rw [topPosition] at position
        cases position
        have here := arrives.trans there (Nat.le_refl 0)
        exact (ih there.toStands).mono fun _ _ _ _ later => later.after here
      | leaveLoop =>
        obtain ⟨labels', p, same, position, there⟩ := landed
        cases same
        rw [donePosition] at position
        cases position
        obtain ⟨l, reaches, last⟩ := exit mem₂ n₂ there.toStands
        have here := arrives.trans (there.trans last (Nat.le_refl 0)) (Nat.le_refl 0)
        exact .before reaches (.pure here)
      | ret v => exact .pure (Landed.after arrives landed)

/-! ## Statements without statements inside -/

theorem Arrives.output (arrives : Arrives sc t none pos mem m n) (v : Value) :
    Arrives sc t none (pos + 1) { mem with output := mem.output ++ [v] } m
      { n.next with outputs := n.outputs.push v } := by
  have next := arrives.next
  have unchanged : ∀ o, ({ n.next with outputs := n.outputs.push v } : Machine).read o = n.next.read o :=
    fun o => by cases o <;> rfl
  refine { next with
    outputs := ?_, globals := fun named other => ?_, locals := fun named other => ?_,
    temps := fun j below other => ?_, hidden := fun inside g unnamed => ?_,
    shape := next.shape.trans ⟨rfl, rfl, rfl, rfl, rfl, rfl⟩ }
  · rw [unchanged]
    exact next.globals named other
  · exact (next.locals named other).congr ⟨rfl, rfl, rfl, rfl, rfl, rfl⟩ (unchanged _)
  · change (n.outputs.push v).toList = _
    rw [Array.toList_push, arrives.outputs]
  · rw [unchanged]
    exact next.temps j below other
  · rw [unchanged]
    exact next.hidden inside g unnamed

theorem sim_exprCode (situated : Situated allowed sc s)
    (made : exprCode (sc.context line) e k = .ok (code, k')) (start : k.temps = 0)
    (placed : Placed sc.body.code pos code) (stands : Stands sc none pos mem m) :
    Sim allowed sc.module.globals ((Stmt.expr e line).exec s) mem m
      (Landed sc loop (pos + code.length) m) := by
  have room := sc.room_of_draws rfl start (makes_exprCode made).toDraws placed.members
  rcases exprCode_ok made with ⟨e', prints, xs, x, operand, rfl⟩ | ⟨silent, x, operand⟩
  · rw [Stmt.exec, prints]
    refine ((plan_correct situated e').value operand room placed.left stands).bind
      fun v mem' n _ leaves => ?_
    refine .ok rfl (leaves.reaches_output placed.right leaves.holds) ?_
    rw [length_append, ← Nat.add_assoc]
    exact (leaves.toArrives.output v).fewer (Nat.zero_le _)
  · rw [Stmt.exec, silent]
    refine ((plan_correct situated e).value operand room placed stands).bind
      fun v mem' n _ leaves => ?_
    exact .ok rfl (.refl _ n) (leaves.toArrives.fewer (Nat.zero_le _))

theorem sim_returnCode {value : Option Expr} (situated : Situated allowed sc s)
    (made : returnCode (sc.context line) value k = .ok (code, k')) (start : k.temps = 0)
    (placed : Placed sc.body.code pos code) (stands : Stands sc none pos mem m) :
    Sim allowed sc.module.globals ((Stmt.ret value line).exec s) mem m
      (Landed sc loop (pos + code.length) m) := by
  have room := sc.room_of_draws rfl start (makes_returnCode made).toDraws placed.members
  obtain ⟨inside, shape⟩ := returnCode_ok made
  cases value with
  | none =>
    obtain ⟨rfl, rfl⟩ := shape
    exact .pure ⟨pos, _, _, inside, placed.current, stands.arrives 0, rfl⟩
  | some e =>
    obtain ⟨xs, x, operand, rfl⟩ := shape
    refine ((plan_correct situated e).value operand room placed.left stands).bind
      fun v mem' n _ leaves => ?_
    have value := leaves.read (placed.right.members _ mem_cons_self) mem_cons_self leaves.holds
    exact .pure ⟨_, _, _, inside, placed.right.current, leaves.toArrives.fewer (Nat.zero_le _), value⟩

/-! ## All statements -/

theorem reaches_leave (allowed : Limits → Prop)
    (placed : Placed sc.body.code pos (c.jump label :: xs))
    (position : labelPosition? sc.body.code label = some pos') : ∀ mem n, Stands sc none pos mem n →
      ∃ l, Reaches (Machine.outcome allowed) n l ∧ Arrives sc 0 none pos' mem n l :=
  fun _ _ stands => ⟨_, stands.reaches_jump placed position, (stands.arrives 0).goto pos'⟩

theorem reaches_pass (allowed : Limits → Prop)
    (placed : Placed sc.body.code pos (c.label label :: xs)) : ∀ mem n, Stands sc none pos mem n →
      ∃ l, Reaches (Machine.outcome allowed) n l ∧ Arrives sc 0 none (pos + 1) mem n l :=
  fun _ _ stands => ⟨_, stands.reaches_label placed, (stands.arrives 0).next⟩

mutual

theorem sim_stmt (situated : Situated allowed sc s) (stmt : Stmt) {loop : Option LoopLabels}
    {k k' : Counters} {code : Code} {pos : Nat} {mem : Memory} {m : Machine}
    (made : stmtCode sc.module sc.scope loop stmt k = .ok (code, k'))
    (placed : Placed sc.body.code pos code) (looped : Looped sc loop)
    (stands : Stands sc none pos mem m) :
    Sim allowed sc.module.globals (stmt.exec s) mem m (Landed sc loop (pos + code.length) m) := by
  match stmt with
  | .assign target value line =>
    obtain ⟨dest, resolved, stored⟩ := assign_ok made
    refine (sim_store situated resolved stored rfl placed stands).bind fun v mem' n _ arrives => ?_
    exact .ok rfl (.refl _ n) arrives
  | .augment target op value line =>
    obtain ⟨dest, resolved, stored⟩ := augment_ok made
    have meant : (Stmt.augment target op value line).exec s =
        (Expr.arith op (.name target) value).eval s >>= fun v => do
          s.write target v
          return .next := by
      rw [Stmt.exec, Expr.eval, Expr.eval]
      simp only [bind_assoc]
    rw [meant]
    refine (sim_store situated resolved stored rfl placed stands).bind fun v mem' n _ arrives => ?_
    exact .ok rfl (.refl _ n) arrives
  | .expr value line => exact sim_exprCode situated (reset_ok made) rfl placed stands
  | .ret value line => exact sim_returnCode situated (reset_ok made) rfl placed stands
  | .cond test body otherwise line =>
    obtain ⟨check, k₁, taken, k₂, checked, block, shape⟩ := cond_ok made
    have draws := (makes_jumpUnless _ _ _ checked).toDraws
    rcases shape with ⟨rfl, rfl, rfl⟩ | ⟨skipped, others, rfl⟩
    · have room := sc.room_of_draws rfl rfl draws placed.left.left.members
      have position := placed.right.label sc.labels
      refine (sim_jumpUnless situated test checked room placed.left.left stands position).bind
        fun v mem₁ n₁ _ arrives => ?_
      rw [length_append, ← Nat.add_assoc]
      have pass := reaches_pass allowed placed.right
      by_cases zero : v = 0
      · rw [if_pos zero] at arrives ⊢
        obtain ⟨l, reaches, there⟩ := pass mem₁ n₁ arrives.toStands
        exact .before reaches (.pure (arrives.trans there (Nat.le_refl 0)))
      · rw [if_neg zero] at arrives ⊢
        have taken := sim_block situated body block placed.left.right looped arrives.toStands
        rw [Nat.add_assoc, ← length_append] at taken
        exact (taken.landed_after pass).mono fun _ _ _ _ landed => landed.after arrives
    · have room := sc.room_of_draws rfl rfl draws placed.left.left.left.left.members
      have position := placed.left.left.right.tail.label sc.labels
      refine (sim_jumpUnless situated test checked room placed.left.left.left.left stands position).bind
        fun v mem₁ n₁ _ arrives => ?_
      rw [length_append, ← Nat.add_assoc]
      have pass := reaches_pass allowed placed.right
      by_cases zero : v = 0
      · rw [if_pos zero] at arrives ⊢
        obtain ⟨l, reaches, there⟩ :=
          reaches_pass allowed placed.left.left.right.tail mem₁ n₁ arrives.toStands
        have behind := placed.left.right
        rw [length_append, ← Nat.add_assoc] at behind
        have skipped := sim_block situated otherwise others behind looped there.toStands
        rw [Nat.add_assoc pos, ← length_append, Nat.add_assoc, ← length_append] at skipped
        exact .before reaches ((skipped.landed_after pass).mono fun _ _ _ _ landed =>
          landed.after (arrives.trans there (Nat.le_refl 0)))
      · rw [if_neg zero] at arrives ⊢
        have taken := sim_block situated body block placed.left.left.left.right looped arrives.toStands
        rw [Nat.add_assoc, ← length_append] at taken
        have leave := reaches_leave allowed placed.left.left.right (placed.right.label sc.labels)
        exact ((taken.landed_after leave).landed_after pass).mono fun _ _ _ _ landed =>
          landed.after arrives
  | .whileLoop test body line =>
    obtain ⟨check, k₁, repeated, checked, block, rfl⟩ := whileLoop_ok made
    have draws := (makes_jumpUnless _ _ _ checked).toDraws
    have room := sc.room_of_draws rfl rfl draws placed.left.left.right.members
    have top := placed.left.left.left.label sc.labels
    have done := placed.right.tail.label sc.labels
    have inner : Looped sc (some ⟨UInt32.ofNat k.labels, UInt32.ofNat (k.labels + 1)⟩) := by
      intro labels same
      cases same
      exact ⟨⟨_, top⟩, _, done⟩
    refine sim_repeatWhile ⟨UInt32.ofNat k.labels, UInt32.ofNat (k.labels + 1)⟩ (pos + 1 + check.length)
      s.rounds top done ?_ ?_ (reaches_leave allowed placed.right top) ?_ stands
    · intro mem m stands
      obtain ⟨l, reaches, arrives⟩ := reaches_pass allowed placed.left.left.left mem m stands
      have jump := sim_jumpUnless situated test checked room placed.left.left.right arrives.toStands done
      exact .before reaches (jump.mono fun v mem' n _ there => arrives.trans there (Nat.le_refl 0))
    · intro mem m stands
      have inside := placed.left.right
      rw [length_append, ← Nat.add_assoc] at inside
      have body := sim_block situated body block inside inner stands
      rwa [Nat.add_assoc pos, ← length_append, Nat.add_assoc, ← length_append] at body
    · intro mem n stands
      obtain ⟨l, reaches, there⟩ := reaches_pass allowed placed.right.tail mem n stands
      rw [length_append, ← Nat.add_assoc]
      exact ⟨l, reaches, there⟩
  | .breakLoop line =>
    cases loop with
    | none => cases made
    | some labels =>
      cases made
      obtain ⟨-, p, position⟩ := looped labels rfl
      obtain ⟨l, reaches, there⟩ := reaches_leave allowed placed position mem m stands
      exact .ok rfl reaches ⟨labels, p, rfl, position, there⟩
  | .continueLoop line =>
    cases loop with
    | none => cases made
    | some labels =>
      cases made
      obtain ⟨⟨p, position⟩, -⟩ := looped labels rfl
      obtain ⟨l, reaches, there⟩ := reaches_leave allowed placed position mem m stands
      exact .ok rfl reaches ⟨labels, p, rfl, position, there⟩
  | .global _ _ | .pass _ | .funcDef .. =>
    rw [stmtCode] at made
    cases made
    exact .pure (stands.arrives 0)

theorem sim_block (situated : Situated allowed sc s) (body : List Stmt) {loop : Option LoopLabels}
    {k k' : Counters} {code : Code} {pos : Nat} {mem : Memory} {m : Machine}
    (made : blockCode sc.module sc.scope loop body k = .ok (code, k'))
    (placed : Placed sc.body.code pos code) (looped : Looped sc loop)
    (stands : Stands sc none pos mem m) :
    Sim allowed sc.module.globals (execAll s body) mem m
      (Landed sc loop (pos + code.length) m) := by
  match body with
  | [] =>
    rw [blockCode] at made
    cases made
    exact .pure (stands.arrives 0)
  | stmt :: rest =>
    obtain ⟨xs, k₁, ys, first, others, rfl⟩ := blockCode_cons_ok made
    refine (sim_stmt situated stmt first placed.left looped stands).bind
      fun flow mem₁ n₁ _ landed => ?_
    cases flow with
    | next =>
      rw [length_append, ← Nat.add_assoc]
      exact (sim_block situated rest others placed.right looped landed.toStands).mono
        fun _ _ _ _ later => later.after landed
    | leaveLoop | nextRound | ret v => exact .pure (landed.elsewhere nofun _)

end

end SlotLang.Subset
