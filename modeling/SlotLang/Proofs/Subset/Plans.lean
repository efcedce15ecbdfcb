import SlotLang.Proofs.Subset.Operators

/-!
# Plans are correct

The plan of every expression is correct (`plan_correct`), by induction on the expression: code that
computes into a slot is made of the code of the operands and of one operator.
-/

open List

namespace SlotLang.Subset

variable {allowed : Limits → Prop} {sc : Scene} {s : Setting} {line pos t t' : Nat}
  {except : Option Operand} {k k' : Counters} {code xs : Code} {o dest : Operand} {v w : Value}
  {mem mem' : Memory} {m n l : Machine}

/-! ## Computing into a slot -/

/-- A connective as an operation on two values. -/
def Connective.combine (op : Connective) (u v : Value) : Value :=
  match op with
  | .and => .ofBool (u ≠ 0 ∧ v ≠ 0)
  | .or => .ofBool (u ≠ 0 ∨ v ≠ 0)

section Into

variable {a b : Expr} (situated : Situated allowed sc s)
  (left : (plan (sc.context line) a).Correct allowed sc a.writesEarly (a.eval s))
  (right : (plan (sc.context line) b).Correct allowed sc b.writesEarly (b.eval s))
  (room : sc.Room k'.temps) (placed : Placed sc.body.code pos code)
  (stands : Stands sc none pos mem m) (target : sc.Target dest)

include situated left right room placed stands target

theorem sim_binaryInto {op : BinaryOp} {meant : Value → Value → Except Stop Value}
    (made : binaryInto (sc.context line) op (part (sc.context line) a) (part (sc.context line) b)
      dest k = .ok (code, k')) (agrees : ∀ u v, Agrees (meant u v) (op.apply u v)) :
    Sim allowed sc.module.globals
      (a.eval s >>= fun u => b.eval s >>= fun v => Eval.ofExcept (meant u v)) mem m
      (Leaves sc k.temps (some dest) (pos + code.length) dest m) := by
  obtain ⟨xs, x, y, operands, rfl⟩ := binaryInto_ok made
  refine sim_readBoth situated left right operands room placed.left stands
    fun u v mem' n arrives hx hy => ?_
  rw [length_append, ← Nat.add_assoc]
  exact sim_binary (agrees u v) placed.right target arrives hx hy

theorem sim_negatedInto {op : BinaryOp} {holds : Value → Value → Bool}
    (made : negatedInto (sc.context line) op (part (sc.context line) a) (part (sc.context line) b)
      dest k = .ok (code, k')) (opposite : ∀ u v, op.apply u v = .ok (.ofBool !holds u v)) :
    Sim allowed sc.module.globals
      (a.eval s >>= fun u => b.eval s >>= fun v => pure (.ofBool (holds u v))) mem m
      (Leaves sc k.temps (some dest) (pos + code.length) dest m) := by
  obtain ⟨xs, x, y, k₁, operands, rfl, rfl⟩ := negatedInto_ok made
  have le := (makes_readBoth (plan_tidy _ a) (plan_tidy _ b) operands).1.temps_le
  refine sim_readBoth situated left right operands (room.mono (Nat.le_succ _)) placed.left stands
    fun u v mem' n arrives hx hy => ?_
  obtain ⟨l, reaches, arrives', flag⟩ :=
    reaches_scratch allowed arrives placed.right le room hx hy (opposite u v)
  have writable := arrives'.canWrite (placed.right.tail.members _ mem_cons_self)
    mem_cons_self target
  have value : Value.ofBool (decide (Value.ofBool (!holds u v) = 0)) = .ofBool (holds u v) := by
    cases holds u v <;> rfl
  have negated : Reaches (Machine.outcome allowed) l _ :=
    arrives'.reaches_not placed.right.tail target flag
  rw [value] at negated
  rw [length_append, ← Nat.add_assoc]
  exact .ok rfl (reaches.trans negated) (arrives'.leaves target writable _)

/-- Division that rounds down needs a temporary to compute into. -/
theorem sim_arithInto {op : Arith}
    (drawn : (Expr.arith op a b).writesEarly = true → ∃ j < k.temps, dest = sc.temp j)
    (made : arithInto (sc.context line) op (part (sc.context line) a) (part (sc.context line) b)
      dest k = .ok (code, k')) :
    Sim allowed sc.module.globals ((Expr.arith op a b).eval s) mem m
      (Leaves sc k.temps (some dest) (pos + code.length) dest m) := by
  cases op with
  | add | sub | mul =>
    exact sim_binaryInto situated left right room placed stands target made fun _ _ => rfl
  | floorDiv =>
    obtain ⟨j, below, rfl⟩ := drawn rfl
    obtain ⟨xs, x, y, k₁, operands, rfl, rfl⟩ := floorDivInto_ok made
    obtain ⟨ys, k₂, zs, first, second, rfl⟩ := readBoth_ok operands
    obtain ⟨firstDraws, xSource⟩ := makes_read (plan_tidy _ a) first
    obtain ⟨secondDraws, ySource⟩ := makes_read (plan_tidy _ b) second
    refine sim_readBoth situated left right operands (room.mono (Nat.le_add_right _ 3)) placed.left
      stands fun u v mem' n arrives hx hy => ?_
    rw [length_append, ← Nat.add_assoc]
    exact sim_floorDiv arrives (Nat.le_trans firstDraws.temps_le secondDraws.temps_le) below
      (ySource.mono firstDraws.temps_le (Nat.le_refl _)) hx hy room
      (xSource.mono (Nat.le_refl _) secondDraws.temps_le) placed.right
  | floorMod =>
    obtain ⟨j, below, rfl⟩ := drawn rfl
    obtain ⟨xs, x, y, k₁, operands, rfl, rfl⟩ := floorModInto_ok made
    obtain ⟨ys, k₂, zs, first, second, rfl⟩ := readBoth_ok operands
    obtain ⟨firstDraws, -⟩ := makes_read (plan_tidy _ a) first
    obtain ⟨secondDraws, ySource⟩ := makes_read (plan_tidy _ b) second
    refine sim_readBoth situated left right operands (room.mono (Nat.le_add_right _ 2)) placed.left
      stands fun u v mem' n arrives hx hy => ?_
    rw [length_append, ← Nat.add_assoc]
    exact sim_floorMod arrives (Nat.le_trans firstDraws.temps_le secondDraws.temps_le) below
      (ySource.mono firstDraws.temps_le (Nat.le_refl _)) hx hy room placed.right

theorem sim_compareInto {op : Relation}
    (made : compareInto (sc.context line) op (part (sc.context line) a) (part (sc.context line) b)
      dest k = .ok (code, k')) :
    Sim allowed sc.module.globals ((Expr.compare op a b).eval s) mem m
      (Leaves sc k.temps (some dest) (pos + code.length) dest m) := by
  cases op with
  | lt | gt | eq =>
    exact sim_binaryInto situated left right room placed stands target made fun _ _ => rfl
  | le | ge | ne =>
    exact sim_negatedInto situated left right room placed stands target made
      fun u v => apply_opposite rfl u v

/-- A connective on plain truth values needs no jump. -/
theorem sim_flagsInto {op : Connective} (plain : (a.isPlainFlag && b.isPlainFlag) = true)
    (made : binaryInto (sc.context line) op.instruction (part (sc.context line) a)
      (part (sc.context line) b) dest k = .ok (code, k')) :
    Sim allowed sc.module.globals ((Expr.connect op a b).eval s) mem m
      (Leaves sc k.temps (some dest) (pos + code.length) dest m) := by
  simp only [Expr.isPlainFlag, Bool.and_eq_true] at plain
  obtain ⟨⟨aFlag, aFree⟩, bFlag, bFree⟩ := plain
  obtain ⟨u, aResult⟩ := result_of_isEffectFree s a aFree mem
  obtain ⟨v, bResult⟩ := result_of_isEffectFree s b bFree mem
  obtain ⟨p, rfl⟩ := eq_ofBool_of_isFlag s a aFlag aResult
  obtain ⟨q, rfl⟩ := eq_ofBool_of_isFlag s b bFlag bResult
  have agrees : ∀ u v, Agrees (.ok (op.combine u v)) (op.instruction.apply u v) := fun u v => by
    cases op <;> rfl
  refine Sim.congr ?_ (sim_binaryInto situated left right room placed stands target made agrees)
  rw [Expr.eval, result_bind_of_ok aResult, result_bind_of_ok aResult, result_bind_of_ok bResult]
  cases op <;> cases p <;> cases q <;> first | rfl | exact bResult

end Into

/-- The jump over the second operand is taken if the first one decides. -/
theorem reaches_skip (allowed : Limits → Prop) {op : Connective} {u : Value} {q pos' : Nat}
    {done : UInt32} (leaves : Leaves sc t (some dest) pos dest m u mem n) (later : t ≤ q)
    (room : op = .and → sc.Room (q + 1)) (other : op = .and → dest ≠ sc.temp q)
    (placed : Placed sc.body.code pos (skipCode (sc.context line) op dest (sc.temp q) done))
    (position : labelPosition? sc.body.code done = some pos') :
    ∃ l, Reaches (Machine.outcome allowed) n l ∧
      Leaves sc t (some dest)
        (if op.decides u then pos'
          else pos + (skipCode (sc.context line) op dest (sc.temp q) done).length)
        dest m u mem l := by
  cases op with
  | and =>
    have target := target_temp sc q
    have writable := leaves.canWrite (placed.members _ mem_cons_self) mem_cons_self target
    have reaches : Reaches (Machine.outcome allowed) n _ :=
      leaves.reaches_not placed target leaves.holds
    have arrives := leaves.next.write target (.inr ⟨q, later, room rfl, rfl⟩) (.ofBool (u = 0))
    have jump : Reaches (Machine.outcome allowed) _ _ :=
      arrives.reaches_jumpIf_ofBool placed.tail (holds_write target writable) fun _ => position
    exact ⟨_, reaches.trans jump, arrives.goto _,
      (leaves.holds.write_of_ne (other rfl)).congr (.goto _ _) (Machine.read_goto _ _ _)⟩
  | or =>
    have jump : Reaches (Machine.outcome allowed) n _ :=
      leaves.reaches_jumpIf placed leaves.holds fun _ => position
    refine ⟨_, jump, ?_, leaves.holds.congr (.goto _ _) (Machine.read_goto _ _ _)⟩
    have target : (if Connective.or.decides u then pos' else pos + 1) =
        if u = 0 then pos + 1 else pos' := by
      by_cases zero : u = 0 <;> simp [Connective.decides, zero]
    change Arrives _ _ _ (if Connective.or.decides u then pos' else pos + 1) _ _ _
    rw [target]
    exact leaves.goto _

section ShortCircuit

variable {a b : Expr}
  (left : (plan (sc.context line) a).Correct allowed sc a.writesEarly (a.eval s))
  (right : (plan (sc.context line) b).Correct allowed sc b.writesEarly (b.eval s))

include left right

/-- A connective that jumps computes both operands into the same temporary. -/
theorem sim_shortCircuitInto {op : Connective} {j : Nat} (room : sc.Room k'.temps)
    (placed : Placed sc.body.code pos code) (stands : Stands sc none pos mem m) (drawn : j < k.temps)
    (made : shortCircuitInto (sc.context line) op (plan (sc.context line) a)
      (plan (sc.context line) b) (sc.temp j) k = .ok (code, k')) :
    Sim allowed sc.module.globals ((Expr.connect op a b).eval s) mem m
      (Leaves sc k.temps (some (sc.temp j)) (pos + code.length) (sc.temp j) m) := by
  obtain ⟨xs, k₁, ys, first, second, rfl⟩ := shortCircuitInto_ok made
  have target := target_temp sc j
  have firstLe : k.temps ≤ k₁.temps := ((plan_tidy _ a).into target.writable first).1.temps_le
  have skipLe : k₁.temps ≤ (k₁.withSkip op).temps := by cases op <;> simp [Counters.withSkip]
  have secondLe := ((plan_tidy _ b).into target.writable second).1.temps_le
  have firstRoom := room.mono (Nat.le_trans skipLe secondLe)
  have done := placed.right.label sc.labels
  refine (left.into first firstRoom placed.left.left.left stands target
    fun _ => ⟨j, drawn, rfl⟩).bind fun u mem₁ n₁ _ leaves₁ => ?_
  obtain ⟨l, skip, leaves⟩ := reaches_skip allowed leaves₁ firstLe
    (fun isAnd => room.mono (by subst isAnd; exact secondLe))
    (fun isAnd => Scene.temp_ne room (by subst isAnd; exact Nat.lt_of_lt_of_le (by omega) secondLe)
      (by subst isAnd; exact secondLe) (by omega)) placed.left.left.right done
  refine .before skip ?_
  -- Either way the label at the end is passed.
  rw [length_append, ← Nat.add_assoc]
  cases decides : op.decides u with
  | true =>
    rw [decides, if_pos rfl] at leaves
    obtain ⟨l', passed, last⟩ := leaves.pass_label placed.right
    exact .ok rfl passed last
  | false =>
    rw [decides, if_neg Bool.false_ne_true, Nat.add_assoc, ← length_append] at leaves
    have below : j < (k₁.withSkip op).temps := by omega
    have stands₁ := leaves.toStands.of_temp firstRoom (by omega : j < k₁.temps)
    refine (right.into second room placed.left.right stands₁ target
      fun _ => ⟨j, below, rfl⟩).after fun v mem₂ n₂ _ leaves₂ => ?_
    have arrives := leaves.toArrives.trans leaves₂.toArrives (Nat.le_trans firstLe skipLe)
    rw [Nat.add_assoc, ← length_append] at arrives
    exact Leaves.pass_label ⟨arrives, leaves₂.holds⟩ placed.right

end ShortCircuit

/-! ## Calls -/

namespace Returned

variable (returned : Returned sc mem' n l)

include returned

theorem read_of_ne_global (other : ∀ g, o ≠ .global g) : l.read o = n.read o := by
  cases o with
  | global g => exact absurd rfl (other g)
  | lit w => rfl
  | var i | arg i => rw [Machine.read, returned.top]; rfl

/-- A call has changed globals with names and the output, nothing else of what the caller needs. -/
theorem arrives (here : Arrives sc t none pos mem m n) (locals : mem'.locals = mem.locals)
    (room : sc.Room t) : Arrives sc t none (pos + 1) mem' m l := by
  have shape : n.SameShape l :=
    { below := returned.below, routine := congrArg (·.routine) returned.top,
      entry := congrArg (·.entry) returned.top, locals := congrArg (·.locals.size) returned.top,
      args := congrArg (·.args.size) returned.top, funcs := returned.funcs }
  constructor
  · refine ⟨⟨shape.runs here.runs, shape.funcs.trans here.funcs, shape.depth.trans here.depth, ?_, ?_,
      returned.outputs⟩, ?_⟩
    · exact fun named _ => returned.globals named
    · intro name o named other
      rw [locals]
      refine (here.locals named other).congr shape (returned.read_of_ne_global fun g same => ?_)
      obtain ⟨-, ⟨i, isVar⟩ | ⟨i, isArg⟩⟩ := localSlot?_kind named
      · exact absurd (isVar.symm.trans same) nofun
      · exact absurd (isArg.symm.trans same) nofun
    · rw [returned.top, ← here.pc]
      rfl
  · refine ⟨here.shape.trans shape, fun i below other => ?_, fun inside g unnamed => ?_⟩
    · refine Eq.trans ?_ (here.temps i below other)
      rcases Scene.temp_eq room below with ⟨s, x, -, slot, -⟩ | ⟨x, -, slot, number⟩ <;> rw [slot]
      · exact returned.read_of_ne_global nofun
      · refine returned.hidden x fun named => ?_
        have := UInt32.lt_iff_toNat_lt.1 named
        omega
    · exact (returned.hidden g unnamed).trans (here.hidden inside g unnamed)

theorem canWrite (dest : Operand) : l.top.canWrite dest = n.top.canWrite dest := by
  rw [returned.top]
  rfl

end Returned

theorem forall₂_imp_of_mem {α β : Type} {R S : α → β → Prop} {xs : List α} {ys : List β}
    (related : List.Forall₂ R xs ys) (imp : ∀ x ∈ xs, ∀ y, R x y → S x y) : List.Forall₂ S xs ys := by
  induction related with
  | nil => exact .nil
  | cons first _ ih =>
    exact .cons (imp _ mem_cons_self _ first)
      (ih fun x member => imp x (mem_cons_of_mem _ member))

theorem sim_callInto {callee : String} {d : Def} {es : List Expr} (situated : Situated allowed sc s)
    (correct : ∀ e ∈ es, (plan (sc.context line) e).Correct allowed sc e.writesEarly (e.eval s))
    (room : sc.Room k'.temps) (placed : Placed sc.body.code pos code)
    (stands : Stands sc none pos mem m) (target : sc.Target dest)
    (known : sc.module.func? callee = some d) (count : es.length = d.params.length)
    (made : callInto (sc.context line) d (parts (sc.context line) es) dest k = .ok (code, k')) :
    Sim allowed sc.module.globals (evalAll s es >>= s.call callee) mem m
      (Leaves sc k.temps (some dest) (pos + code.length) dest m) := by
  obtain ⟨xs, os, operands, rfl⟩ := callInto_ok made
  have le := (makes_readAll (parts_tidy _ es) operands).1.temps_le
  refine (sim_readAll situated correct operands room placed.left stands).bind
    fun vs mem₁ n result here => ?_
  obtain ⟨arrives, holds⟩ := here
  have call := placed.right
  have member := call.members _ mem_cons_self
  have writable := arrives.canWrite member mem_cons_self target
  have values : os.mapM n.read = .ok vs := mapM_eq_ok.2 <| forall₂_imp_of_mem holds
    fun o used v => arrives.read member (mem_cons_of_mem _ (mem_cons_of_mem _ used))
  have found := (length_of_evalAll s result).trans count
  refine (situated.calls known found (arrives.current call) values writable arrives.toMirrors).mono
    fun v mem₂ n' called there => ?_
  obtain ⟨l, returned, rfl⟩ := there
  have locals := situated.keepsLocals callee vs mem₁ v mem₂ called
  have back := returned.arrives arrives locals (room.mono le)
  rw [length_append, ← Nat.add_assoc]
  refine ⟨back.weaken.write target (.inl rfl) v, target.inside, fun _ => Machine.read_write_self ?_⟩
  rw [returned.canWrite]
  exact writable

/-! ## Expressions -/

/-- Only what an evaluation gives matters. -/
theorem Plan.Correct.congr {early : Bool} {x y : Eval Value} {p : Plan}
    (correct : p.Correct allowed sc early x) (same : ∀ mem, y.result mem = x.result mem) :
    p.Correct allowed sc early y where
  value made room placed stands := (correct.value made room placed stands).congr (same _)
  into made room placed stands target drawn :=
    (correct.into made room placed stands target drawn).congr (same _)

theorem holds_name (situated : Situated allowed sc s) {id : String}
    (resolved : (sc.context line).resolve id = .ok o) (stands : Stands sc none pos mem m) :
    Holds sc m o (mem.value (s.isLocal id) id) := by
  rw [situated.isLocal, sc.isLocal_eq]
  rcases resolve_cases resolved with named | ⟨unnamed, g, named, rfl⟩
  · change localSlot? sc.scope id = some o at named
    rw [named]
    exact stands.locals named (Option.some_ne_none _)
  · change localSlot? sc.scope id = none at unnamed
    rw [unnamed]
    exact ⟨nofun, fun _ => stands.globals named (Option.some_ne_none _)⟩

theorem result_truncating (s : Setting) {callee : String} (division : callee = "_div" ∨ callee = "_rem")
    (a b : Expr) (mem : Memory) :
    ((Expr.call callee [a, b]).eval s).result mem =
      (a.eval s >>= fun u => b.eval s >>= fun v =>
        Eval.ofExcept (truncating (callee = "_div") u v)).result mem := by
  have other : ¬(callee = "int" ∨ callee = "_wrap") := by
    rcases division with rfl | rfl <;> decide
  rw [Expr.eval, evalAll, evalAll_singleton]
  simp only [result_bind]
  rcases (a.eval s).result mem with ⟨stop | u, mem₁⟩
  · rfl
  · dsimp only
    rcases (b.eval s).result mem₁ with ⟨stop | v, mem₂⟩
    · rfl
    · change (s.apply callee [u, v]).result mem₂ = _
      rw [Setting.apply, if_neg other, if_pos division]

theorem agrees_truncating (isQuotient : Bool) (u v : Value) :
    Agrees (truncating isQuotient u v) ((if isQuotient then BinaryOp.div else .rem).apply u v) := by
  unfold truncating
  cases isQuotient with
  | true =>
    by_cases zero : v = 0
    · rw [if_pos zero]
      exact ⟨_, rfl, if_pos zero⟩
    · rw [if_neg zero, if_pos rfl]
      by_cases overflow : u = Int64.minValue ∧ v = -1
      · rw [if_pos overflow]
        exact ⟨_, rfl, (if_neg zero).trans (if_pos overflow)⟩
      · rw [if_neg overflow]
        exact (if_neg zero).trans (if_neg overflow)
  | false =>
    by_cases zero : v = 0
    · rw [if_pos zero]
      exact ⟨_, rfl, if_pos zero⟩
    · rw [if_neg zero]
      exact if_neg zero

theorem callPlan_correct (situated : Situated allowed sc s) (callee : String) (args : List Expr)
    (correct : ∀ e ∈ args, (plan (sc.context line) e).Correct allowed sc e.writesEarly (e.eval s)) :
    (callPlan (sc.context line) callee (parts (sc.context line) args)).Correct allowed sc
      (Expr.call callee args).writesEarly ((Expr.call callee args).eval s) := by
  have tidy := tidy_callPlan callee (parts_tidy (sc.context line) args)
  rcases callPlan_cases (sc.context line) callee (parts (sc.context line) args) with
    ⟨construct, same⟩ | ⟨a, pass, single, same⟩ | ⟨a, b, division, pair, same⟩ |
    ⟨d, user, known, count, same⟩ <;> rw [same] at tidy ⊢
  · exact Plan.correct_refused construct
  · match args, single with
    | [e], rfl =>
      have early : (Expr.call callee [e]).writesEarly = e.writesEarly := by
        rw [Expr.writesEarly, pass, Bool.true_and]
      rw [early]
      exact (correct e mem_cons_self).congr (result_passthrough s pass e)
  · match args, pair with
    | [e, e'], rfl =>
      refine Plan.Correct.congr (Plan.correct_computed tidy ?_)
        (result_truncating s division e e')
      intro dest k code k' pos mem m made room placed stands target _
      refine sim_binaryInto situated (correct e mem_cons_self)
        (correct e' (mem_cons_of_mem _ mem_cons_self)) room placed stands target made ?_
      intro u v
      have agrees := agrees_truncating (callee = "_div") u v
      simpa using agrees
  · refine Plan.correct_computed tidy ?_
    intro dest k code k' pos mem m made room placed stands target _
    rw [parts_eq_map, length_map] at count
    have called : (Expr.call callee args).eval s = evalAll s args >>= s.call callee := by
      rw [Expr.eval]
      simp only [builtins, mem_cons, not_mem_nil, or_false, not_or] at user
      refine congrArg _ (funext fun vs => ?_)
      unfold Setting.apply
      rw [if_neg (by tauto), if_neg (by tauto)]
    rw [called]
    exact sim_callInto situated correct room placed stands target known count made

mutual

/-- The plan of an expression computes the value of the expression. -/
theorem plan_correct (situated : Situated allowed sc s) (e : Expr) :
    (plan (sc.context line) e).Correct allowed sc e.writesEarly (e.eval s) := by
  have tidy := plan_tidy (sc.context line) e
  match e with
  | .int v =>
    refine Plan.correct_held fun found _ => ?_
    cases found
    exact ⟨v, rfl, holds_lit sc _ v⟩
  | .name id =>
    exact Plan.correct_held fun resolved stands => ⟨_, rfl, holds_name situated resolved stands⟩
  | .neg e =>
    refine Plan.correct_computed tidy fun made room placed stands target _ => ?_
    obtain ⟨xs, x, operand, rfl⟩ := neg_into_ok made
    refine ((plan_correct situated e).value operand room placed.left stands).bind
      fun v mem' n _ leaves => ?_
    rw [length_append, ← Nat.add_assoc]
    have negated : Agrees (.ok (-v)) (BinaryOp.sub.apply 0 v) :=
      congrArg Except.ok (Int64.zero_sub v)
    exact sim_binary negated placed.right target leaves.toArrives (holds_lit sc n 0) leaves.holds
  | .not e =>
    refine Plan.correct_computed tidy fun made room placed stands target _ => ?_
    obtain ⟨xs, x, operand, rfl⟩ := not_into_ok made
    refine ((plan_correct situated e).value operand room placed.left stands).bind
      fun v mem' n _ leaves => ?_
    have writable := leaves.canWrite (placed.right.members _ mem_cons_self)
      mem_cons_self target
    rw [length_append, ← Nat.add_assoc]
    exact .ok rfl (leaves.reaches_not placed.right target leaves.holds)
      (leaves.toArrives.leaves target writable _)
  | .arith op a b =>
    refine Plan.correct_computed tidy fun made room placed stands target drawn => ?_
    exact sim_arithInto situated (plan_correct situated a) (plan_correct situated b) room placed
      stands target drawn made
  | .compare op a b =>
    refine Plan.correct_computed tidy fun made room placed stands target _ => ?_
    exact sim_compareInto situated (plan_correct situated a) (plan_correct situated b) room placed
      stands target made
  | .connect op a b =>
    by_cases plain : (a.isPlainFlag && b.isPlainFlag) = true
    · rw [plan, if_pos plain] at tidy ⊢
      have free : a.isEffectFree = true ∧ b.isEffectFree = true := by
        simp only [Expr.isPlainFlag, Bool.and_eq_true] at plain
        exact ⟨plain.1.2, plain.2.2⟩
      refine Plan.correct_computed tidy fun made room placed stands target _ => ?_
      refine sim_flagsInto situated (plan_correct situated a) (plan_correct situated b) room placed
        stands target plain ?_
      rw [part, part, free.1, free.2]
      exact made
    · rw [plan, if_neg plain] at tidy ⊢
      refine Plan.correct_computed tidy fun made room placed stands target drawn => ?_
      obtain ⟨j, below, rfl⟩ := drawn (by rw [Expr.writesEarly, Bool.of_not_eq_true plain]; rfl)
      exact sim_shortCircuitInto (plan_correct situated a) (plan_correct situated b) room placed
        stands below made
  | .call callee args => exact callPlan_correct situated callee args (plans_correct situated args)

theorem plans_correct (situated : Situated allowed sc s) (es : List Expr) :
    ∀ e ∈ es, (plan (sc.context line) e).Correct allowed sc e.writesEarly (e.eval s) := by
  match es with
  | [] => exact nofun
  | e :: es =>
    intro e' member
    rcases mem_cons.1 member with same | later
    · rw [same]
      exact plan_correct situated e
    · exact plans_correct situated es e' later

end

end SlotLang.Subset
