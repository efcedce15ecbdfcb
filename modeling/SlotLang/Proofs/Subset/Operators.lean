import SlotLang.Proofs.Subset.Rounding

/-!
# Operands and operators

`Plan.Correct` says that the code of a plan follows an evaluation: as an operand that holds the value,
or into a slot. What is proved here is how operands are read and how the code of a single operator
works. An operand that was read first still holds its value when the others have been evaluated:
temporaries drawn before stay, locals do not change in an expression, and globals are copied if a
later operand has effects.
-/

open List

namespace SlotLang.Subset

variable {j : Nat} {op : BinaryOp} {u : Value} {x : Operand}

/-- What a call has done by the time its result is stored. -/
structure Returned (sc : Scene) (mem : Memory) (m n : Machine) : Prop where
  top : n.top = m.next.top
  below : n.below = m.below
  funcs : n.env.funcs = m.env.funcs
  hidden : ∀ g, ¬g < sc.module.globals.next → n.read (.global g) = m.read (.global g)
  globals : ∀ {name g}, sc.module.globals.slot? name = some g →
    n.read (.global g) = .ok (mem.globals name)
  outputs : n.outputs.toList = mem.output

/-- The setting of evaluations in a scene: names are local alike, and the machine follows calls. -/
structure Situated (allowed : Limits → Prop) (sc : Scene) (s : Setting) : Prop where
  isLocal : s.isLocal = sc.isLocal
  keepsLocals : s.KeepsLocals
  calls : ∀ {callee d dest operands vs line mem m}, sc.module.func? callee = some d →
    vs.length = d.params.length →
    m.top.current? = some ⟨.call, dest :: .ofIndex d.index :: operands, line⟩ →
    operands.mapM m.read = .ok vs → m.top.canWrite dest = true → Mirrors sc none mem m →
    Sim allowed sc.module.globals (s.call callee vs) mem m fun v mem' n =>
      ∃ l, Returned sc mem' m l ∧ n = l.write dest v

/-- A machine has arrived with a value in a slot. -/
structure Leaves (sc : Scene) (temps : Nat) (except : Option Operand) (pos : Nat) (o : Operand)
    (m : Machine) (v : Value) (mem : Memory) (n : Machine) : Prop extends
    Arrives sc temps except pos mem m n where
  holds : Holds sc n o v

/-- The code of a plan follows an evaluation. A plan that writes its destination early does so if
the destination is a temporary drawn before. -/
structure Plan.Correct (allowed : Limits → Prop) (sc : Scene) (early : Bool) (x : Eval Value)
    (p : Plan) : Prop where
  value {k k' : Counters} {code : Code} {o : Operand} {pos : Nat} {mem : Memory} {m : Machine}
    (made : p.value k = .ok ((code, o), k')) (room : sc.Room k'.temps)
    (placed : Placed sc.body.code pos code) (stands : Stands sc none pos mem m) :
    Sim allowed sc.module.globals x mem m (Leaves sc k.temps none (pos + code.length) o m)
  into {k k' : Counters} {code : Code} {dest : Operand} {pos : Nat} {mem : Memory} {m : Machine}
    (made : p.into dest k = .ok (code, k')) (room : sc.Room k'.temps)
    (placed : Placed sc.body.code pos code) (stands : Stands sc none pos mem m)
    (target : sc.Target dest) (drawn : early = true → ∃ j < k.temps, dest = sc.temp j) :
    Sim allowed sc.module.globals x mem m
      (Leaves sc k.temps (some dest) (pos + code.length) dest m)

variable {allowed : Limits → Prop} {sc : Scene} {s : Setting} {line pos t t' : Nat}
  {except : Option Operand} {k k' : Counters} {code xs : Code} {o dest : Operand} {v w : Value}
  {mem mem' : Memory} {m n l : Machine}

/-! ## Single instructions -/

theorem target_temp (sc : Scene) (j : Nat) : sc.Target (sc.temp j) :=
  .inl ⟨j, rfl⟩

/-- The value goes to the destination with the last instruction. -/
theorem Arrives.leaves (arrives : Arrives sc t none pos mem m n) (target : sc.Target dest)
    (writable : n.top.canWrite dest = true) (v : Value) :
    Leaves sc t (some dest) (pos + 1) dest m v mem (n.next.write dest v) where
  toArrives := arrives.next.weaken.write target (.inl rfl) v
  holds := holds_write target writable

/-- A temporary drawn now need not be kept by what comes before. -/
theorem Leaves.of_temp (leaves : Leaves sc t' (some (sc.temp j)) pos (sc.temp j) m v mem n)
    (room : sc.Room t) (below : j < t) (fewer : t' ≥ j) :
    Leaves sc j none pos (sc.temp j) m v mem n where
  toArrives := (leaves.toArrives.fewer fewer).of_temp room below (Nat.le_refl j)
  holds := leaves.holds

theorem Leaves.pass_label {label : UInt32} (leaves : Leaves sc t except pos o m v mem n)
    (placed : Placed sc.body.code pos ((sc.context line).label label :: xs)) :
    ∃ l, Reaches (Machine.outcome allowed) n l ∧ Leaves sc t except (pos + 1) o m v mem l :=
  ⟨_, leaves.reaches_label placed, leaves.next,
    leaves.holds.congr (.goto _ _) (Machine.read_goto _ _ _)⟩

namespace Plan

variable {early : Bool} {x : Eval Value}

theorem correct_held {operand : Except Error Operand}
    (reads : ∀ {o pos mem m}, operand = .ok o → Stands sc none pos mem m →
      ∃ v, x.result mem = (.ok v, mem) ∧ Holds sc m o v) :
    (held (sc.context line) operand).Correct allowed sc early x where
  value made _ _ stands := by
    obtain ⟨found, rfl, rfl⟩ := held_value_ok made
    obtain ⟨v, result, holds⟩ := reads found stands
    exact .ok result (.refl _ _) ⟨stands.arrives _, holds⟩
  into made _ placed stands target _ := by
    obtain ⟨o, found, rfl, rfl⟩ := held_into_ok made
    obtain ⟨v, result, holds⟩ := reads found stands
    have writable := stands.canWrite (placed.members _ mem_cons_self) mem_cons_self target
    exact .ok result (stands.reaches_copy placed target holds)
      ((stands.arrives _).leaves target writable v)

theorem correct_computed {into : Operand → Lowering Code}
    (tidy : (computed (sc.context line) into).Tidy (sc.context line))
    (correct : ∀ {dest k code k' pos mem m}, into dest k = .ok (code, k') → sc.Room k'.temps →
      Placed sc.body.code pos code → Stands sc none pos mem m → sc.Target dest →
      (early = true → ∃ j < k.temps, dest = sc.temp j) →
      Sim allowed sc.module.globals x mem m
        (Leaves sc k.temps (some dest) (pos + code.length) dest m)) :
    (computed (sc.context line) into).Correct allowed sc early x where
  value {k k' code o pos mem m} made room placed stands := by
    obtain ⟨rfl, inner⟩ := computed_value_ok made
    have le : k.temps + 1 ≤ k'.temps := (tidy.into (writable_temp _ _) inner).1.temps_le
    refine (correct inner room placed stands (target_temp sc k.temps)
      fun _ => ⟨k.temps, Nat.lt_succ_self _, rfl⟩).mono fun v mem' n _ leaves => ?_
    exact leaves.of_temp room le (Nat.le_succ _)
  into := correct

theorem correct_refused (construct : Construct) :
    (refused (sc.context line) construct).Correct allowed sc early x where
  value made := absurd made not_refused_value
  into made := absurd made not_refused_into

end Plan

/-! ## Operands -/

theorem isNamedGlobal_temp (line : Nat) (room : sc.Room t) (below : j < t) :
    (sc.context line).isNamedGlobal (sc.temp j) = false := by
  rcases Scene.temp_eq room below with ⟨s, n, -, slot, -⟩ | ⟨n, -, slot, number⟩ <;> rw [slot]
  · rfl
  · refine decide_eq_false fun named => ?_
    have := UInt32.lt_iff_toNat_lt.1 named
    change n.toNat < sc.module.globals.next.toNat at this
    omega

/-- An operand holds its value until it is used. -/
theorem Holds.lasts {pos' : Nat} (holds : Holds sc n o v)
    (source : Source (sc.context line) t t' o) (stands : Stands sc none pos mem n)
    (arrives : Arrives sc t' none pos' mem' n l) (locals : mem'.locals = mem.locals)
    (globals : (sc.context line).isNamedGlobal o = true → mem'.globals = mem.globals) :
    Holds sc l o v := by
  cases source with
  | lit w => exact holds.congr arrives.shape rfl
  | temp above below => exact holds.congr arrives.shape (arrives.temps _ below (Option.some_ne_none _))
  | name resolved =>
    rcases resolve_cases resolved with named | ⟨-, g, named, rfl⟩
    · refine ⟨holds.inside, fun exists_ => ?_⟩
      have before : ∀ j, o = .var j → j.toNat < n.top.locals.size := fun j isVar =>
        arrives.shape.locals ▸ exists_ j isVar
      have value := holds.value before
      rw [(stands.locals named (Option.some_ne_none _)).value before] at value
      rw [(arrives.locals named (Option.some_ne_none _)).value exists_, locals, value]
    · have same := globals (decide_eq_true (sc.global_lt named))
      refine holds.congr arrives.shape ?_
      rw [arrives.globals named (Option.some_ne_none _), same,
        stands.globals named (Option.some_ne_none _)]

section Operands

variable {e a b : Expr}

theorem sim_read {later : List Part}
    (correct : (plan (sc.context line) e).Correct allowed sc e.writesEarly (e.eval s))
    (made : (part (sc.context line) e).read (sc.context line) later k = .ok ((code, o), k'))
    (room : sc.Room k'.temps) (placed : Placed sc.body.code pos code)
    (stands : Stands sc none pos mem m) :
    Sim allowed sc.module.globals (e.eval s) mem m fun v mem' n =>
      Leaves sc k.temps none (pos + code.length) o m v mem' n ∧
        ((sc.context line).isNamedGlobal o = true → ∀ q ∈ later, q.isEffectFree = true) := by
  rcases read_ok made with ⟨xs, x, k₁, value, rfl, rfl, rfl⟩ | ⟨value, kept⟩
  · -- The operand is copied to a fresh temporary.
    have le : k.temps ≤ k₁.temps := ((plan_tidy _ e).value value).1.temps_le
    refine (correct.value value (room.mono (Nat.le_succ _)) placed.left stands).after
      fun v mem' n _ leaves => ?_
    have copy := placed.right
    have target := target_temp sc k₁.temps
    have writable := leaves.canWrite (copy.members _ mem_cons_self) mem_cons_self target
    refine ⟨_, leaves.reaches_copy copy target leaves.holds, ⟨?_, holds_write target writable⟩,
      fun named => ?_⟩
    · rw [length_append, ← Nat.add_assoc]
      exact leaves.next.write target (.inr ⟨k₁.temps, le, room, rfl⟩) v
    · have unnamed := isNamedGlobal_temp line room (Nat.lt_succ_self k₁.temps)
      exact absurd (unnamed.symm.trans named) Bool.false_ne_true
  · exact (correct.value value room placed stands).mono fun v mem' n _ leaves => ⟨leaves, kept⟩

theorem sim_readBoth {β : Type} {f : Value → Value → Eval β} {x y : Operand}
    {post : β → Memory → Machine → Prop} (situated : Situated allowed sc s)
    (left : (plan (sc.context line) a).Correct allowed sc a.writesEarly (a.eval s))
    (right : (plan (sc.context line) b).Correct allowed sc b.writesEarly (b.eval s))
    (made : readBoth (sc.context line) (part (sc.context line) a) (part (sc.context line) b) k =
      .ok ((code, x, y), k'))
    (room : sc.Room k'.temps) (placed : Placed sc.body.code pos code)
    (stands : Stands sc none pos mem m)
    (rest : ∀ u v mem' n, Arrives sc k.temps none (pos + code.length) mem' m n → Holds sc n x u →
      Holds sc n y v → Sim allowed sc.module.globals (f u v) mem' n post) :
    Sim allowed sc.module.globals (a.eval s >>= fun u => b.eval s >>= fun v => f u v) mem m post := by
  obtain ⟨xs, k₁, ys, first, second, rfl⟩ := readBoth_ok made
  obtain ⟨firstDraws, source⟩ := makes_read (plan_tidy _ a) first
  obtain ⟨secondDraws, -⟩ := makes_read (plan_tidy _ b) second
  have firstRoom := room.mono secondDraws.temps_le
  refine (sim_read left first firstRoom placed.left stands).bind fun u mem₁ n₁ _ here => ?_
  obtain ⟨leaves, kept⟩ := here
  refine (sim_read right second room placed.right leaves.toStands).bind
    fun v mem₂ n₂ result there => ?_
  obtain ⟨leaves', -⟩ := there
  refine rest u v mem₂ n₂ ?_ ?_ leaves'.holds
  · rw [length_append, ← Nat.add_assoc]
    exact leaves.toArrives.trans leaves'.toArrives firstDraws.temps_le
  · have locals := keepsLocals_eval situated.keepsLocals b mem₁ v mem₂ result
    refine leaves.holds.lasts source leaves.toStands leaves'.toArrives locals fun named => ?_
    -- The second operand has no effects, since the first one was not copied.
    have free := kept named (part (sc.context line) b) mem_cons_self
    obtain ⟨w, unchanged⟩ := result_of_isEffectFree s b free mem₁
    rw [result] at unchanged
    cases unchanged
    rfl

theorem parts_eq_map (c : Context) (es : List Expr) : parts c es = es.map (part c) := by
  induction es with
  | nil => rfl
  | cons e es ih => rw [parts, ih]; rfl

theorem sim_readAll {es : List Expr} {os : List Operand} (situated : Situated allowed sc s)
    (correct : ∀ e ∈ es, (plan (sc.context line) e).Correct allowed sc e.writesEarly (e.eval s))
    (made : readAll (sc.context line) (parts (sc.context line) es) k = .ok ((code, os), k'))
    (room : sc.Room k'.temps) (placed : Placed sc.body.code pos code)
    (stands : Stands sc none pos mem m) :
    Sim allowed sc.module.globals (evalAll s es) mem m fun vs mem' n =>
      Arrives sc k.temps none (pos + code.length) mem' m n ∧ List.Forall₂ (Holds sc n) os vs := by
  induction es generalizing k code os pos mem m with
  | nil =>
    obtain ⟨rfl, rfl, rfl⟩ := readAll_nil_ok made
    exact .pure ⟨stands.arrives _, .nil⟩
  | cons e es ih =>
    obtain ⟨xs, x, k₁, ys, rest, first, others, rfl, rfl⟩ := readAll_cons_ok made
    obtain ⟨firstDraws, source⟩ := makes_read (plan_tidy _ e) first
    have le := (makes_readAll (parts_tidy _ es) others).1.temps_le
    refine (sim_read (correct e mem_cons_self) first (room.mono le) placed.left stands).bind
      fun u mem₁ n₁ _ here => ?_
    obtain ⟨leaves, kept⟩ := here
    refine (ih (fun e' member => correct e' (mem_cons_of_mem _ member)) others placed.right
      leaves.toStands).bind fun vs mem₂ n₂ result there => ?_
    obtain ⟨arrives, holds⟩ := there
    refine .pure ⟨?_, .cons ?_ holds⟩
    · rw [length_append, ← Nat.add_assoc]
      exact leaves.toArrives.trans arrives firstDraws.temps_le
    · have locals := keepsLocals_evalAll situated.keepsLocals es mem₁ vs mem₂ result
      refine leaves.holds.lasts source leaves.toStands arrives locals fun named => ?_
      have free : ∀ e' ∈ es, e'.isEffectFree = true := fun e' member =>
        kept named (part _ e') (by rw [parts_eq_map]; exact mem_map_of_mem member)
      obtain ⟨ws, unchanged⟩ := evalAll_of_isEffectFree s free mem₁
      rw [result] at unchanged
      cases unchanged
      rfl

end Operands

/-! ## Operators -/

/-- An operation of the machine gives what the reference semantics gives. -/
def Agrees (meant : Except Stop Value) (done : Except Cause Value) : Prop :=
  match meant with
  | .ok v => done = .ok v
  | .error stop => ∃ cause, stop.cause? = some cause ∧ done = .error cause

theorem apply_opposite {op : Relation} {opposite : BinaryOp} (known : op.opposite? = some opposite)
    (u v : Value) : opposite.apply u v = .ok (.ofBool !op.holds u v) := by
  cases op <;> cases known
  · exact congrArg (fun b => Except.ok (Value.ofBool b)) (by simp [Relation.holds, ← decide_not])
  · exact congrArg (fun b => Except.ok (Value.ofBool b)) (by simp [Relation.holds, ← decide_not])
  · exact congrArg (fun b => Except.ok (Value.ofBool b)) (by simp [Relation.holds])

theorem sim_fails {y : Operand} {meant : Except Stop Value} {stop : Stop} {cause : Cause}
    {post : Value → Memory → Machine → Prop}
    (placed : Placed sc.body.code pos ((sc.context line).ins (.binary op) [dest, x, y] :: xs))
    (stands : Stands sc none pos mem n) (left : Holds sc n x u) (right : Holds sc n y v)
    (stops : meant = .error stop) (known : stop.cause? = some cause)
    (result : op.apply u v = .error cause) :
    Sim allowed sc.module.globals (Eval.ofExcept meant) mem n post := by
  subst stops
  refine .error rfl fun cause' known' => ?_
  cases known.symm.trans known'
  exact stands.fails_binary placed left right result

theorem sim_binary {y : Operand} {meant : Except Stop Value} (agrees : Agrees meant (op.apply u v))
    (placed : Placed sc.body.code pos ((sc.context line).ins (.binary op) [dest, x, y] :: xs))
    (target : sc.Target dest) (arrives : Arrives sc t none pos mem m n) (left : Holds sc n x u)
    (right : Holds sc n y v) : Sim allowed sc.module.globals (Eval.ofExcept meant) mem n
      (Leaves sc t (some dest) (pos + 1) dest m) := by
  have member := placed.members _ mem_cons_self
  cases meant with
  | ok w =>
    have writable := arrives.canWrite member mem_cons_self target
    exact .ok rfl (arrives.reaches_binary placed target left right agrees)
      (arrives.leaves target writable w)
  | error stop =>
    obtain ⟨cause, known, result⟩ := agrees
    exact sim_fails placed arrives.toStands left right rfl known result

/-- An instruction whose result goes to a temporary drawn for it. -/
theorem reaches_scratch (allowed : Limits → Prop) {y : Operand}
    (arrives : Arrives sc t except pos mem m n)
    (placed : Placed sc.body.code pos ((sc.context line).ins (.binary op) [sc.temp j, x, y] :: xs))
    (later : t ≤ j) (room : sc.Room (j + 1)) (left : Holds sc n x u) (right : Holds sc n y w)
    (result : op.apply u w = .ok v) :
    ∃ n', Reaches (Machine.outcome allowed) n n' ∧ Arrives sc t except (pos + 1) mem m n' ∧
      Holds sc n' (sc.temp j) v := by
  have target := target_temp sc j
  have writable := arrives.canWrite (placed.members _ mem_cons_self) mem_cons_self target
  exact ⟨_, arrives.reaches_binary placed target left right result,
    arrives.next.write target (.inr ⟨j, later, room, rfl⟩) v, holds_write target writable⟩

/-- Operands are not temporaries drawn before or after them. -/
theorem Source.ne_temp {r : Nat} (source : Source (sc.context line) t t' o) (room : sc.Room r)
    (le : t' ≤ r) (below : j < r) (outside : j < t ∨ t' ≤ j) : o ≠ sc.temp j := by
  rintro rfl
  generalize slot : sc.temp j = o at source
  cases source with
  | lit v =>
    rcases (target_temp sc j).cases with ⟨n, same, -⟩ | ⟨n, same, -⟩ | ⟨n, same, -⟩ <;>
      exact absurd (same.symm.trans slot) nofun
  | name resolved =>
    rcases resolve_cases resolved with named | ⟨-, g, named, rfl⟩
    · exact Scene.temp_ne_local room below named slot
    · exact Scene.temp_ne_global room below named slot
  | temp above under =>
    have := Scene.temp_inj room below (Nat.lt_of_lt_of_le under le) slot
    omega

/-! ## Rounding down -/

section Floor

variable {y : Operand} {q : Nat} {done : UInt32} {is : List Nat}

theorem nodup_temps {r : Nat} (room : sc.Room r) (below : ∀ i ∈ is, i < r) (nodup : is.Nodup) :
    (is.map sc.temp).Nodup :=
  nodup.map_on fun i first k second => Scene.temp_inj room (below i first) (below k second)

theorem Source.not_mem_temps {r : Nat} (source : Source (sc.context line) t t' o) (room : sc.Room r)
    (le : t' ≤ r) (outside : ∀ i ∈ is, i < r ∧ (i < t ∨ t' ≤ i)) : o ∉ is.map sc.temp := by
  intro member
  obtain ⟨i, among, same⟩ := mem_map.1 member
  exact source.ne_temp room le (outside i among).1 (outside i among).2 same.symm

theorem Mirrors.canWrite_temps (mirrors : Mirrors sc except mem m) (placed : Placed sc.body.code pos xs)
    (used : ∀ i ∈ is, Uses xs (sc.temp i)) : ∀ o ∈ is.map sc.temp, m.top.canWrite o = true := by
  intro o member
  obtain ⟨i, among, rfl⟩ := mem_map.1 member
  obtain ⟨ins, here, operand⟩ := used i among
  exact mirrors.canWrite (placed.members ins here) operand (target_temp sc i)

/-- Code that has changed its destination and temporaries drawn for it leaves what it computed. -/
theorem Arrives.leaves_of_passes {bound pos' : Nat} (arrives : Arrives sc t none pos mem m n)
    (is : List Nat) (passes : Passes ((j :: is).map sc.temp) bound n pos' l)
    (free : ∀ i ∈ is, t ≤ i ∧ sc.Room (i + 1)) (value : l.read (sc.temp j) = .ok v) :
    Leaves sc t (some (sc.temp j)) pos' (sc.temp j) m v mem l where
  toArrives := arrives.weaken.changed passes.toChanges passes.pc fun o member => by
    obtain ⟨i, among, rfl⟩ := mem_map.1 member
    refine ⟨target_temp sc i, ?_⟩
    rcases mem_cons.1 among with rfl | other
    · exact .inl rfl
    · exact .inr ⟨i, (free i other).1, (free i other).2, rfl⟩
  holds := ⟨(target_temp sc j).inside, fun _ => value⟩

variable (arrives : Arrives sc t none pos mem m n) (later : t ≤ q) (drawn : j < t)
  (ySource : Source (sc.context line) t q y) (left : Holds sc n x u) (right : Holds sc n y v)

include arrives later drawn ySource left right

theorem sim_floorDiv (room : sc.Room (q + 3)) (xSource : Source (sc.context line) t q x)
    (placed : Placed sc.body.code pos ((sc.context line).floorDiv (sc.temp j) x y (sc.temp q)
      (sc.temp (q + 1)) (sc.temp (q + 2)) done)) :
    Sim allowed sc.module.globals (Eval.ofExcept (Arith.floorDiv.apply u v)) mem n
      (Leaves sc t (some (sc.temp j)) (pos + 10) (sc.temp j) m) := by
  by_cases v0 : v = 0
  · exact sim_fails placed arrives.toStands left right (if_pos v0) rfl (if_pos v0)
  by_cases overflow : u = Int64.minValue ∧ v = -1
  · exact sim_fails placed arrives.toStands left right ((if_neg v0).trans (if_pos overflow)) rfl
      ((if_neg v0).trans (if_pos overflow))
  have meant : Arith.floorDiv.apply u v = .ok (if roundsDown (u % v) v then u / v - 1 else u / v) := by
    rw [← ofInt_fdiv v0]
    exact (if_neg v0).trans (if_neg overflow)
  have member := placed.members _ mem_cons_self
  have left := arrives.read member (by simp [Context.ins]) left
  have right := arrives.read member (by simp [Context.ins]) right
  have label : labelPosition? sc.body.code done = some (pos + 9) := by
    rw [floorDiv_eq] at placed
    exact placed.right.label sc.labels
  have outside : ∀ i ∈ [j, q, q + 1, q + 2], i < q + 3 ∧ (i < t ∨ q ≤ i) := by simp; omega
  have distinct := nodup_temps room (fun i member => (outside i member).1) (by simp; omega)
  have writable : ∀ o ∈ [j, q, q + 1, q + 2].map sc.temp, n.top.canWrite o = true :=
    arrives.canWrite_temps placed (by simp [Uses, Context.signCheck, Context.ins, floorDiv_eq])
  obtain ⟨l, passes, value⟩ := passes_floorDiv arrives.runs.routine arrives.pc left right v0 overflow
    placed label distinct (xSource.not_mem_temps room (by omega) outside)
    (ySource.not_mem_temps room (by omega) outside) writable
  obtain ⟨k, -, leads⟩ := passes.leads
  refine .ok (congrArg (·, mem) meant) leads.reaches
    (arrives.leaves_of_passes [q, q + 1, q + 2] passes ?_ value)
  intro i member
  simp at member
  exact ⟨by omega, room.mono (by omega)⟩

theorem sim_floorMod (room : sc.Room (q + 2))
    (placed : Placed sc.body.code pos ((sc.context line).floorMod (sc.temp j) x y (sc.temp q)
      (sc.temp (q + 1)) done)) :
    Sim allowed sc.module.globals (Eval.ofExcept (Arith.floorMod.apply u v)) mem n
      (Leaves sc t (some (sc.temp j)) (pos + 9) (sc.temp j) m) := by
  by_cases v0 : v = 0
  · exact sim_fails placed arrives.toStands left right (if_pos v0) rfl (if_pos v0)
  have meant : Arith.floorMod.apply u v = .ok (if roundsDown (u % v) v then u % v + v else u % v) := by
    rw [← ofInt_fmod v0]
    exact if_neg v0
  have member := placed.members _ mem_cons_self
  have left := arrives.read member (by simp [Context.ins]) left
  have right := arrives.read member (by simp [Context.ins]) right
  have label : labelPosition? sc.body.code done = some (pos + 8) := by
    rw [floorMod_eq] at placed
    exact placed.right.label sc.labels
  have outside : ∀ i ∈ [j, q, q + 1], i < q + 2 ∧ (i < t ∨ q ≤ i) := by simp; omega
  have distinct := nodup_temps room (fun i member => (outside i member).1) (by simp; omega)
  have writable : ∀ o ∈ [j, q, q + 1].map sc.temp, n.top.canWrite o = true :=
    arrives.canWrite_temps placed (by simp [Uses, Context.signCheck, Context.ins, floorMod_eq])
  obtain ⟨l, passes, value⟩ := passes_floorMod arrives.runs.routine arrives.pc left right v0
    placed label distinct (ySource.not_mem_temps room (by omega) outside) writable
  obtain ⟨k, -, leads⟩ := passes.leads
  refine .ok (congrArg (·, mem) meant) leads.reaches
    (arrives.leaves_of_passes [q, q + 1] passes ?_ value)
  intro i member
  simp at member
  exact ⟨by omega, room.mono (by omega)⟩

end Floor

end SlotLang.Subset
