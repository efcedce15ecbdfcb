import SlotLang.Proofs.Subset.Programs
import SlotLang.Subset.Source

/-!
# What connectives evaluate

Nothing is assumed here of the values of globals: some may have none. Code for an expression without
effects is `Quiet`: it walks to its end by plain instructions, which neither print nor call, and
changes nothing but temporaries and its destination, or it stops at a name without a value. From this
it follows what a connective does whose first operand decides it.
-/

open List

namespace SlotLang.Subset

/-! ## Plain steps -/

/-- A machine executes some instructions on the way to another one, whatever the limits are. -/
inductive Executes : List Instruction → Machine → Machine → Prop where
  | done (m : Machine) : Executes [] m m
  | step {i : Instruction} {e : Effect} {trace : List Instruction} {m n l : Machine}
    (current : m.top.current? = some i) (does : ∀ limits, m.effect limits i = .ok e)
    (next : m.perform e = .running n) (rest : Executes trace n l) : Executes (i :: trace) m l

/-- An instruction that neither prints nor enters or leaves a function. -/
def IsPlain (i : Instruction) : Prop :=
  i.opcode ≠ .output ∧ i.opcode ≠ .call ∧ i.opcode ≠ .ret

/-- A machine comes to another moment of its activation by plain instructions: no more has been
printed, only some slots have changed, and slots with values still have values. -/
structure Walks (trace : List Instruction) (changed : Operand → Prop) (m n : Machine) : Prop where
  executes : Executes trace m n
  plain : ∀ i ∈ trace, IsPlain i
  shape : m.SameShape n
  outputs : n.outputs = m.outputs
  keeps : ∀ o, ¬ changed o → n.read o = m.read o
  values : ∀ o v, m.read o = .ok v → ∃ w, n.read o = .ok w

/-- A machine stands at a position of a scene, whatever its slots hold. -/
structure Faces (sc : Scene) (pos : Nat) (m : Machine) : Prop where
  runs : m.top.Runs sc.body
  pc : m.top.pc = pos

/-- A machine walks to an instruction that fails for want of a global, which has no value and one of
some names. -/
def Misses (sc : Scene) (names : List String) (changed : Operand → Prop) (m : Machine) : Prop :=
  ∃ name ∈ names, ∃ g, sc.module.globals.slot? name = some g ∧ m.env.global? g = none ∧
    ∃ n trace i, Walks trace changed m n ∧ n.top.current? = some i ∧
      ∀ limits, n.effect limits i = .error ⟨.undefinedGlobal g, i.line⟩

/-- A machine walks to a position and satisfies a condition there, or stops at a name without a
value. -/
def Quiet (sc : Scene) (names : List String) (changed : Operand → Prop) (pos : Nat) (m : Machine)
    (post : Machine → Prop) : Prop :=
  (∃ n trace, Walks trace changed m n ∧ Faces sc pos n ∧ post n) ∨ Misses sc names changed m

variable {sc : Scene} {names : List String} {changed changed' : Operand → Prop} {pos pos' : Nat}
  {l m n : Machine} {i : Instruction} {xs ys : List Instruction} {dest o a b : Operand} {v : Value}

theorem isPlain_ins {c : Context} {op : Opcode} {operands : List Operand}
    (plain : op ≠ .output ∧ op ≠ .call ∧ op ≠ .ret) : IsPlain (c.ins op operands) :=
  plain

theorem Executes.append (first : Executes xs l m) (second : Executes ys m n) :
    Executes (xs ++ ys) l n := by
  induction first with
  | done => exact second
  | step current does next _ ih => exact .step current does next (ih second)

theorem executes_does {e : Effect} (current : m.top.current? = some i)
    (does : ∀ limits, Machine.Does limits m i e) (next : m.perform e = .running n) :
    Executes [i] m n :=
  .step current (fun limits => (does limits).effect) next (.done n)

namespace Walks

theorem refl (changed : Operand → Prop) (m : Machine) : Walks [] changed m m :=
  ⟨.done m, nofun, .refl m, rfl, fun _ _ => rfl, fun _ v value => ⟨v, value⟩⟩

theorem trans (first : Walks xs changed l m) (second : Walks ys changed m n) :
    Walks (xs ++ ys) changed l n where
  executes := first.executes.append second.executes
  plain := forall_mem_append.2 ⟨first.plain, second.plain⟩
  shape := first.shape.trans second.shape
  outputs := second.outputs.trans first.outputs
  keeps o other := (second.keeps o other).trans (first.keeps o other)
  values o v value := by
    obtain ⟨w, value⟩ := first.values o v value
    exact second.values o w value

theorem mono (walks : Walks xs changed m n) (more : ∀ o, changed o → changed' o) :
    Walks xs changed' m n :=
  { walks with keeps := fun o other => walks.keeps o (mt (more o) other) }

theorem goto {e : Effect} (current : m.top.current? = some i) (plain : IsPlain i)
    (does : ∀ limits, Machine.Does limits m i e) (next : m.perform e = .running (m.goto pos)) :
    Walks [i] changed m (m.goto pos) where
  executes := executes_does current does next
  plain := forall_mem_singleton.2 plain
  shape := .goto m pos
  outputs := rfl
  keeps o _ := Machine.read_goto m pos o
  values o v value := ⟨v, (Machine.read_goto m pos o).trans value⟩

theorem write (current : m.top.current? = some i) (plain : IsPlain i)
    (does : ∀ limits, Machine.Does limits m i (.write dest v))
    (writable : m.top.canWrite dest = true) (may : changed dest) :
    Walks [i] changed m (m.next.write dest v) where
  executes := executes_does current does rfl
  plain := forall_mem_singleton.2 plain
  shape := (Machine.SameShape.goto m _).trans (.write _ _ _)
  outputs := Machine.write_outputs _ _ _
  keeps o other := by
    have apart : o ≠ dest := fun same => other (same ▸ may)
    exact (Machine.read_write_of_ne apart).trans (Machine.read_goto m _ o)
  values o w value := by
    by_cases same : o = dest
    · subst same
      exact ⟨v, Machine.read_write_self (m := m.next) writable⟩
    · exact ⟨w, (Machine.read_write_of_ne same).trans ((Machine.read_goto m _ o).trans value)⟩

end Walks

theorem Misses.before (walks : Walks xs changed m n) (misses : Misses sc names changed n) :
    Misses sc names changed m := by
  obtain ⟨name, member, g, slot, undefined, n', trace, i, onward, stops⟩ := misses
  refine ⟨name, member, g, slot, ?_, n', _, i, walks.trans onward, stops⟩
  cases before : m.env.global? g with
  | none => rfl
  | some v =>
    obtain ⟨w, value⟩ := walks.values (.global g) v (elim_eq_ok.2 before)
    cases undefined.symm.trans (elim_eq_ok.1 value)

namespace Quiet

variable {post post' : Machine → Prop}

theorem pure (faces : Faces sc pos m) (holds : post m) : Quiet sc names changed pos m post :=
  .inl ⟨m, _, .refl changed m, faces, holds⟩

theorem bind (first : Quiet sc names changed pos m post)
    (second : ∀ n, Faces sc pos n → post n → Quiet sc names changed pos' n post') :
    Quiet sc names changed pos' m post' := by
  rcases first with ⟨n, xs, walks, faces, holds⟩ | misses
  · rcases second n faces holds with ⟨l, ys, onward, there, last⟩ | misses
    · exact .inl ⟨l, _, walks.trans onward, there, last⟩
    · exact .inr (misses.before walks)
  · exact .inr misses

theorem mono (quiet : Quiet sc names changed pos m post) (more : ∀ o, changed o → changed' o)
    (weaker : ∀ n trace, Walks trace changed m n → post n → post' n) :
    Quiet sc names changed' pos m post' := by
  rcases quiet with ⟨n, xs, walks, faces, holds⟩ |
    ⟨name, member, g, slot, undefined, n, xs, i, walks, stops⟩
  · exact .inl ⟨n, xs, walks.mono more, faces, weaker n xs walks holds⟩
  · exact .inr ⟨name, member, g, slot, undefined, n, xs, i, walks.mono more, stops⟩

theorem widen (quiet : Quiet sc names changed pos m post) (more : ∀ o, changed o → changed' o) :
    Quiet sc names changed' pos m post :=
  quiet.mono more fun _ _ _ => id

theorem weaken (quiet : Quiet sc names changed pos m post) (weaker : ∀ n, post n → post' n) :
    Quiet sc names changed pos m post' :=
  quiet.mono (fun _ => id) fun n _ _ => weaker n

end Quiet

/-! ## Instructions -/

/-- What code finds in an operand: a value, or none if it is a global with one of some names. -/
def Given (sc : Scene) (names : List String) (m : Machine) (o : Operand) : Prop :=
  ∀ i ∈ sc.body.code, o ∈ i.operands → (∃ v, m.read o = .ok v) ∨
    ∃ name ∈ names, ∃ g, sc.module.globals.slot? name = some g ∧ o = .global g ∧
      m.env.global? g = none

theorem given_of_read (value : m.read o = .ok v) : Given sc names m o :=
  fun _ _ _ => .inl ⟨v, value⟩

theorem Given.walks (given : Given sc names m o) (walks : Walks xs changed m n) :
    Given sc names n o := by
  intro i member used
  rcases given i member used with ⟨v, value⟩ | ⟨name, known, g, slot, rfl, -⟩
  · exact .inl (walks.values o v value)
  · cases after : n.env.global? g with
    | some v => exact .inl ⟨v, elim_eq_ok.2 after⟩
    | none => exact .inr ⟨name, known, g, slot, rfl, after⟩

/-- An operand of an instruction has a value, or reading it fails. -/
theorem Given.read (given : Given sc names m o) (member : i ∈ sc.body.code) (used : o ∈ i.operands) :
    (∃ v, m.read o = .ok v) ∨ ∃ name ∈ names, ∃ g, sc.module.globals.slot? name = some g ∧
      m.env.global? g = none ∧ m.read o = .error (.undefinedGlobal g) := by
  rcases given i member used with value | ⟨name, known, g, slot, rfl, missing⟩
  · exact .inl value
  · exact .inr ⟨name, known, g, slot, missing, elim_eq_error.2 ⟨missing, rfl⟩⟩

/-- A name is read from a slot of the activation or from a global. -/
theorem given_name {line : Nat} {id : String} (runs : m.top.Runs sc.body)
    (resolved : (sc.context line).resolve id = .ok o) (named : id ∈ names) :
    Given sc names m o := by
  intro i member used
  rcases resolve_cases resolved with named | ⟨-, g, slot, rfl⟩
  · obtain ⟨inside, ⟨n, rfl⟩ | ⟨n, rfl⟩⟩ := localSlot?_kind named
    · have bound : n.toNat < m.top.locals.size := runs.locals ▸ sc.var_count inside i member n used
      exact .inl ⟨_, elim_eq_ok.2 (Array.getElem?_eq_getElem bound)⟩
    · have bound : n.toNat < m.top.args.size := runs.args ▸ sc.arg_lt named
      exact .inl ⟨_, elim_eq_ok.2 (Array.getElem?_eq_getElem bound)⟩
  · cases value : m.env.global? g with
    | some v => exact .inl ⟨v, elim_eq_ok.2 value⟩
    | none => exact .inr ⟨id, named, g, slot, rfl, value⟩

namespace Faces

variable {c : Context} {post : Value → Prop} (faces : Faces sc pos m)

include faces

theorem current (placed : Placed sc.body.code pos (i :: xs)) : m.top.current? = some i := by
  rw [faces.runs.current?, faces.pc]
  exact placed.current

theorem goto (pos' : Nat) : Faces sc pos' (m.goto pos') :=
  ⟨faces.runs.goto pos', rfl⟩

theorem write (dest : Operand) (v : Value) : Faces sc (pos + 1) (m.next.write dest v) where
  runs := (Machine.SameShape.write m.next dest v).runs (faces.runs.goto _)
  pc := by
    rw [Machine.write_pc, ← faces.pc]
    rfl

/-- An instruction that stores a value, if no operand is missing. -/
theorem stores (placed : Placed sc.body.code pos (i :: xs)) (plain : IsPlain i)
    (used : dest ∈ i.operands) (target : sc.Target dest) (may : changed dest)
    (effect : (∃ v, post v ∧ ∀ limits, m.top.canWrite dest = true →
        Machine.Does limits m i (.write dest v)) ∨
      ∃ name ∈ names, ∃ g, sc.module.globals.slot? name = some g ∧ m.env.global? g = none ∧
        ∀ limits, m.effect limits i = .error ⟨.undefinedGlobal g, i.line⟩) :
    Quiet sc names changed (pos + 1) m fun n => ∃ v, n.read dest = .ok v ∧ post v := by
  have writable := sc.canWrite faces.runs (placed.members _ mem_cons_self) used target
  rcases effect with ⟨v, holds, does⟩ | ⟨name, member, g, slot, undefined, stops⟩
  · refine .inl ⟨_, _, .write (faces.current placed) plain (fun limits => does limits writable)
      writable may, faces.write dest v, v, ?_, holds⟩
    exact Machine.read_write_self (m := m.next) writable
  · exact .inr ⟨name, member, g, slot, undefined, m, _, i, .refl changed m, faces.current placed, stops⟩

theorem quiet_copy (placed : Placed sc.body.code pos (c.copy dest a :: xs)) (target : sc.Target dest)
    (may : changed dest) (given : Given sc names m a) :
    Quiet sc names changed (pos + 1) m fun n => ∃ v, n.read dest = .ok v ∧ m.read a = .ok v := by
  refine faces.stores placed (isPlain_ins (by simp)) mem_cons_self target may ?_
  rcases given.read (placed.members _ mem_cons_self) (by simp [Context.copy, Context.ins]) with
    ⟨v, value⟩ | ⟨name, member, g, slot, undefined, missing⟩
  · exact .inl ⟨v, value, fun _ writable => .assign value writable⟩
  · refine .inr ⟨name, member, g, slot, undefined, fun limits => ?_⟩
    change Machine.atLine _ (m.read a >>= fun v => _) = _
    rw [missing]
    rfl

theorem quiet_not (placed : Placed sc.body.code pos (c.ins .not [dest, a] :: xs))
    (target : sc.Target dest) (may : changed dest) (given : Given sc names m a) :
    Quiet sc names changed (pos + 1) m fun n => ∃ v, n.read dest = .ok v ∧
      ∃ x, m.read a = .ok x ∧ v = .ofBool (x = 0) := by
  refine faces.stores placed (isPlain_ins (by simp)) mem_cons_self target may ?_
  rcases given.read (placed.members _ mem_cons_self) (by simp [Context.ins]) with
    ⟨v, value⟩ | ⟨name, member, g, slot, undefined, missing⟩
  · exact .inl ⟨_, ⟨v, value, rfl⟩, fun _ writable => .not value writable⟩
  · refine .inr ⟨name, member, g, slot, undefined, fun limits => ?_⟩
    change Machine.atLine _ (m.read a >>= fun v => _) = _
    rw [missing]
    rfl

theorem quiet_binary {op : BinaryOp} (total : ∀ x y, ∃ v, op.apply x y = .ok v)
    (placed : Placed sc.body.code pos (c.ins (.binary op) [dest, a, b] :: xs))
    (target : sc.Target dest) (may : changed dest) (left : Given sc names m a)
    (right : Given sc names m b) :
    Quiet sc names changed (pos + 1) m fun n => ∃ v, n.read dest = .ok v ∧
      ∃ x y, m.read a = .ok x ∧ op.apply x y = .ok v := by
  refine faces.stores placed (isPlain_ins (by simp)) mem_cons_self target may ?_
  rcases left.read (placed.members _ mem_cons_self) (by simp [Context.ins]) with
    ⟨x, first⟩ | ⟨name, member, g, slot, undefined, missing⟩
  · rcases right.read (placed.members _ mem_cons_self) (by simp [Context.ins]) with
      ⟨y, second⟩ | ⟨name, member, g, slot, undefined, missing⟩
    · obtain ⟨v, result⟩ := total x y
      exact .inl ⟨v, ⟨x, y, first, result⟩, fun _ writable => .binary first second result writable⟩
    · refine .inr ⟨name, member, g, slot, undefined, fun limits => ?_⟩
      change Machine.atLine _ (m.read a >>= fun x => m.read b >>= fun y => _) = _
      rw [first, missing]
      rfl
  · refine .inr ⟨name, member, g, slot, undefined, fun limits => ?_⟩
    change Machine.atLine _ (m.read a >>= fun x => _) = _
    rw [missing]
    rfl

theorem label {label : UInt32} (placed : Placed sc.body.code pos (c.label label :: xs)) :
    Walks [c.label label] changed m m.next ∧ Faces sc (pos + 1) m.next :=
  ⟨.goto (faces.current placed) (isPlain_ins (by simp)) (fun _ => .label) rfl, faces.pc ▸ faces.goto _⟩

theorem quiet_label {label : UInt32} (placed : Placed sc.body.code pos (c.label label :: xs))
    (value : ∃ v, m.read dest = .ok v) :
    Quiet sc names changed (pos + 1) m fun n => ∃ v, n.read dest = .ok v := by
  obtain ⟨v, value⟩ := value
  obtain ⟨walks, there⟩ := faces.label placed
  exact .inl ⟨m.next, _, walks, there, walks.values dest v value⟩

theorem jumpIf {label : UInt32} {x : Value} (placed : Placed sc.body.code pos (c.jumpIf a label :: xs))
    (value : m.read a = .ok x) (position : x ≠ 0 → labelPosition? sc.body.code label = some pos') :
    Walks [c.jumpIf a label] changed m (m.goto (if x = 0 then pos + 1 else pos')) := by
  have current := faces.current placed
  by_cases zero : x = 0
  · rw [if_pos zero, ← faces.pc]
    exact .goto current (isPlain_ins (by simp)) (fun _ => .skipped (zero ▸ value)) rfl
  · have target : m.top.routine.labels.lookup (Value.ofIndex label).low = some pos' := by
      rw [Value.low_ofIndex, faces.runs.lookup]
      exact position zero
    rw [if_neg zero]
    exact .goto current (isPlain_ins (by simp)) (fun _ => .taken value zero target) rfl

/-- The jump of a connective is taken if the first operand decides. -/
theorem skip {line t : Nat} {op : Connective} {done : UInt32}
    (placed : Placed sc.body.code pos (skipCode (sc.context line) op dest (sc.temp t) done))
    (value : m.read dest = .ok v)
    (position : op.decides v = true → labelPosition? sc.body.code done = some pos') :
    ∃ n, Walks (skipCode (sc.context line) op dest (sc.temp t) done)
        (fun o => op = .and ∧ o = sc.temp t) m n ∧
      Faces sc (if op.decides v then pos'
        else pos + (skipCode (sc.context line) op dest (sc.temp t) done).length) n := by
  cases op with
  | or =>
    have jump : Walks _ (fun o => Connective.or = .and ∧ o = sc.temp t) m _ :=
      faces.jumpIf placed value fun nonzero => position (decide_eq_true nonzero)
    have same : (if Connective.or.decides v then pos' else pos + 1) =
        if v = 0 then pos + 1 else pos' := by
      by_cases zero : v = 0 <;> simp [Connective.decides, zero]
    refine ⟨_, jump, ?_⟩
    change Faces sc (if Connective.or.decides v then pos' else pos + 1) _
    rw [same]
    exact faces.goto _
  | and =>
    have writable := sc.canWrite faces.runs (placed.members _ mem_cons_self) mem_cons_self
      (.inl ⟨t, rfl⟩)
    have there := faces.write (sc.temp t) (.ofBool (v = 0))
    have negated : Walks _ (fun o => Connective.and = .and ∧ o = sc.temp t) m _ :=
      .write (faces.current placed) (isPlain_ins (by simp)) (fun _ => .not value writable) writable
        ⟨rfl, rfl⟩
    have jumped := negated.trans
      (there.jumpIf placed.tail (Machine.read_write_self (m := m.next) writable)
        fun nonzero => position (Bool.of_not_eq_false (mt ofBool_eq_zero.2 nonzero)))
    have same : (if Connective.and.decides v then pos' else pos + 2) =
        if Value.ofBool (v = 0) = 0 then pos + 1 + 1 else pos' := by
      by_cases zero : v = 0 <;> simp [Connective.decides, zero]
    refine ⟨_, jumped, ?_⟩
    change Faces sc (if Connective.and.decides v then pos' else pos + 2) _
    rw [same]
    exact there.goto _

end Faces

/-! ## Plans -/

/-- The slots of temporaries that are drawn between two counts. -/
def Scene.Drawn (sc : Scene) (t t' : Nat) (o : Operand) : Prop :=
  ∃ j, t ≤ j ∧ j < t' ∧ o = sc.temp j

theorem Scene.Drawn.mono {t t' u u' : Nat} (earlier : t ≤ u) (later : u' ≤ t') (o : Operand)
    (drawn : sc.Drawn u u' o) : sc.Drawn t t' o := by
  obtain ⟨j, above, below, rfl⟩ := drawn
  exact ⟨j, Nat.le_trans earlier above, Nat.lt_of_lt_of_le below later, rfl⟩

theorem Scene.drawn_temp (sc : Scene) {t t' j : Nat} (above : t ≤ j) (below : j < t') :
    sc.Drawn t t' (sc.temp j) :=
  ⟨j, above, below, rfl⟩

/-- Code of a plan is quiet. What it gives is a truth value if the plan is for one. -/
structure Plan.IsQuiet (sc : Scene) (names : List String) (flag : Prop) (p : Plan) : Prop where
  value {k k' : Counters} {code : Code} {o : Operand} {pos : Nat} {m : Machine}
    (made : p.value k = .ok ((code, o), k')) (placed : Placed sc.body.code pos code)
    (faces : Faces sc pos m) :
    Quiet sc names (sc.Drawn k.temps k'.temps) (pos + code.length) m fun n =>
      Given sc names n o ∧ (flag → ∃ b, n.read o = .ok (.ofBool b))
  into {k k' : Counters} {code : Code} {dest : Operand} {pos : Nat} {m : Machine}
    (made : p.into dest k = .ok (code, k')) (target : sc.Target dest)
    (placed : Placed sc.body.code pos code) (faces : Faces sc pos m) :
    Quiet sc names (fun o => o = dest ∨ sc.Drawn k.temps k'.temps o) (pos + code.length) m fun n =>
      ∃ v, n.read dest = .ok v ∧ (flag → ∃ b, v = .ofBool b)

section Plans

variable {line : Nat} {flag : Prop} {k k' : Counters} {code : Code} {x y : Operand} {e e' : Expr}

theorem isQuiet_held {operand : Except Error Operand}
    (given : ∀ o m, operand = .ok o → m.top.Runs sc.body → Given sc names m o)
    (truth : flag → ∃ b, operand = .ok (.lit (.ofBool b))) :
    (Plan.held (sc.context line) operand).IsQuiet sc names flag where
  value {k k' code o pos m} made placed faces := by
    obtain ⟨found, rfl, rfl⟩ := held_value_ok made
    refine .pure faces ⟨given o m found faces.runs, fun holds => ?_⟩
    obtain ⟨b, same⟩ := truth holds
    cases same.symm.trans found
    exact ⟨b, rfl⟩
  into {k k' code dest pos m} made target placed faces := by
    obtain ⟨o, found, rfl, rfl⟩ := held_into_ok made
    refine (faces.quiet_copy placed target (.inl rfl) (given o m found faces.runs)).weaken ?_
    rintro n ⟨v, read, value⟩
    refine ⟨v, read, fun holds => ?_⟩
    obtain ⟨b, same⟩ := truth holds
    cases same.symm.trans found
    cases value
    exact ⟨b, rfl⟩

theorem isQuiet_computed {into : Operand → Lowering Code}
    (tidy : (Plan.computed (sc.context line) into).Tidy (sc.context line))
    (quiet : ∀ {k k' code dest pos m}, into dest k = .ok (code, k') → sc.Target dest →
      Placed sc.body.code pos code → Faces sc pos m →
      Quiet sc names (fun o => o = dest ∨ sc.Drawn k.temps k'.temps o) (pos + code.length) m fun n =>
        ∃ v, n.read dest = .ok v ∧ (flag → ∃ b, v = .ofBool b)) :
    (Plan.computed (sc.context line) into).IsQuiet sc names flag where
  value {k k' code o pos m} made placed faces := by
    obtain ⟨rfl, inner⟩ := computed_value_ok made
    have le : k.temps + 1 ≤ k'.temps := (tidy.into (writable_temp _ _) inner).1.temps_le
    refine (quiet inner (.inl ⟨k.temps, rfl⟩) placed faces).mono ?_ ?_
    · rintro o (rfl | later)
      · exact sc.drawn_temp (Nat.le_refl _) le
      · exact later.mono (Nat.le_succ _) (Nat.le_refl _)
    · rintro n - - ⟨v, read, truth⟩
      refine ⟨given_of_read read, fun holds => ?_⟩
      obtain ⟨b, rfl⟩ := truth holds
      exact ⟨b, read⟩
  into made target placed faces := quiet made target placed faces

theorem quiet_read {free : Bool} {later : List Part}
    (quiet : (plan (sc.context line) e).IsQuiet sc names flag)
    (made : Part.read (sc.context line) ⟨plan (sc.context line) e, free⟩ later k = .ok ((code, o), k'))
    (placed : Placed sc.body.code pos code) (faces : Faces sc pos m) :
    Quiet sc names (sc.Drawn k.temps k'.temps) (pos + code.length) m fun n => Given sc names n o := by
  rcases read_ok made with ⟨xs, v, k₁, inner, rfl, rfl, rfl⟩ | ⟨inner, -⟩
  · have le := ((plan_tidy (sc.context line) e).value inner).1.temps_le
    rw [length_append, ← Nat.add_assoc]
    refine ((quiet.value inner placed.left faces).widen
      (Scene.Drawn.mono (Nat.le_refl _) (Nat.le_succ _))).bind fun n there given => ?_
    refine (there.quiet_copy placed.right (.inl ⟨k₁.temps, rfl⟩)
      (sc.drawn_temp le (Nat.lt_succ_self _)) given.1).weaken ?_
    rintro l ⟨w, read, -⟩
    exact given_of_read read
  · exact (quiet.value inner placed faces).weaken fun n given => given.1

section Binary

variable {a b : Expr} {free free' : Bool} {flag' : Prop}
  (left : (plan (sc.context line) a).IsQuiet sc names flag)
  (right : (plan (sc.context line) b).IsQuiet sc names flag')

include left right

theorem quiet_readBoth
    (made : readBoth (sc.context line) ⟨plan (sc.context line) a, free⟩
      ⟨plan (sc.context line) b, free'⟩ k = .ok ((code, x, y), k'))
    (placed : Placed sc.body.code pos code) (faces : Faces sc pos m) :
    Quiet sc names (sc.Drawn k.temps k'.temps) (pos + code.length) m fun n =>
      Given sc names n x ∧ Given sc names n y := by
  obtain ⟨xs, k₁, ys, first, second, rfl⟩ := readBoth_ok made
  have early := (makes_read (plan_tidy _ a) first).1.temps_le
  have late := (makes_read (plan_tidy _ b) second).1.temps_le
  rw [length_append, ← Nat.add_assoc]
  refine ((quiet_read left first placed.left faces).widen
    (Scene.Drawn.mono (Nat.le_refl _) late)).bind fun n there given => ?_
  exact (quiet_read right second placed.right there).mono (Scene.Drawn.mono early (Nat.le_refl _))
    fun l _ walks given' => ⟨given.walks walks, given'⟩

variable (target : sc.Target dest) (placed : Placed sc.body.code pos code) (faces : Faces sc pos m)

include target placed faces

theorem quiet_binaryInto {op : BinaryOp} (total : ∀ x y, ∃ v, op.apply x y = .ok v)
    (made : binaryInto (sc.context line) op ⟨plan (sc.context line) a, free⟩
      ⟨plan (sc.context line) b, free'⟩ dest k = .ok (code, k')) :
    Quiet sc names (fun o => o = dest ∨ sc.Drawn k.temps k'.temps o) (pos + code.length) m
      fun n => ∃ v, n.read dest = .ok v ∧ ∃ x y, op.apply x y = .ok v := by
  obtain ⟨xs, x, y, operands, rfl⟩ := binaryInto_ok made
  rw [length_append, ← Nat.add_assoc]
  refine ((quiet_readBoth left right operands placed.left faces).widen fun _ => .inr).bind
    fun n there given => ?_
  refine (there.quiet_binary total placed.right target (.inl rfl) given.1 given.2).weaken ?_
  rintro l ⟨v, read, x', y', -, result⟩
  exact ⟨v, read, x', y', result⟩

theorem quiet_negatedInto {op : BinaryOp} (total : ∀ x y, ∃ v, op.apply x y = .ok v)
    (made : negatedInto (sc.context line) op ⟨plan (sc.context line) a, free⟩
      ⟨plan (sc.context line) b, free'⟩ dest k = .ok (code, k')) :
    Quiet sc names (fun o => o = dest ∨ sc.Drawn k.temps k'.temps o) (pos + code.length) m
      fun n => ∃ v, n.read dest = .ok v ∧ ∃ b, v = .ofBool b := by
  obtain ⟨xs, x, y, k₁, operands, rfl, rfl⟩ := negatedInto_ok made
  have le := (makes_readBoth (plan_tidy _ a) (plan_tidy _ b) operands).1.temps_le
  rw [length_append, ← Nat.add_assoc]
  refine ((quiet_readBoth left right operands placed.left faces).widen
    fun _ drawn => .inr (drawn.mono (Nat.le_refl _) (Nat.le_succ _))).bind fun n there given => ?_
  refine (there.quiet_binary total placed.right (.inl ⟨k₁.temps, rfl⟩)
    (.inr (sc.drawn_temp le (Nat.lt_succ_self _))) given.1 given.2).bind fun l there given => ?_
  obtain ⟨v, read, -⟩ := given
  refine (there.quiet_not placed.right.tail target (.inl rfl) (given_of_read read)).weaken ?_
  rintro l ⟨w, read, x', -, rfl⟩
  exact ⟨_, read, _, rfl⟩

theorem quiet_shortCircuitInto {op : Connective}
    (made : shortCircuitInto (sc.context line) op (plan (sc.context line) a)
      (plan (sc.context line) b) dest k = .ok (code, k')) :
    Quiet sc names (fun o => o = dest ∨ sc.Drawn k.temps k'.temps o) (pos + code.length) m
      fun n => ∃ v, n.read dest = .ok v := by
  obtain ⟨xs, k₁, ys, first, second, rfl⟩ := shortCircuitInto_ok made
  have early : k.temps ≤ k₁.temps := ((plan_tidy _ a).into target.writable first).1.temps_le
  have late := ((plan_tidy _ b).into target.writable second).1.temps_le
  have between : k₁.temps ≤ (k₁.withSkip op).temps := by cases op <;> simp [Counters.withSkip]
  have jumps := placed.left.left.right
  have skipped := placed.left.right
  have ends := placed.right
  simp only [length_append, length_singleton, ← Nat.add_assoc] at skipped ends ⊢
  refine ((left.into first target placed.left.left.left faces).widen fun o => Or.imp_right
    (Scene.Drawn.mono (Nat.le_refl _) (Nat.le_trans between late) o)).bind fun n there given => ?_
  obtain ⟨v, read, -⟩ := given
  obtain ⟨l, walks, here⟩ := there.skip jumps read fun _ => ends.label sc.labels
  have may : ∀ o, op = .and ∧ o = sc.temp k₁.temps → o = dest ∨ sc.Drawn k.temps k'.temps o := by
    rintro o ⟨rfl, rfl⟩
    exact .inr (sc.drawn_temp early late)
  have skips : Quiet sc names _ _ n fun l => ∃ v, l.read dest = .ok v :=
    .inl ⟨l, _, walks.mono may, here, walks.values dest v read⟩
  refine skips.bind fun l here value => ?_
  cases decided : op.decides v with
  | true =>
    rw [decided, if_pos rfl] at here
    exact here.quiet_label ends value
  | false =>
    rw [decided, if_neg Bool.false_ne_true] at here
    refine ((right.into second target skipped here).widen fun o => Or.imp_right
      (Scene.Drawn.mono (Nat.le_trans early between) (Nat.le_refl _) o)).bind fun n there given => ?_
    obtain ⟨v, read, -⟩ := given
    exact there.quiet_label ends ⟨v, read⟩

end Binary

theorem plan_passthrough (c : Context) {callee : String} (pass : isPassthrough callee = true)
    (e : Expr) : plan c (.call callee [e]) = plan c e := by
  have distinct : callee ≠ "print" := by
    rintro rfl
    exact absurd pass (by decide)
  rw [plan, parts, parts, callPlan, if_neg distinct, if_pos pass]

theorem isQuiet_plan (sc : Scene) (line : Nat) (e : Expr) (free : e.isEffectFree = true)
    (named : e.names ⊆ names) :
    (plan (sc.context line) e).IsQuiet sc names (e.isFlag = true) := by
  have tidy := plan_tidy (sc.context line) e
  match e with
  | .int v =>
    refine isQuiet_held (fun o m found _ => ?_) fun flag => ?_
    · cases found
      exact given_of_read rfl
    · rcases Bool.or_eq_true _ _ ▸ flag with zero | one
      · exact ⟨false, by rw [eq_of_beq zero]; rfl⟩
      · exact ⟨true, by rw [eq_of_beq one]; rfl⟩
  | .name id =>
    exact isQuiet_held (fun o m found runs => given_name runs found (named mem_cons_self))
      fun flag => absurd flag Bool.false_ne_true
  | .neg e =>
    refine isQuiet_computed tidy fun made target placed faces => ?_
    obtain ⟨xs, x, operand, rfl⟩ := neg_into_ok made
    rw [length_append, ← Nat.add_assoc]
    refine (((isQuiet_plan sc line e free named).value operand placed.left faces).widen
      fun _ => .inr).bind fun n there given => ?_
    have zero : Given sc names n (.lit 0) := given_of_read rfl
    refine (there.quiet_binary (fun _ _ => ⟨_, rfl⟩) placed.right target (.inl rfl) zero
      given.1).weaken ?_
    rintro l ⟨v, read, -⟩
    exact ⟨v, read, fun flag => absurd flag Bool.false_ne_true⟩
  | .not e =>
    refine isQuiet_computed tidy fun made target placed faces => ?_
    obtain ⟨xs, x, operand, rfl⟩ := not_into_ok made
    rw [length_append, ← Nat.add_assoc]
    refine (((isQuiet_plan sc line e free named).value operand placed.left faces).widen
      fun _ => .inr).bind fun n there given => ?_
    refine (there.quiet_not placed.right target (.inl rfl) given.1).weaken ?_
    rintro l ⟨v, read, x', -, rfl⟩
    exact ⟨_, read, fun _ => ⟨_, rfl⟩⟩
  | .arith op a b =>
    have parts : op ≠ .floorDiv ∧ op ≠ .floorMod ∧ a.isEffectFree = true ∧ b.isEffectFree = true := by
      cases op <;> simp_all [Expr.isEffectFree]
    have left := isQuiet_plan sc line a parts.2.2.1 (append_subset.1 named).1
    have right := isQuiet_plan sc line b parts.2.2.2 (append_subset.1 named).2
    refine isQuiet_computed tidy fun made target placed faces => ?_
    cases op with
    | add | sub | mul =>
      refine (quiet_binaryInto left right target placed faces (fun _ _ => ⟨_, rfl⟩) made).weaken ?_
      rintro n ⟨v, read, -⟩
      exact ⟨v, read, fun flag => absurd flag Bool.false_ne_true⟩
    | floorDiv => exact absurd rfl parts.1
    | floorMod => exact absurd rfl parts.2.1
  | .compare op a b =>
    rw [Expr.isEffectFree, Bool.and_eq_true] at free
    have left := isQuiet_plan sc line a free.1 (append_subset.1 named).1
    have right := isQuiet_plan sc line b free.2 (append_subset.1 named).2
    refine isQuiet_computed tidy fun made target placed faces => ?_
    cases op with
    | lt | gt | eq =>
      refine (quiet_binaryInto left right target placed faces (fun _ _ => ⟨_, rfl⟩) made).weaken ?_
      rintro n ⟨v, read, x, y, result⟩
      cases result
      exact ⟨_, read, fun _ => ⟨_, rfl⟩⟩
    | le | ge | ne =>
      refine (quiet_negatedInto left right target placed faces (fun _ _ => ⟨_, rfl⟩) made).weaken ?_
      rintro n ⟨v, read, truth⟩
      exact ⟨v, read, fun _ => truth⟩
  | .connect op a b =>
    rw [Expr.isEffectFree, Bool.and_eq_true] at free
    have left := isQuiet_plan sc line a free.1 (append_subset.1 named).1
    have right := isQuiet_plan sc line b free.2 (append_subset.1 named).2
    rw [plan] at tidy ⊢
    split at tidy <;> rename_i plain
    · rw [if_pos plain]
      refine isQuiet_computed tidy fun made target placed faces => ?_
      refine (quiet_binaryInto left right target placed faces
        (by cases op <;> exact fun _ _ => ⟨_, rfl⟩) made).weaken ?_
      rintro n ⟨v, read, x, y, result⟩
      refine ⟨v, read, fun _ => ?_⟩
      cases op <;> cases result <;> exact ⟨_, rfl⟩
    · rw [if_neg plain]
      refine isQuiet_computed tidy fun made target placed faces => ?_
      refine (quiet_shortCircuitInto left right target placed faces made).weaken ?_
      rintro n ⟨v, read⟩
      refine ⟨v, read, fun flag => absurd ?_ plain⟩
      rw [Expr.isFlag] at flag
      exact flag
  | .call callee [e] =>
    rw [Expr.isEffectFree, Bool.and_eq_true] at free
    have inner := isQuiet_plan sc line e free.2 (append_subset.1 named).1
    rw [plan_passthrough _ free.1 e]
    have flag : (Expr.call callee [e]).isFlag = true → e.isFlag = true := by
      rw [Expr.isFlag]
      simp +contextual
    refine ⟨fun made placed faces => (inner.value made placed faces).weaken
        fun n given => ⟨given.1, fun holds => given.2 (flag holds)⟩,
      fun made target placed faces => (inner.into made target placed faces).weaken ?_⟩
    rintro n ⟨v, read, truth⟩
    exact ⟨v, read, fun holds => truth (flag holds)⟩

/-- An operand that nothing with effects follows is not copied. -/
theorem value_of_read {c : Context} {p : Part} {later : List Part}
    (free : ∀ q ∈ later, q.isEffectFree = true)
    (made : p.read c later k = .ok ((code, o), k')) : p.plan.value k = .ok ((code, o), k') := by
  obtain ⟨⟨xs, v⟩, k₁, value, rest⟩ := lowering_bind.1 made
  dsimp only at rest
  have kept : later.any (!·.isEffectFree) = false := any_eq_false.2 (by simpa using free)
  rw [kept, Bool.and_false, if_neg Bool.false_ne_true] at rest
  cases lowering_pure.1 rest
  exact value

end Plans

/-! ## Connectives -/

section Connectives

variable (sc : Scene) (line : Nat) (op : Connective) (a b : Expr) (dest : Operand) (k k' : Counters)
  (code : Code) (pos : Nat)

/-- Code of a connective that reads both operands. The first one is a truth value. If it decides, the
code of the second one still runs, quietly, and the result is the first one. -/
def ReadsBoth : Prop :=
  ∃ first x k₁ rest, (plan (sc.context line) a).value k = .ok ((first, x), k₁) ∧ code = first ++ rest ∧
    (∀ m, Faces sc pos m → Quiet sc a.names (sc.Drawn k.temps k₁.temps) (pos + first.length) m fun n =>
      ∃ flag, n.read x = .ok (.ofBool flag)) ∧
    ∀ n flag, Faces sc (pos + first.length) n → n.read x = .ok (.ofBool flag) →
      op.decides (.ofBool flag) = true →
      Quiet sc b.names (fun o => o = dest ∨ sc.Drawn k₁.temps k'.temps o) (pos + code.length) n fun l =>
        l.read dest = .ok (.ofBool flag)

/-- Code of a connective that jumps. If the first operand decides, no instruction of the second one
is executed, and the result is the first one. -/
def JumpsPast : Prop :=
  ∃ first k₁ skip second last, (plan (sc.context line) a).into dest k.withLabel = .ok (first, k₁) ∧
    (plan (sc.context line) b).into dest (k₁.withSkip op) = .ok (second, k') ∧
    code = first ++ skip ++ second ++ [last] ∧
    ∀ n v, Faces sc (pos + first.length) n → n.read dest = .ok v → op.decides v = true →
      ∃ l, Walks (skip ++ [last]) (fun o => op = .and ∧ o = sc.temp k₁.temps) n l ∧
        Faces sc (pos + code.length) l ∧ l.read dest = .ok v

end Connectives

section

variable {line : Nat} {op : Connective} {e f : Expr} {k k' : Counters} {code : Code}

theorem apply_of_decides {flag : Bool} {y v : Value} (decided : op.decides (.ofBool flag) = true)
    (result : op.instruction.apply (.ofBool flag) y = .ok v) : v = .ofBool flag := by
  cases op <;> cases flag <;> cases decided <;> cases result <;> rfl

theorem readsBoth (plain : (e.isPlainFlag && f.isPlainFlag) = true)
    (made : binaryInto (sc.context line) op.instruction ⟨plan (sc.context line) e, true⟩
      ⟨plan (sc.context line) f, true⟩ dest k = .ok (code, k'))
    (target : sc.Target dest) (placed : Placed sc.body.code pos code) (room : sc.Room k'.temps) :
    ReadsBoth sc line op e f dest k k' code pos := by
  obtain ⟨⟨flag, free⟩, -, free'⟩ : (e.isFlag = true ∧ e.isEffectFree = true) ∧
      f.isFlag = true ∧ f.isEffectFree = true := by
    simpa [Expr.isPlainFlag] using plain
  have left := isQuiet_plan sc line e free (List.Subset.refl _)
  have right := isQuiet_plan sc line f free' (List.Subset.refl _)
  obtain ⟨operands, x, y, both, rfl⟩ := binaryInto_ok made
  obtain ⟨xs, k₁, ys, first, second, rfl⟩ := readBoth_ok both
  have first := value_of_read (fun q member => mem_singleton.1 member ▸ rfl) first
  have source := ((plan_tidy _ e).value first).2
  have late := (makes_read (plan_tidy _ f) second).1.temps_le
  have evaluated := placed.left.right
  have computed := placed.right
  refine ⟨xs, x, k₁, ys ++ [_], first, append_assoc _ _ _, fun m faces => ?_,
    fun n truth there value decided => ?_⟩
  · exact (left.value first placed.left.left faces).weaken fun n given => given.2 flag
  · simp only [length_append, ← Nat.add_assoc] at computed ⊢
    refine ((quiet_read right second evaluated there).mono (fun _ => .inr) fun l _ walks given =>
      And.intro given (walks.keeps x ?_)).bind fun l here given => ?_
    · rintro ⟨j, above, below, same⟩
      exact source.ne_temp room late below (.inr above) same
    obtain ⟨given, same⟩ := given
    have kept := same.trans value
    refine (here.quiet_binary (by cases op <;> exact fun _ _ => ⟨_, rfl⟩) computed target (.inl rfl)
      (given_of_read kept) given).weaken ?_
    rintro h ⟨v, read, u, w, same, result⟩
    cases kept.symm.trans same
    exact apply_of_decides decided result ▸ read

theorem jumpsPast
    (made : shortCircuitInto (sc.context line) op (plan (sc.context line) e)
      (plan (sc.context line) f) dest k = .ok (code, k'))
    (placed : Placed sc.body.code pos code)
    (apart : ∀ j, k.temps ≤ j → j < k'.temps → dest ≠ sc.temp j)
    (target : sc.Target dest := by assumption) :
    JumpsPast sc line op e f dest k k' code pos := by
  obtain ⟨xs, k₁, ys, first, second, rfl⟩ := shortCircuitInto_ok made
  have early : k.temps ≤ k₁.temps := ((plan_tidy _ e).into target.writable first).1.temps_le
  have late := ((plan_tidy _ f).into target.writable second).1.temps_le
  have jumps := placed.left.left.right
  have ends := placed.right
  refine ⟨xs, k₁, _, ys, _, first, second, rfl, fun n v there value decided => ?_⟩
  simp only [length_append, length_singleton, ← Nat.add_assoc] at ends ⊢
  obtain ⟨l, walks, here⟩ := there.skip jumps value fun _ => ends.label sc.labels
  rw [decided, if_pos rfl] at here
  obtain ⟨labelled, last⟩ := here.label ends
  have walks := walks.trans labelled
  refine ⟨l.next, walks, last, (walks.keeps dest ?_).trans value⟩
  rintro ⟨rfl, same⟩
  exact apart k₁.temps early late same

/-- What a connective does if its first operand decides. Unless both operands are plain flags, the
second one is jumped over. If they are, its code runs: it prints nothing, calls nothing and changes
nothing but temporaries, but it stops the run at a name without a value. The result is the first
operand in both cases. -/
theorem connective_decided_by_first
    (made : (plan (sc.context line) (.connect op e f)).into dest k = .ok (code, k'))
    (target : sc.Target dest) (placed : Placed sc.body.code pos code) (room : sc.Room k'.temps)
    (apart : ∀ j, k.temps ≤ j → j < k'.temps → dest ≠ sc.temp j) :
    if e.isPlainFlag && f.isPlainFlag then ReadsBoth sc line op e f dest k k' code pos
    else JumpsPast sc line op e f dest k k' code pos := by
  rw [plan] at made
  split <;> rename_i plain
  · rw [if_pos plain] at made
    exact readsBoth plain made target placed room
  · rw [if_neg plain] at made
    exact jumpsPast made placed apart

end

/-- A conjunction that its first test decides. The second test has a name without a value. -/
def decidedTest : Expr :=
  .connect .and (.compare .eq (.int 1) (.int 2)) (.compare .eq (.name "x") (.int 1))

def decidedTestCode : Code :=
  [⟨.binary .eq, [.global 2, .lit 1, .lit 2], 1⟩, ⟨.binary .eq, [.global 3, .global 0, .lit 1], 1⟩,
    ⟨.binary .and, [.global 1, .global 2, .global 3], 1⟩]

def decidedTestProgram : Program where
  code := decidedTestCode ++ [⟨.output, [.global 1], 1⟩]
  globalCount := 4

theorem lowers_decidedTest :
    Lowers [.expr (.call "print" [decidedTest]) 1] [] decidedTestProgram :=
  ⟨rfl, .nil, by cbv⟩

/-- The code of the second test runs as well. -/
theorem connective_decided_by_first_decidedTest :
    ∃ sc : Scene, sc.body = decidedTestProgram.mainBody ∧
      (plan (sc.context 1) decidedTest).into (sc.temp 0) ⟨0, 1⟩ = .ok (decidedTestCode, ⟨0, 3⟩) ∧
      sc.Target (sc.temp 0) ∧ Placed sc.body.code 0 decidedTestCode ∧ sc.Room 3 ∧
      (∀ j, 1 ≤ j → j < 3 → sc.temp 0 ≠ sc.temp j) ∧
      ReadsBoth sc 1 .and (.compare .eq (.int 1) (.int 2)) (.compare .eq (.name "x") (.int 1))
        (sc.temp 0) ⟨0, 1⟩ ⟨0, 3⟩ decidedTestCode 0 := by
  let sc := moduleScene lowers_decidedTest (by decide) .empty
  have room : sc.Room 3 := by
    change _ + 3 < 0x100000000
    decide
  have apart : ∀ j, 1 ≤ j → j < 3 → sc.temp 0 ≠ sc.temp j := fun j above below same =>
    Nat.ne_of_lt above (Scene.temp_inj room (by decide) below same)
  have made : (plan (sc.context 1) decidedTest).into (sc.temp 0) ⟨0, 1⟩ =
      .ok (decidedTestCode, ⟨0, 3⟩) := by cbv
  have placed : Placed sc.body.code 0 decidedTestCode := List.prefix_append _ _
  exact ⟨sc, rfl, made, target_temp sc 0, placed, room, apart,
    connective_decided_by_first made (target_temp sc 0) placed room apart⟩

/-- The first test decides, and still the run fails. -/
theorem run_decidedTest_fails :
    Program.ofPython "print(1 == 2 and x == 1)\n" = .ok decidedTestProgram ∧
      (Environment.run {} {} decidedTestProgram).result = .error ⟨.undefinedGlobal 0, 1⟩ ∧
      (Environment.run {} {} decidedTestProgram).outputs = [] :=
  ⟨by decide +kernel, by cbv, by cbv⟩

end SlotLang.Subset
