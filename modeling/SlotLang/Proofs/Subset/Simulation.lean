import SlotLang.Proofs.Segments
import SlotLang.Proofs.Stepping
import SlotLang.Proofs.Subset.Draws
import SlotLang.Proofs.Subset.Evaluation
import SlotLang.Proofs.Subset.Slots

/-!
# Machines beside evaluations

`Sim` says that a machine follows an evaluation: it reaches a machine that satisfies a condition if
the evaluation gives a value, and fails for the same cause if the evaluation fails. A `Scene` is the
code of one body with all that its proofs need to know about slots and labels. In a scene, a machine
`Stands` at a position with a memory, and `Arrives` at another one without touching what code further
out still needs.
-/

open List

namespace SlotLang.Subset

open Machine

variable {α β : Type}

/-- The cause that a machine gives for a failure of an evaluation. -/
def Stop.cause? : Stop → Option Cause
  | .divisionByZero => some .divisionByZero
  | .divisionOverflow => some .divisionOverflow
  | .unfinished => none

/-! ## Machines that follow -/

variable {allowed : Limits → Prop} {globals : SlotTable} {mem mem' : Memory} {m n : Machine}

/-- The machine fails for a cause, and leaves the output and the named globals of a memory. -/
def FailsWith (allowed : Limits → Prop) (globals : SlotTable) (cause : Cause) (mem : Memory)
    (m : Machine) : Prop :=
  ∃ line env,
    Ends (outcome allowed) m (fun _ => ⟨.error ⟨cause, line⟩, mem.output, env⟩) ∧
      ∀ name n, globals.slot? name = some n → env.global? n = some (mem.globals name)

/-- The machine follows an evaluation. -/
def Sim (allowed : Limits → Prop) (globals : SlotTable) (x : Eval α) (mem : Memory) (m : Machine)
    (post : α → Memory → Machine → Prop) : Prop :=
  match x.result mem with
  | (.ok a, mem') => ∃ n, Reaches (outcome allowed) m n ∧ post a mem' n
  | (.error stop, mem') => ∀ cause, stop.cause? = some cause → FailsWith allowed globals cause mem' m

namespace Sim

variable {x : Eval α} {f : α → Eval β} {post : α → Memory → Machine → Prop} {a : α}

theorem ok (result : x.result mem = (.ok a, mem')) (reaches : Reaches (outcome allowed) m n)
    (holds : post a mem' n) : Sim allowed globals x mem m post := by
  unfold Sim
  rw [result]
  exact ⟨n, reaches, holds⟩

theorem error {stop : Stop} (result : x.result mem = (.error stop, mem'))
    (fails : ∀ cause, stop.cause? = some cause → FailsWith allowed globals cause mem' m) :
    Sim allowed globals x mem m post := by
  unfold Sim
  rw [result]
  exact fails

theorem pure (holds : post a mem m) : Sim allowed globals (Pure.pure a) mem m post :=
  ok rfl (.refl _ m) holds

theorem after {post' : α → Memory → Machine → Prop} (sim : Sim allowed globals x mem m post)
    (more : ∀ a mem' n, x.result mem = (.ok a, mem') → post a mem' n →
      ∃ l, Reaches (outcome allowed) n l ∧ post' a mem' l) :
    Sim allowed globals x mem m post' := by
  unfold Sim at sim ⊢
  split at sim
  · next a mem' result =>
    obtain ⟨n, reaches, holds⟩ := sim
    obtain ⟨l, onward, last⟩ := more a mem' n result holds
    exact ⟨l, reaches.trans onward, last⟩
  · exact sim

theorem mono {post' : α → Memory → Machine → Prop} (sim : Sim allowed globals x mem m post)
    (weaker : ∀ a mem' n, x.result mem = (.ok a, mem') → post a mem' n → post' a mem' n) :
    Sim allowed globals x mem m post' :=
  sim.after fun a mem' n result holds => ⟨n, .refl _ n, weaker a mem' n result holds⟩

theorem congr {y : Eval α} (same : y.result mem = x.result mem)
    (sim : Sim allowed globals x mem m post) : Sim allowed globals y mem m post := by
  unfold Sim at sim ⊢
  rwa [same]

theorem before (reaches : Reaches (outcome allowed) m n)
    (sim : Sim allowed globals x mem n post) : Sim allowed globals x mem m post := by
  unfold Sim at sim ⊢
  split at sim
  · obtain ⟨l, onward, holds⟩ := sim
    exact ⟨l, reaches.trans onward, holds⟩
  · intro cause known
    obtain ⟨line, env, ends, named⟩ := sim cause known
    exact ⟨line, env, reaches.ends ends, named⟩

/-- One evaluation after another. -/
theorem bind {post' : β → Memory → Machine → Prop} (first : Sim allowed globals x mem m post)
    (second : ∀ a mem' n, x.result mem = (.ok a, mem') → post a mem' n →
      Sim allowed globals (f a) mem' n post') :
    Sim allowed globals (x >>= f) mem m post' := by
  unfold Sim at first
  split at first
  · next a mem' result =>
    obtain ⟨n, reaches, holds⟩ := first
    have sim := before reaches (second a mem' n result holds)
    unfold Sim at sim ⊢
    rw [result_bind, result]
    exact sim
  · next stop mem' result =>
    exact error (by rw [result_bind, result]) first

end Sim

/-! ## Scenes -/

/-- The last slot number, which no code may use: one more than it does not fit. -/
def lastSlot : UInt32 := 0xFFFFFFFF

/-- The code of a body, and what it can rely on. -/
structure Scene where
  module : ModuleScope
  /-- The function's scope, or nothing at module level. -/
  scope : Option FuncScope
  body : Body
  isLocal : String → Bool
  /-- The functions that calls can enter. -/
  funcs : SlotMap Callable
  /-- The call depth. -/
  depth : Nat
  isLocal_eq : ∀ name, isLocal name = (localSlot? scope name).isSome
  global_lt : ∀ {name n}, module.globals.slot? name = some n → n < module.globals.next
  global_inj : ∀ {x y n}, module.globals.slot? x = some n → module.globals.slot? y = some n → x = y
  local_inj : ∀ {x y o}, localSlot? scope x = some o → localSlot? scope y = some o → x = y
  arg_lt : ∀ {name i}, localSlot? scope name = some (.arg i) → i.toNat < body.argCount
  var_lt : ∀ {name n s}, scope = some s → localSlot? scope name = some (.var n) → n < s.locals.next
  inFunc : body.inFunc = scope.isSome
  var_count : scope.isSome = true →
    ∀ i ∈ body.code, ∀ n, .var n ∈ i.operands → n.toNat < body.varCount
  small : ∀ i ∈ body.code, .var lastSlot ∉ i.operands ∧ .global lastSlot ∉ i.operands
  labels : (definedLabels body.code).Nodup

namespace Scene

variable (sc : Scene)

def context (line : Nat) : Context :=
  ⟨sc.module, sc.scope, line⟩

/-- The first free slot number. -/
def base : Nat :=
  match sc.scope with
  | some scope => scope.locals.next.toNat
  | none => sc.module.globals.next.toNat

/-- So many temporaries have slot numbers that do not wrap. -/
def Room (temps : Nat) : Prop :=
  sc.base + temps < 0x100000000

/-- The slot of a temporary. -/
def temp (n : Nat) : Operand :=
  (sc.context 0).temp n

@[simp] theorem context_temp (line n : Nat) : (sc.context line).temp n = sc.temp n := rfl

variable {sc} {t j k : Nat} {o : Operand} {name : String}

theorem Room.mono (room : sc.Room t) (fewer : k ≤ t) : sc.Room k :=
  Nat.lt_of_le_of_lt (Nat.add_le_add_left fewer _) room

theorem toNat_add_ofNat {a : UInt32} (fits : a.toNat + k < 0x100000000) :
    (a + UInt32.ofNat k).toNat = a.toNat + k := by
  simp only [UInt32.toNat_add, UInt32.toNat_ofNat']
  omega

theorem add_ofNat_last (a : UInt32) : a + UInt32.ofNat (0xFFFFFFFF - a.toNat) = lastSlot := by
  have small := a.toNat_lt
  refine UInt32.toNat_inj.1 ?_
  rw [toNat_add_ofNat (by omega)]
  change _ = 0xFFFFFFFF
  omega

/-- Temporaries of functions are local, others are global. -/
theorem temp_eq (room : sc.Room t) (below : k < t) :
    (∃ s n, sc.scope = some s ∧ sc.temp k = .var n ∧ n.toNat = s.locals.next.toNat + k) ∨
      ∃ n, sc.scope = none ∧ sc.temp k = .global n ∧
        n.toNat = sc.module.globals.next.toNat + k := by
  unfold Room base at room
  unfold temp context Context.temp
  cases inside : sc.scope with
  | some s =>
    rw [inside] at room
    dsimp only at room ⊢
    exact .inl ⟨s, _, rfl, rfl, toNat_add_ofNat (by omega)⟩
  | none =>
    rw [inside] at room
    dsimp only at room ⊢
    exact .inr ⟨_, rfl, rfl, toNat_add_ofNat (by omega)⟩

/-- Temporaries follow the first free slot of their kind. -/
theorem temp_slot (sc : Scene) : ∃ (slot : UInt32 → Operand) (next : UInt32),
    (slot = .var ∨ slot = .global) ∧ sc.base = next.toNat ∧
      ∀ k, sc.temp k = slot (next + UInt32.ofNat k) := by
  unfold base temp context Context.temp
  cases sc.scope with
  | some s => exact ⟨.var, _, .inl rfl, rfl, fun _ => rfl⟩
  | none => exact ⟨.global, _, .inr rfl, rfl, fun _ => rfl⟩

theorem temp_inj (room : sc.Room t) (jBelow : j < t) (kBelow : k < t)
    (same : sc.temp j = sc.temp k) : j = k := by
  obtain ⟨slot, next, kind, first, temps⟩ := sc.temp_slot
  unfold Room at room
  have number : next + UInt32.ofNat j = next + UInt32.ofNat k := by
    rw [temps, temps] at same
    rcases kind with rfl | rfl <;> injection same
  have number := congrArg UInt32.toNat number
  rw [toNat_add_ofNat (by omega), toNat_add_ofNat (by omega)] at number
  omega

theorem temp_ne (room : sc.Room t) (jBelow : j < t) (kBelow : k < t) (different : j ≠ k) :
    sc.temp j ≠ sc.temp k :=
  fun same => different (temp_inj room jBelow kBelow same)

theorem temp_ne_local (room : sc.Room t) (below : k < t) (named : localSlot? sc.scope name = some o) :
    sc.temp k ≠ o := by
  rintro rfl
  rcases temp_eq room below with ⟨s, n, inside, slot, number⟩ | ⟨n, outside, -, -⟩
  · rw [slot] at named
    have := UInt32.lt_iff_toNat_lt.1 (sc.var_lt inside named)
    omega
  · rw [outside] at named
    cases named

theorem temp_ne_global (room : sc.Room t) (below : k < t) {g : UInt32}
    (named : sc.module.globals.slot? name = some g) : sc.temp k ≠ .global g := by
  intro same
  rcases temp_eq room below with ⟨s, n, -, slot, -⟩ | ⟨n, -, slot, number⟩
  · rw [slot] at same
    cases same
  · rw [slot] at same
    cases same
    have := UInt32.lt_iff_toNat_lt.1 (sc.global_lt named)
    omega

/-- Code that draws temporaries and does not use the last slot leaves room for them. -/
theorem room_of_draws {c : Context} {k k' : Counters} {code : Code} {line : Nat}
    (context : c = sc.context line) (start : k.temps = 0) (draws : Draws c k k' code)
    (member : ∀ i ∈ code, i ∈ sc.body.code) : sc.Room k'.temps := by
  subst context
  by_contra full
  obtain ⟨slot, next, kind, first, temps⟩ := sc.temp_slot
  unfold Room at full
  have small := next.toNat_lt
  obtain ⟨i, here, used⟩ := draws.used (0xFFFFFFFF - next.toNat) (by omega) (by omega)
  rw [context_temp, temps, add_ofNat_last] at used
  rcases kind with rfl | rfl
  · exact (sc.small i (member i here)).1 used
  · exact (sc.small i (member i here)).2 used

end Scene

/-! ## Code in place -/

/-- Some code stands at a position of other code. -/
def Placed (code : Code) (pos : Nat) (xs : Code) : Prop :=
  xs <+: code.drop pos

namespace Placed

variable {code xs ys : Code} {pos : Nat} {i : Instruction}

theorem left (placed : Placed code pos (xs ++ ys)) : Placed code pos xs :=
  (prefix_append xs ys).trans placed

theorem right (placed : Placed code pos (xs ++ ys)) : Placed code (pos + xs.length) ys := by
  obtain ⟨rest, split⟩ := placed
  refine ⟨rest, ?_⟩
  rw [← drop_drop, ← split, append_assoc, drop_left]

theorem tail (placed : Placed code pos (i :: xs)) : Placed code (pos + 1) xs := by
  have split : Placed code pos ([i] ++ xs) := placed
  exact split.right

theorem current (placed : Placed code pos (i :: xs)) : code[pos]? = some i := by
  obtain ⟨rest, split⟩ := placed
  rw [← head?_drop, ← split]
  rfl

theorem members (placed : Placed code pos xs) : ∀ i ∈ xs, i ∈ code :=
  fun _ member => mem_of_mem_drop (List.IsPrefix.subset placed member)

/-- A label that is defined once has the position where it stands. -/
theorem label {c : Context} {label : UInt32} (placed : Placed code pos (c.label label :: xs))
    (nodup : (definedLabels code).Nodup) : labelPosition? code label = some pos := by
  have current := placed.current
  have bound := (List.getElem?_eq_some_iff.1 current).1
  have defines := definedLabel?_label c label
  have split : code = code.take pos ++ c.label label :: code.drop (pos + 1) := by
    rw [← drop_eq_cons current, take_append_drop]
  have fresh : label ∉ definedLabels (code.take pos) := by
    intro member
    rw [split, definedLabels_append] at nodup
    refine (nodup_append.1 nodup).2.2 label member label ?_ rfl
    exact mem_definedLabels mem_cons_self defines
  have first : FirstDefinition code label (code.take pos) (c.label label) (code.drop (pos + 1)) :=
    ⟨split, defines, fresh⟩
  rw [first.labelPosition?, length_take_of_le (Nat.le_of_lt bound)]

end Placed

/-! ## Memory in slots -/

/-- An operand holds a value, if it exists. Only functions have local slots. -/
structure Holds (sc : Scene) (m : Machine) (o : Operand) (v : Value) : Prop where
  inside : ∀ n, o = .var n → sc.scope.isSome = true
  value : (∀ n, o = .var n → n.toNat < m.top.locals.size) → m.read o = .ok v

/-- The machine runs a scene with a memory. One slot may be excepted. -/
structure Mirrors (sc : Scene) (except : Option Operand) (mem : Memory) (m : Machine) : Prop where
  runs : m.top.Runs sc.body
  funcs : m.env.funcs = sc.funcs
  depth : m.depth = sc.depth
  globals : ∀ {name n}, sc.module.globals.slot? name = some n → some (.global n) ≠ except →
    m.read (.global n) = .ok (mem.globals name)
  locals : ∀ {name o}, localSlot? sc.scope name = some o → some o ≠ except →
    Holds sc m o (mem.locals name)
  outputs : m.outputs.toList = mem.output

/-- A machine that runs a scene with a memory stands at a position. -/
structure Stands (sc : Scene) (except : Option Operand) (pos : Nat) (mem : Memory) (m : Machine) :
    Prop extends Mirrors sc except mem m where
  pc : m.top.pc = pos

/-- Temporaries below a number are as they were, and so are globals without names if the code is a
function's. One slot may be excepted. -/
structure Kept (sc : Scene) (temps : Nat) (except : Option Operand) (m n : Machine) : Prop where
  shape : m.SameShape n
  temps : ∀ k < temps, some (sc.temp k) ≠ except → n.read (sc.temp k) = m.read (sc.temp k)
  hidden : sc.scope.isSome = true → ∀ g, ¬g < sc.module.globals.next →
    n.read (.global g) = m.read (.global g)

/-- A machine has come to a position with a memory, and has kept what it had to. -/
structure Arrives (sc : Scene) (temps : Nat) (except : Option Operand) (pos : Nat) (mem : Memory)
    (m n : Machine) : Prop extends Stands sc except pos mem n, Kept sc temps except m n

/-- A slot that code may write: a temporary or the slot of a name. -/
def Scene.Target (sc : Scene) (o : Operand) : Prop :=
  (∃ k, o = sc.temp k) ∨ ∃ line name, (sc.context line).resolve name = .ok o

theorem Scene.Target.writable {sc : Scene} {o : Operand} (target : sc.Target o) :
    Writable sc.module sc.scope o := by
  rcases target with ⟨k, rfl⟩ | ⟨line, name, resolved⟩
  · exact .temp k
  · exact .name resolved

section Moves

variable {sc : Scene} {except : Option Operand} {pos pos' t t' : Nat} {l : Machine} {o dest : Operand}
  {v : Value}

theorem Stands.arrives (stands : Stands sc except pos mem m) (temps : Nat) :
    Arrives sc temps except pos mem m m where
  toStands := stands
  shape := .refl m
  temps _ _ _ := rfl
  hidden _ _ _ := rfl

theorem Kept.weaken (kept : Kept sc t none m n) : Kept sc t except m n :=
  ⟨kept.shape, fun k below _ => kept.temps k below (Option.some_ne_none _), kept.hidden⟩

theorem Stands.weaken (stands : Stands sc none pos mem m) : Stands sc except pos mem m where
  toMirrors := { stands.toMirrors with
    globals := fun named _ => stands.globals named (Option.some_ne_none _)
    locals := fun named _ => stands.locals named (Option.some_ne_none _) }
  pc := stands.pc

theorem Arrives.weaken (arrives : Arrives sc t none pos mem m n) :
    Arrives sc t except pos mem m n :=
  { arrives.toStands.weaken, arrives.toKept.weaken with }

theorem Arrives.trans (first : Arrives sc t except pos mem l m)
    (second : Arrives sc t' except pos' mem' m n) (le : t ≤ t') :
    Arrives sc t except pos' mem' l n :=
  { second.toStands with
    shape := first.shape.trans second.shape
    temps := fun k below other =>
      (second.temps k (Nat.lt_of_lt_of_le below le) other).trans (first.temps k below other)
    hidden := fun inside g unnamed =>
      (second.hidden inside g unnamed).trans (first.hidden inside g unnamed) }

theorem Arrives.fewer (arrives : Arrives sc t' except pos mem m n) (fewer : t ≤ t') :
    Arrives sc t except pos mem m n :=
  { arrives with temps := fun k below => arrives.temps k (Nat.lt_of_lt_of_le below fewer) }

/-- Temporaries are no part of the memory. -/
theorem Stands.of_temp {k : Nat} (stands : Stands sc (some (sc.temp k)) pos mem m)
    (room : sc.Room t) (below : k < t) : Stands sc none pos mem m where
  toMirrors := { stands.toMirrors with
    globals := fun named _ => stands.globals named fun same =>
      Scene.temp_ne_global room below named (Option.some.inj same).symm
    locals := fun named _ => stands.locals named fun same =>
      Scene.temp_ne_local room below named (Option.some.inj same).symm }
  pc := stands.pc

/-- Temporaries drawn later need not be kept. -/
theorem Arrives.of_temp {k : Nat} (arrives : Arrives sc t (some (sc.temp k)) pos mem m n)
    (room : sc.Room t') (below : k < t') (later : t ≤ k) : Arrives sc t none pos mem m n :=
  { arrives.toStands.of_temp room below, arrives.toKept with
    temps := fun j earlier _ => arrives.temps j earlier fun same => by
      have := Scene.temp_inj room (by omega) below (Option.some.inj same)
      omega }

theorem Holds.congr (holds : Holds sc m o v) (shape : m.SameShape n) (same : n.read o = m.read o) :
    Holds sc n o v where
  inside := holds.inside
  value exists_ := by
    rw [same]
    exact holds.value fun k isVar => shape.locals ▸ exists_ k isVar

theorem Holds.write_of_ne {w : Value} (holds : Holds sc m o v) (other : o ≠ dest) :
    Holds sc (m.next.write dest w) o v :=
  holds.congr ((Machine.SameShape.goto m _).trans (.write _ _ _))
    ((read_write_of_ne other).trans (read_goto _ _ _))

theorem holds_lit (sc : Scene) (m : Machine) (v : Value) : Holds sc m (.lit v) v :=
  ⟨nofun, fun _ => rfl⟩

theorem localSlot?_kind {scope : Option FuncScope} {name : String}
    (named : localSlot? scope name = some o) :
    scope.isSome = true ∧ ((∃ n, o = .var n) ∨ ∃ n, o = .arg n) := by
  obtain ⟨s, rfl, found⟩ := Option.bind_eq_some_iff.1 named
  rcases FuncScope.slot?_eq_some found with ⟨i, -, rfl⟩ | ⟨-, n, -, rfl⟩
  · exact ⟨rfl, .inr ⟨_, rfl⟩⟩
  · exact ⟨rfl, .inl ⟨_, rfl⟩⟩

/-- What code writes is a slot in scope, and not a global without a name if the code is a
function's. -/
theorem Scene.Target.cases (target : sc.Target o) :
    (∃ n, o = .var n ∧ sc.scope.isSome = true) ∨ (∃ n, o = .arg n ∧ n.toNat < sc.body.argCount) ∨
      ∃ n, o = .global n ∧ (sc.scope.isSome = true → n < sc.module.globals.next) := by
  rcases target with ⟨k, rfl⟩ | ⟨line, name, resolved⟩
  · unfold Scene.temp Scene.context Context.temp
    cases sc.scope with
    | some s => exact .inl ⟨_, rfl, rfl⟩
    | none => exact .inr (.inr ⟨_, rfl, fun inside => absurd inside Bool.false_ne_true⟩)
  · rcases resolve_cases resolved with named | ⟨-, n, named, rfl⟩
    · obtain ⟨inside, ⟨n, rfl⟩ | ⟨n, rfl⟩⟩ := localSlot?_kind named
      · exact .inl ⟨n, rfl, inside⟩
      · exact .inr (.inl ⟨n, rfl, sc.arg_lt named⟩)
    · exact .inr (.inr ⟨n, rfl, fun _ => sc.global_lt named⟩)

theorem Scene.Target.inside (target : sc.Target o) : ∀ n, o = .var n → sc.scope.isSome = true := by
  rintro n rfl
  rcases target.cases with ⟨n, same, inside⟩ | ⟨n, same, -⟩ | ⟨n, same, -⟩ <;> cases same
  exact inside

theorem holds_write (target : sc.Target dest) (writable : m.top.canWrite dest = true) :
    Holds sc (m.next.write dest v) dest v :=
  ⟨target.inside, fun _ => read_write_self (m := m.next) writable⟩

theorem Scene.canWrite (sc : Scene) {i : Instruction} (runs : m.top.Runs sc.body)
    (member : i ∈ sc.body.code) (used : dest ∈ i.operands) (target : sc.Target dest) :
    m.top.canWrite dest = true := by
  rcases target.cases with ⟨n, rfl, inside⟩ | ⟨n, rfl, bound⟩ | ⟨n, rfl, -⟩
  · refine decide_eq_true ?_
    rw [runs.locals]
    exact sc.var_count inside i member n used
  · refine decide_eq_true ?_
    rw [runs.args]
    exact bound
  · rfl

namespace Mirrors

variable {i : Instruction} (mirrors : Mirrors sc except mem m) (member : i ∈ sc.body.code)

include mirrors member

theorem read (used : o ∈ i.operands) (holds : Holds sc m o v) : m.read o = .ok v := by
  refine holds.value fun n same => ?_
  rw [mirrors.runs.locals]
  exact sc.var_count (holds.inside n same) i member n (same ▸ used)

theorem canWrite (used : dest ∈ i.operands) (target : sc.Target dest) :
    m.top.canWrite dest = true :=
  sc.canWrite mirrors.runs member used target

end Mirrors

/-- Changing the excepted slot and temporaries drawn later. -/
theorem Arrives.changed {slots : List Operand} (arrives : Arrives sc t except pos mem m n)
    (changes : n.Changes slots l) (pc : l.top.pc = pos')
    (free : ∀ o ∈ slots, sc.Target o ∧
      (some o = except ∨ ∃ k, t ≤ k ∧ sc.Room (k + 1) ∧ o = sc.temp k)) :
    Arrives sc t except pos' mem m l := by
  have shape := changes.shape
  constructor
  · refine ⟨⟨shape.runs arrives.runs, shape.funcs.trans arrives.funcs,
      shape.depth.trans arrives.depth, ?_, ?_, ?_⟩, pc⟩
    · intro name g named other
      rw [changes.others, arrives.globals named other]
      intro member
      rcases (free _ member).2 with same | ⟨k, -, room, same⟩
      · exact other same
      · exact Scene.temp_ne_global room (Nat.lt_succ_self k) named same.symm
    · intro name o named other
      refine (arrives.locals named other).congr shape (changes.others o fun member => ?_)
      rcases (free o member).2 with same | ⟨k, -, room, same⟩
      · exact other same
      · exact Scene.temp_ne_local room (Nat.lt_succ_self k) named same.symm
    · rw [changes.outputs]
      exact arrives.outputs
  · refine ⟨arrives.shape.trans shape, ?_, ?_⟩
    · intro j below other
      rw [changes.others, arrives.temps j below other]
      intro member
      rcases (free _ member).2 with same | ⟨k, later, room, same⟩
      · exact other same
      · have := Scene.temp_inj room (by omega) (Nat.lt_succ_self k) same
        omega
    · intro inside g unnamed
      rw [changes.others, arrives.hidden inside g unnamed]
      intro member
      rcases (free _ member).1.cases with ⟨k, same, -⟩ | ⟨k, same, -⟩ | ⟨k, same, named⟩ <;> cases same
      exact unnamed (named inside)

theorem Arrives.write (arrives : Arrives sc t except pos mem m n) (target : sc.Target dest)
    (free : some dest = except ∨ ∃ k, t ≤ k ∧ sc.Room (k + 1) ∧ dest = sc.temp k) (v : Value) :
    Arrives sc t except pos mem m (n.write dest v) := by
  refine arrives.changed ((Changes.refl [dest] n).write mem_cons_self v)
    ((write_pc n dest v).trans arrives.pc) fun o member => ?_
  rw [mem_singleton.1 member]
  exact ⟨target, free⟩

theorem Arrives.goto (arrives : Arrives sc t except pos mem m n) (pos' : Nat) :
    Arrives sc t except pos' mem m (n.goto pos') :=
  arrives.changed ((Changes.refl [] n).goto pos') rfl fun _ => nofun

theorem Arrives.next (arrives : Arrives sc t except pos mem m n) :
    Arrives sc t except (pos + 1) mem m n.next := by
  rw [Machine.next, arrives.pc]
  exact arrives.goto (pos + 1)

/-! ## Instructions -/

namespace Stands

variable {c : Context} {a b : Operand} {x y : Value} {xs : Code} {i : Instruction} {label : UInt32}
  (stands : Stands sc except pos mem m)

include stands

theorem current (placed : Placed sc.body.code pos (i :: xs)) : m.top.current? = some i := by
  rw [stands.runs.current?, stands.pc]
  exact placed.current

theorem reaches_copy (placed : Placed sc.body.code pos (c.copy dest a :: xs))
    (target : sc.Target dest) (value : Holds sc m a v) :
    Reaches (outcome allowed) m (m.next.write dest v) := by
  have member := placed.members _ mem_cons_self
  have value := stands.read member (by simp [Context.copy, Context.ins]) value
  have writable := stands.canWrite member mem_cons_self target
  exact reaches_does (stands.current placed) (fun _ _ => .assign value writable) rfl

theorem reaches_binary {op : BinaryOp}
    (placed : Placed sc.body.code pos (c.ins (.binary op) [dest, a, b] :: xs))
    (target : sc.Target dest) (left : Holds sc m a x) (right : Holds sc m b y)
    (result : op.apply x y = .ok v) :
    Reaches (outcome allowed) m (m.next.write dest v) := by
  have member := placed.members _ mem_cons_self
  have left := stands.read member (by simp [Context.ins]) left
  have right := stands.read member (by simp [Context.ins]) right
  have writable := stands.canWrite member mem_cons_self target
  exact reaches_does (stands.current placed)
    (fun _ _ => .binary left right result writable) rfl

theorem reaches_not (placed : Placed sc.body.code pos (c.ins .not [dest, a] :: xs))
    (target : sc.Target dest) (value : Holds sc m a x) :
    Reaches (outcome allowed) m (m.next.write dest (.ofBool (x = 0))) := by
  have member := placed.members _ mem_cons_self
  have value := stands.read member (by simp [Context.ins]) value
  have writable := stands.canWrite member mem_cons_self target
  exact reaches_does (stands.current placed) (fun _ _ => .not value writable) rfl

theorem reaches_label (placed : Placed sc.body.code pos (c.label label :: xs)) :
    Reaches (outcome allowed) m m.next :=
  reaches_does (stands.current placed) (fun _ _ => .label) rfl

theorem lookup (position : labelPosition? sc.body.code label = some pos') :
    m.top.routine.labels.lookup (Value.ofIndex label).low = some pos' := by
  rw [Value.low_ofIndex, stands.runs.lookup]
  exact position

theorem reaches_jump (placed : Placed sc.body.code pos (c.jump label :: xs))
    (position : labelPosition? sc.body.code label = some pos') :
    Reaches (outcome allowed) m (m.goto pos') :=
  reaches_does (stands.current placed) (fun _ _ => .jump (stands.lookup position)) rfl

theorem reaches_jumpIf (placed : Placed sc.body.code pos (c.jumpIf a label :: xs))
    (value : Holds sc m a x) (position : x ≠ 0 → labelPosition? sc.body.code label = some pos') :
    Reaches (outcome allowed) m (m.goto (if x = 0 then pos + 1 else pos')) := by
  have value := stands.read (placed.members _ mem_cons_self) mem_cons_self value
  by_cases zero : x = 0
  · rw [if_pos zero, ← stands.pc]
    exact reaches_does (stands.current placed) (fun _ _ => .skipped (zero ▸ value)) rfl
  · rw [if_neg zero]
    exact reaches_does (stands.current placed)
      (fun _ _ => .taken value zero (stands.lookup (position zero))) rfl

theorem reaches_jumpIf_ofBool {flag : Bool} (placed : Placed sc.body.code pos (c.jumpIf a label :: xs))
    (value : Holds sc m a (.ofBool flag))
    (position : flag = true → labelPosition? sc.body.code label = some pos') :
    Reaches (outcome allowed) m (m.goto (if flag then pos' else pos + 1)) := by
  cases flag with
  | true => exact stands.reaches_jumpIf placed value fun _ => position rfl
  | false =>
    have skipped : Reaches (outcome allowed) m (m.goto (if (0 : Value) = 0 then pos + 1 else pos')) :=
      stands.reaches_jumpIf placed value fun nonzero => absurd rfl nonzero
    exact skipped

theorem reaches_output (placed : Placed sc.body.code pos (c.ins .output [a] :: xs))
    (value : Holds sc m a v) :
    Reaches (outcome allowed) m { m.next with outputs := m.outputs.push v } := by
  have value := stands.read (placed.members _ mem_cons_self) mem_cons_self value
  exact reaches_does (stands.current placed) (fun _ _ => .output value) rfl

end Stands

/-- An operation that fails stops the machine with the memory of the moment. -/
theorem Stands.fails_binary {c : Context} {op : BinaryOp} {a b : Operand} {x y : Value} {xs : Code}
    {cause : Cause} (stands : Stands sc none pos mem m)
    (placed : Placed sc.body.code pos (c.ins (.binary op) [dest, a, b] :: xs))
    (left : Holds sc m a x) (right : Holds sc m b y) (result : op.apply x y = .error cause) :
    FailsWith allowed sc.module.globals cause mem m := by
  have member := placed.members _ mem_cons_self
  have left := stands.read member (by simp [Context.ins]) left
  have right := stands.read member (by simp [Context.ins]) right
  refine ⟨c.line, m.env.clear, ?_, fun name n named => ?_⟩
  · rw [← stands.outputs]
    exact ends_fails (stands.current placed) fun _ _ =>
      effect_of_apply left right result
  · exact elim_eq_ok.1 (stands.globals named (Option.some_ne_none _))

end Moves

end SlotLang.Subset
