import SlotLang.Proofs.Canonical.RoundTrip
import SlotLang.Proofs.Rounds
import SlotLang.Proofs.Segments

/-!
# Code that runs inside longer code

A unit runs on its own, and its code runs as a part of longer module code, in an environment with the
same globals and perhaps more functions. Position and targets of jumps are shifted there, and lines
have other numbers; all else is the same. `Together` relates the two machines, every round keeps them
together (`tracks_round`), and so both runs go on together up to the end of the unit (`tracks_run`).
-/

open List

namespace SlotLang

variable {complete : Prop} {k : Nat} {limits : Limits} {m : Machine}

open Machine

variable {code other : List Instruction} {i : Instruction}

/-! ## Embedded code -/

/-- Code that stands in other code from a position on, perhaps on other lines. -/
structure Routine.EmbedsAt (offset : Nat) (r whole : Routine) : Prop where
  code : ∀ k i, r.code[k]? = some i → ∃ j, whole.code[offset + k]? = some j ∧ j.bare = i.bare
  labels : ∀ i ∈ r.code, i.opcode = .jump ∨ i.opcode = .jumpIf → ∀ label, i.label? = some label →
    whole.labels.lookup label = (r.labels.lookup label).map (offset + ·)
  targets : ∀ label k, r.labels.lookup label = some k → k ≤ r.code.size

/-- An activation of embedded code. -/
structure Activation.Mirrors (offset : Nat) (a b : Activation) : Prop where
  routine : a.routine.EmbedsAt offset b.routine
  locals : b.locals = a.locals
  args : b.args = a.args
  pc : b.pc = offset + a.pc
  bounded : a.pc ≤ a.routine.code.size

namespace Activation.Mirrors

variable {offset : Nat} {a b : Activation} (mirrors : a.Mirrors offset b)

include mirrors

theorem goto {k : Nat} (bound : k ≤ a.routine.code.size) :
    { a with pc := k }.Mirrors offset { b with pc := offset + k } :=
  ⟨mirrors.routine, mirrors.locals, mirrors.args, rfl, bound⟩

theorem write (slot : Operand) (v : Value) : (a.write slot v).Mirrors offset (b.write slot v) := by
  cases slot with
  | var n => exact ⟨mirrors.routine, by simp [Activation.write, mirrors.locals], mirrors.args,
      mirrors.pc, mirrors.bounded⟩
  | arg n => exact ⟨mirrors.routine, mirrors.locals, by simp [Activation.write, mirrors.args],
      mirrors.pc, mirrors.bounded⟩
  | global n | lit w => exact mirrors

theorem canWrite (slot : Operand) : b.canWrite slot = a.canWrite slot := by
  cases slot <;> simp [Activation.canWrite, mirrors.locals, mirrors.args]

theorem exists_current (current : a.current? = some i) :
    ∃ j, b.current? = some j ∧ j.bare = i.bare := by
  obtain ⟨j, there, same⟩ := mirrors.routine.code a.pc i current
  exact ⟨j, by rw [Activation.current?, mirrors.pc, there], same⟩

end Activation.Mirrors

/-! ## Laid-out code -/

theorem SameCode.labelTable_eq (same : SameCode code other) :
    labelTable code = labelTable other := by
  have inert (code : List Instruction) : labelTable code = labelTable (code.map Instruction.bare) := by
    rw [labelTable, labelTable, zipIdx_map, filterMap_map]
    rfl
  rw [inert code, inert other, same]

theorem SameCode.length_eq (same : SameCode code other) : code.length = other.length := by
  simpa using congrArg List.length same

theorem SameCode.exists_getElem? (same : SameCode code other) (here : other[k]? = some i) :
    ∃ j, code[k]? = some j ∧ j.bare = i.bare := by
  have bare : (code.map Instruction.bare)[k]? = some i.bare := by
    rw [same, getElem?_map, here]
    rfl
  rw [getElem?_map] at bare
  exact Option.map_eq_some_iff.1 bare

theorem labelTable_append (code behind : List Instruction) : labelTable (code ++ behind) =
    labelTable code ++ (labelTable behind).map fun e => (e.1, code.length + e.2) := by
  have shifted : behind.zipIdx (0 + code.length) =
      behind.zipIdx.map fun e => (e.1, code.length + e.2) := by
    rw [Nat.zero_add, ← Nat.add_zero code.length, ← map_snd_add_zipIdx_eq_zipIdx]
    refine map_congr_left fun e _ => ?_
    simp [Prod.map, Nat.add_comm]
  rw [labelTable, zipIdx_append, filterMap_append, shifted, filterMap_map, labelTable,
    labelTable, map_filterMap]
  congr 2
  funext e
  simp [Function.comp_def]

theorem lookup_map_snd {α β : Type} (f : α → β) (table : List (UInt32 × α)) (key : UInt32) :
    (table.map fun e => (e.1, f e.2)).lookup key = (table.lookup key).map f := by
  induction table with
  | nil => rfl
  | cons e table ih =>
    obtain ⟨other, a⟩ := e
    rw [map_cons, lookup_cons_ite, lookup_cons_ite, ih]
    split <;> rfl

theorem lookup_labelTable_le {label : UInt32} (found : (labelTable code).lookup label = some k) :
    k ≤ code.length := by
  obtain ⟨before, after, split, -⟩ := lookup_eq_some_iff.1 found
  have member : (label, k) ∈ labelTable code := split ▸ by simp
  obtain ⟨⟨i, position⟩, there, made⟩ := mem_filterMap.1 member
  obtain ⟨l, -, made⟩ := Option.map_eq_some_iff.1 made
  cases made
  exact Nat.le_of_lt (by simpa using (mem_zipIdx there).2.1)

theorem embedsAt_zero (same : SameCode code other) :
    (Routine.ofCode other).EmbedsAt 0 (Routine.ofCode code) where
  code k i here := by
    simp only [Routine.ofCode, getElem?_toArray, Nat.zero_add] at here ⊢
    exact same.exists_getElem? here
  labels i _ _ label _ := by
    simp [Routine.ofCode, same.labelTable_eq]
  targets label k found := by
    simpa [Routine.ofCode] using lookup_labelTable_le found

theorem embedsAt_append_left (sound : LabelsSound code) (behind : List Instruction) :
    (Routine.ofCode code).EmbedsAt 0 (Routine.ofCode (code ++ behind)) where
  code k i here := by
    simp only [Routine.ofCode, getElem?_toArray, Nat.zero_add] at here ⊢
    exact ⟨i, by rw [getElem?_append_left (List.getElem?_eq_some_iff.1 here).1, here], rfl⟩
  labels i member jumps label named := by
    have defined := sound.defined i (by simpa [Routine.ofCode] using member) jumps label named
    obtain ⟨before, j, after, first⟩ := exists_firstDefinition defined
    have known : (labelTable code).lookup label = some before.length := first.labelPosition?
    simp only [Routine.ofCode]
    rw [labelTable_append, lookup_append, known]
    simp
  targets label k found := by
    simpa [Routine.ofCode] using lookup_labelTable_le found

theorem embedsAt_append_right {front : List Instruction} (same : SameCode code other)
    (sound : LabelsSound other) (nodup : (definedLabels (front ++ code)).Nodup) :
    (Routine.ofCode other).EmbedsAt front.length (Routine.ofCode (front ++ code)) where
  code k i here := by
    simp only [Routine.ofCode, getElem?_toArray] at here ⊢
    rw [getElem?_append_right (Nat.le_add_right _ _), Nat.add_sub_cancel_left]
    exact same.exists_getElem? here
  labels i member jumps label named := by
    have defined := sound.defined i (by simpa [Routine.ofCode] using member) jumps label named
    have fresh : label ∉ definedLabels front := by
      rw [definedLabels, filterMap_append, ← definedLabels, ← definedLabels,
        same.definedLabels_eq] at nodup
      exact fun early => (nodup_append.1 nodup).2.2 label early label defined rfl
    have unknown : (labelTable front).lookup label = none := labelPosition?_eq_none fresh
    simp only [Routine.ofCode]
    rw [labelTable_append, lookup_append, unknown, Option.none_or, lookup_map_snd,
      same.labelTable_eq]
  targets label k found := by
    simpa [Routine.ofCode] using lookup_labelTable_le found

theorem Func.eq_of_bare {f g : Func} (same : g.bare = f.bare) : g.index = f.index ∧
    g.paramCount = f.paramCount ∧ g.localCount = f.localCount ∧ SameCode g.body f.body := by
  simp only [Func.bare, Func.mk.injEq, and_true] at same
  exact same

theorem mirrors_ofCall {c d : Callable} (same : d.func.bare = c.func.bare) (args : List Value)
    (entry entry' : Entry) :
    (Activation.ofCall c args entry).Mirrors 0 (Activation.ofCall d args entry') ∧
      (Activation.ofCall d args entry').routine.code.size =
        (Activation.ofCall c args entry).routine.code.size := by
  obtain ⟨-, -, locals, body⟩ := Func.eq_of_bare same
  simp only [Activation.ofCall, c.routine_eq, d.routine_eq]
  refine ⟨⟨embedsAt_zero body, by rw [locals], rfl, rfl, Nat.zero_le _⟩, ?_⟩
  simpa [Routine.ofCode] using body.length_eq

/-! ## Stacks -/

/-- Module code, and longer module code in which it stands. -/
structure Placement where
  unit : List Instruction
  whole : List Instruction
  offset : Nat
  embeds : (Routine.ofCode unit).EmbedsAt offset (Routine.ofCode whole)

def Activation.ofModuleAt (code : List Instruction) (pc : Nat) : Activation :=
  { Activation.ofModule code with pc }

theorem Activation.write_ofModuleAt (code : List Instruction) (pc : Nat) (slot : Operand) (v : Value) :
    (Activation.ofModuleAt code pc).write slot v = Activation.ofModuleAt code pc := by
  cases slot <;> simp [Activation.write, Activation.ofModuleAt, Activation.ofModule]

/-- Stacks of activations with module code lowest, and the functions called above it. -/
inductive Stacked (place : Placement) :
    Activation → List Activation → Activation → List Activation → Prop where
  | base {pc : Nat} (within : pc ≤ place.unit.length) :
    Stacked place (.ofModuleAt place.unit pc) [] (.ofModuleAt place.whole (place.offset + pc)) []
  | call {a b c d : Activation} {below under : List Activation} {slot : Operand} {line line' : Nat}
    (mirrors : a.Mirrors 0 b) (size : b.routine.code.size = a.routine.code.size)
    (entry : a.entry = .ofCall slot line) (entry' : b.entry = .ofCall slot line')
    (rest : Stacked place c below d under) : Stacked place a (c :: below) b (d :: under)

theorem Placement.mirrors (place : Placement) {pc : Nat} (within : pc ≤ place.unit.length) :
    (Activation.ofModuleAt place.unit pc).Mirrors place.offset
      (Activation.ofModuleAt place.whole (place.offset + pc)) :=
  ⟨place.embeds, rfl, rfl, rfl, within⟩

namespace Stacked

variable {place : Placement} {a b : Activation} {below under : List Activation}

theorem length_eq (stacked : Stacked place a below b under) : under.length = below.length := by
  induction stacked with
  | base => rfl
  | call _ _ _ _ _ ih => exact congrArg (· + 1) ih

theorem exists_mirrors (stacked : Stacked place a below b under) : ∃ k, a.Mirrors k b := by
  cases stacked with
  | base within => exact ⟨_, place.mirrors within⟩
  | call mirrors => exact ⟨0, mirrors⟩

theorem goto {k pc : Nat} (stacked : Stacked place a below b under) (mirrors : a.Mirrors k b)
    (within : pc ≤ a.routine.code.size) :
    Stacked place { a with pc } below { b with pc := k + pc } under := by
  -- the two positions tell where the code stands
  have offset : b.pc = k + a.pc := mirrors.pc
  cases stacked with
  | @base pc' _ =>
    have same : k = place.offset := by
      simp only [Activation.ofModuleAt] at offset
      omega
    subst same
    exact .base within
  | call mirrors' size entry entry' rest =>
    have same : k = 0 := by
      have zero := mirrors'.pc
      omega
    subst same
    exact .call (mirrors.goto within) size entry entry' rest

theorem write (stacked : Stacked place a below b under) (slot : Operand) (v : Value) :
    Stacked place (a.write slot v) below (b.write slot v) under := by
  cases stacked with
  | base within =>
    rw [Activation.write_ofModuleAt, Activation.write_ofModuleAt]
    exact .base within
  | call mirrors size entry entry' rest =>
    have kept (a : Activation) : (a.write slot v).routine = a.routine ∧
        (a.write slot v).entry = a.entry := by
      cases slot <;> exact ⟨rfl, rfl⟩
    refine .call (mirrors.write slot v) ?_ ((kept a).2.trans entry) ((kept b).2.trans entry') rest
    rw [(kept a).1, (kept b).1, size]

/-- A function ends on both sides. -/
theorem current?_eq_none (stacked : Stacked place a below b under) (inside : a.entry ≠ .ofModule)
    (ended : a.current? = none) : b.current? = none := by
  cases stacked with
  | base => exact absurd rfl inside
  | call mirrors size entry entry' rest =>
    rw [Activation.current?, Array.getElem?_eq_none_iff] at ended ⊢
    rwa [size, mirrors.pc, Nat.zero_add]

theorem eq_of_ended (stacked : Stacked place a below b under) (outside : a.entry = .ofModule)
    (ended : a.current? = none) :
    under = [] ∧ b = .ofModuleAt place.whole (place.offset + place.unit.length) := by
  cases stacked with
  | @base pc within =>
    have last : pc = place.unit.length := by
      rw [Activation.current?, Array.getElem?_eq_none_iff] at ended
      exact Nat.le_antisymm within ended
    exact ⟨rfl, by rw [last]⟩
  | call mirrors size entry entry' rest =>
    rw [entry] at outside
    cases outside

theorem entry_iff (stacked : Stacked place a below b under) :
    b.entry = .ofModule ↔ a.entry = .ofModule := by
  cases stacked with
  | base => exact ⟨fun _ => rfl, fun _ => rfl⟩
  | call mirrors size entry entry' rest => simp [entry, entry']

end Stacked

/-! ## Machines -/

/-- The functions of a unit are among those of the whole. If `complete`, these are all. -/
structure Covers (complete : Prop) (known all : SlotMap Callable) : Prop where
  found : ∀ index c, known.get? index = some c →
    ∃ d, all.get? index = some d ∧ d.func.bare = c.func.bare
  missing : complete → ∀ index, known.get? index = none → all.get? index = none

/-- A machine that runs a unit, and one that runs longer code which has printed something before. -/
structure Together (complete : Prop) (place : Placement) (printed : List Value)
    (m n : Machine) : Prop where
  globals : n.env.globals = m.env.globals
  funcs : Covers complete m.env.funcs n.env.funcs
  stacked : Stacked place m.top m.below n.top n.below
  outputs : n.outputs.toList = printed ++ m.outputs.toList
  gas : n.gas ≤ m.gas

/-- What an instruction of the unit amounts to, and what it amounts to in longer code from `k` on. -/
inductive Effect.Mirrors (k : Nat) (a : Activation) : Effect → Effect → Prop where
  | advance : Mirrors k a .advance .advance
  | write (slot : Operand) (v : Value) : Mirrors k a (.write slot v) (.write slot v)
  | output (v : Value) : Mirrors k a (.output v) (.output v)
  | jump {pc : Nat} (within : pc ≤ a.routine.code.size) : Mirrors k a (.jump pc) (.jump (k + pc))
  | enter {c d : Callable} (same : d.func.bare = c.func.bare) (args : List Value) (slot : Operand)
    (line line' : Nat) :
    Mirrors k a (.enter c args (.ofCall slot line)) (.enter d args (.ofCall slot line'))
  | leave (inside : a.entry ≠ .ofModule) (v : Value) : Mirrors k a (.leave v) (.leave v)

/-- Where the unit goes on, so does the longer code. It fails alike if it has no other functions. -/
def Follows (complete : Prop) (R : Effect → Effect → Prop) (x y : Except Fault Effect) : Prop :=
  match x with
  | .ok e => ∃ e', y = .ok e' ∧ R e e'
  | .error f => complete → ∃ f', y = .error f' ∧ f'.cause = f.cause

theorem follows_atLine {R : Effect → Effect → Prop} {x : Except Cause Effect} (i j : Instruction)
    (same : ∀ e, x = .ok e → R e e) : Follows complete R (atLine i x) (atLine j x) := by
  cases x with
  | ok e => exact ⟨e, rfl, same e rfl⟩
  | error c => exact fun _ => ⟨⟨c, j.line⟩, rfl, rfl⟩

theorem Instruction.eq_of_bare {j : Instruction} (same : j.bare = i.bare) :
    j = { i with line := j.line } := by
  simp only [Instruction.bare, Instruction.mk.injEq, and_true] at same
  rw [← same.1, ← same.2]

theorem Machine.exists_write_of_storing {v : Value} {e : Effect} (stored : m.storing i v = .ok e) :
    ∃ slot, e = .write slot v := by
  obtain ⟨slot, -, stored⟩ := bind_eq_ok.1 stored
  split at stored
  · cases stored
    exact ⟨slot, rfl⟩
  · cases stored

namespace Together

variable {place : Placement} {printed : List Value} {n : Machine}
  (together : Together complete place printed m n)

include together

theorem read_eq : n.read = m.read := by
  obtain ⟨k, mirrors⟩ := together.stacked.exists_mirrors
  funext o
  cases o <;> simp [Machine.read, Environment.global?, together.globals, mirrors.locals, mirrors.args]

theorem canWrite_eq : n.top.canWrite = m.top.canWrite := by
  obtain ⟨k, mirrors⟩ := together.stacked.exists_mirrors
  exact funext mirrors.canWrite

theorem depth_eq : n.depth = m.depth :=
  congrArg (· + 1) together.stacked.length_eq

theorem withGas {gas gas' : Nat} (fewer : gas' ≤ gas) :
    Together complete place printed { m with gas := gas } { n with gas := gas' } :=
  ⟨together.globals, together.funcs, together.stacked, together.outputs, fewer⟩

end Together

/-! ## Effects -/

section Effects

variable {place : Placement} {printed : List Value} {n : Machine}

theorem follows_jumping (mirrors : m.top.Mirrors k n.top) (member : i ∈ m.top.routine.code)
    (jumps : i.opcode = .jump ∨ i.opcode = .jumpIf) (line : Nat) :
    Follows complete (Effect.Mirrors k m.top) (atLine i (m.jumping i))
      (atLine { i with line } (n.jumping { i with line })) := by
  have label : ({ i with line } : Instruction).label? = i.label? := rfl
  unfold jumping
  rw [label]
  cases named : i.label? with
  | none => exact fun _ => ⟨_, rfl, rfl⟩
  | some label =>
    change Follows _ _ (atLine _ ((m.top.routine.labels.lookup label).elim _ _))
      (atLine _ ((n.top.routine.labels.lookup label).elim _ _))
    rw [mirrors.routine.labels i member jumps label named]
    cases found : m.top.routine.labels.lookup label with
    | none => exact fun _ => ⟨_, rfl, rfl⟩
    | some pc => exact ⟨_, rfl, .jump (mirrors.routine.targets label pc found)⟩

/-- The same function is called, or the call is refused for the same reason. -/
theorem follows_callee (funcs : Covers complete m.env.funcs n.env.funcs) (depth : Nat) (index : UInt32)
    (args : List Value) (slot : Operand) (line : Nat) :
    Follows complete (Effect.Mirrors k m.top)
      (atLine i (callee limits m.env depth index args.length >>= fun c =>
        .ok (.enter c args (.ofCall slot i.line))))
      (atLine { i with line } (callee limits n.env depth index args.length >>= fun c =>
        .ok (.enter c args (.ofCall slot line)))) := by
  unfold callee
  cases known : m.env.funcs.get? index with
  | none =>
    intro whole
    rw [funcs.missing whole index known]
    exact ⟨_, rfl, rfl⟩
  | some c =>
    obtain ⟨d, there, same⟩ := funcs.found index c known
    obtain ⟨-, params, -, -⟩ := Func.eq_of_bare same
    rw [there]
    dsimp only
    rw [params]
    by_cases count : args.length ≠ c.func.paramCount.toNat
    · rw [if_pos count, if_pos count]
      exact fun _ => ⟨_, rfl, rfl⟩
    · rw [if_neg count, if_neg count]
      by_cases full : limits.maxDepth ≤ depth
      · rw [if_pos full, if_pos full]
        exact fun _ => ⟨_, rfl, rfl⟩
      · rw [if_neg full, if_neg full]
        exact ⟨_, rfl, .enter same args slot _ _⟩

theorem follows_calling (together : Together complete place printed m n) (line : Nat) :
    Follows complete (Effect.Mirrors k m.top) (atLine i (m.calling limits i))
      (atLine { i with line } (n.calling limits { i with line })) := by
  have target : ({ i with line } : Instruction).callTarget? = i.callTarget? := rfl
  have operand : Machine.operand { i with line } 0 = Machine.operand i 0 := rfl
  unfold calling
  rw [target, operand, together.read_eq, together.depth_eq]
  cases Machine.operand i 0 with
  | error c => exact fun _ => ⟨_, rfl, rfl⟩
  | ok slot =>
    cases i.callTarget? with
    | none => exact fun _ => ⟨_, rfl, rfl⟩
    | some called =>
      obtain ⟨index, operands⟩ := called
      change Follows _ _ (atLine _ (operands.mapM m.read >>= _))
        (atLine _ (operands.mapM m.read >>= _))
      cases operands.mapM m.read with
      | error c => exact fun _ => ⟨_, rfl, rfl⟩
      | ok args => exact follows_callee together.funcs m.depth index args slot line

theorem follows_leaving (stacked : Stacked place m.top m.below n.top n.below)
    (inside : m.top.entry ≠ .ofModule) (v : Value) :
    Follows complete (Effect.Mirrors k m.top) (m.leaving v) (n.leaving v) := by
  unfold leaving
  generalize below : m.below = waiting at stacked
  generalize under : n.below = waiting' at stacked
  generalize top : n.top = b at stacked
  generalize m.top = a at stacked inside
  cases stacked with
  | base => exact absurd rfl inside
  | call mirrors size entry entry' rest =>
    obtain ⟨j, caller⟩ := rest.exists_mirrors
    rw [entry, entry']
    dsimp only
    rw [caller.canWrite]
    split
    · exact ⟨_, rfl, .leave inside v⟩
    · exact fun _ => ⟨_, rfl, rfl⟩

theorem follows_returning (together : Together complete place printed m n) (line : Nat) :
    Follows complete (Effect.Mirrors k m.top) (m.returning i) (n.returning { i with line }) := by
  have value : n.readOperand { i with line } 0 = m.readOperand i 0 := by
    simp only [readOperand, together.read_eq]
    rfl
  unfold returning
  rw [value]
  by_cases outside : m.top.entry = .ofModule
  · rw [if_pos outside, if_pos (together.stacked.entry_iff.2 outside)]
    exact fun _ => ⟨_, rfl, rfl⟩
  · rw [if_neg outside, if_neg (mt together.stacked.entry_iff.1 outside)]
    cases m.readOperand i 0 with
    | error c => exact fun _ => ⟨_, rfl, rfl⟩
    | ok v => exact follows_leaving together.stacked outside v

/-- An instruction does in longer code what it does in the unit. -/
theorem follows_effect (together : Together complete place printed m n)
    (mirrors : m.top.Mirrors k n.top) (member : i ∈ m.top.routine.code) (line : Nat) :
    Follows complete (Effect.Mirrors k m.top) (m.effect limits i) (n.effect limits { i with line }) := by
  obtain ⟨opcode, operands, line'⟩ := i
  have read := together.read_eq
  have canWrite := together.canWrite_eq
  cases opcode with
  | assign =>
    simp only [Machine.effect, readOperand, storing, read, canWrite]
    refine follows_atLine _ _ fun e done => ?_
    obtain ⟨v, -, stored⟩ := bind_eq_ok.1 done
    obtain ⟨slot, rfl⟩ := exists_write_of_storing stored
    exact .write slot v
  | binary op =>
    simp only [Machine.effect, readOperand, storing, read, canWrite]
    refine follows_atLine _ _ fun e done => ?_
    obtain ⟨x, -, done⟩ := bind_eq_ok.1 done
    obtain ⟨y, -, done⟩ := bind_eq_ok.1 done
    obtain ⟨v, -, stored⟩ := bind_eq_ok.1 done
    obtain ⟨slot, rfl⟩ := exists_write_of_storing stored
    exact .write slot v
  | not =>
    simp only [Machine.effect, readOperand, storing, read, canWrite]
    refine follows_atLine _ _ fun e done => ?_
    obtain ⟨x, -, stored⟩ := bind_eq_ok.1 done
    obtain ⟨slot, rfl⟩ := exists_write_of_storing stored
    exact .write slot _
  | label | defineFunc | blockClose => exact ⟨_, rfl, .advance⟩
  | jump => exact follows_jumping mirrors member (.inl rfl) line
  | jumpIf =>
    simp only [Machine.effect, readOperand, read]
    change Follows _ _ (atLine _ (Machine.operand ⟨.jumpIf, operands, line'⟩ 0 >>= m.read >>= _))
      (atLine _ (Machine.operand ⟨.jumpIf, operands, line'⟩ 0 >>= m.read >>= _))
    cases Machine.operand ⟨.jumpIf, operands, line'⟩ 0 >>= m.read with
    | error c => exact fun _ => ⟨_, rfl, rfl⟩
    | ok v =>
      change Follows _ _ (atLine _ (if v ≠ 0 then _ else _))
        (atLine _ (if v ≠ 0 then _ else _))
      by_cases zero : v = 0
      · rw [if_neg (not_not.2 zero), if_neg (not_not.2 zero)]
        exact ⟨_, rfl, .advance⟩
      · rw [if_pos zero, if_pos zero]
        exact follows_jumping mirrors member (.inr rfl) line
  | call => exact follows_calling together line
  | ret => exact follows_returning together line
  | output =>
    simp only [Machine.effect, readOperand, read]
    refine follows_atLine _ _ fun e done => ?_
    obtain ⟨v, -, printed⟩ := bind_eq_ok.1 done
    cases printed
    exact .output v

end Effects

/-! ## Rounds and runs -/

/-- A run that does not end for want of gas. -/
def Machine.Lasts (limits : Limits) (m : Machine) : Prop :=
  ∀ limit line n, m.run limits ≠ ⟨.error ⟨.gasExhausted limit, line⟩, n⟩

theorem Machine.Lasts.exists_gas (lasts : m.Lasts limits) (current : m.top.current? = some i) :
    ∃ gas, m.gas = gas + 1 := by
  cases paid : m.gas with
  | zero =>
    exact absurd (run_of_failed (round_unpaid current paid)) (lasts _ _ _)
  | succ gas => exact ⟨gas, rfl⟩

namespace Together

variable {place : Placement} {printed : List Value} {n : Machine}
  (together : Together complete place printed m n)

include together

theorem goto (mirrors : m.top.Mirrors k n.top) {pc : Nat} (within : pc ≤ m.top.routine.code.size) :
    Together complete place printed (m.goto pc) (n.goto (k + pc)) :=
  ⟨together.globals, together.funcs, together.stacked.goto mirrors within, together.outputs,
    together.gas⟩

theorem next (current : m.top.current? = some i) :
    Together complete place printed m.next n.next := by
  obtain ⟨k, mirrors⟩ := together.stacked.exists_mirrors
  have within : m.top.pc + 1 ≤ m.top.routine.code.size :=
    (Array.getElem?_eq_some_iff.1 current).1
  have moved := together.goto mirrors within
  rwa [← Nat.add_assoc, ← mirrors.pc] at moved

theorem write (slot : Operand) (v : Value) :
    Together complete place printed (m.write slot v) (n.write slot v) := by
  have stacked := together.stacked.write slot v
  cases slot with
  | global index =>
    exact ⟨congrArg (·.insert index v) together.globals, together.funcs, together.stacked,
      together.outputs, together.gas⟩
  | var index | arg index | lit w =>
    exact ⟨together.globals, together.funcs, stacked, together.outputs, together.gas⟩

/-- Both activations on top end, and the machines go on with their callers. -/
theorem leave (inside : m.top.entry ≠ .ofModule) (v : Value) : ∃ m' n',
    m.leave v = .running m' ∧ n.leave v = .running n' ∧ Together complete place printed m' n' := by
  obtain ⟨globals, funcs, stacked, outputs, gas⟩ := together
  unfold Machine.leave
  generalize m.below = below at stacked
  generalize n.below = under at stacked
  generalize n.top = b at stacked
  generalize m.top = a at stacked inside
  cases stacked with
  | base => exact absurd rfl inside
  | @call _ _ c d below under slot line line' mirrors size entry entry' rest =>
    rw [entry, entry']
    have callers : Together complete place printed { m with top := c, below }
        { n with top := d, below := under } := ⟨globals, funcs, rest, outputs, gas⟩
    exact ⟨_, _, rfl, rfl, callers.write slot v⟩

theorem perform (mirrors : m.top.Mirrors k n.top) (current : m.top.current? = some i)
    {e e' : Effect} (effects : Effect.Mirrors k m.top e e') : ∃ m' n',
    m.perform e = .running m' ∧ n.perform e' = .running n' ∧
      Together complete place printed m' n' := by
  have next := together.next current
  cases effects with
  | advance => exact ⟨_, _, rfl, rfl, next⟩
  | write slot v => exact ⟨_, _, rfl, rfl, next.write slot v⟩
  | output v =>
    refine ⟨_, _, rfl, rfl, next.globals, next.funcs, next.stacked, ?_, next.gas⟩
    simp [together.outputs]
  | jump within => exact ⟨_, _, rfl, rfl, together.goto mirrors within⟩
  | enter same args slot line line' =>
    obtain ⟨entered, size⟩ := mirrors_ofCall same args (.ofCall slot line) (.ofCall slot line')
    exact ⟨_, _, rfl, rfl, next.globals, next.funcs, .call entered size rfl rfl next.stacked,
      next.outputs, next.gas⟩
  | leave inside v => exact together.leave inside v

end Together

/-- How the run of the longer code continues after what the unit does: it goes on beside the unit, and
stands behind it when the unit has ended. -/
def Tracks (complete : Prop) (place : Placement) (printed : List Value) (limits : Limits) (n : Machine) :
    Status → Prop
  | .running m' => ∃ n', n.run limits = n'.run limits ∧ Together complete place printed m' n'
  | .finished _ m' => ∃ n', n.run limits = n'.run limits ∧ Together complete place printed m' n' ∧
      m'.top.entry = .ofModule ∧ m'.top.current? = none
  | .failed f m' => complete → ∃ f' n', n.run limits = ⟨.error f', n'⟩ ∧ f'.cause = f.cause ∧
      Together complete place printed m' n'

theorem Tracks.of_run_eq {place : Placement} {printed : List Value} {n n' : Machine}
    (same : n.run limits = n'.run limits) {status : Status}
    (tracks : Tracks complete place printed limits n' status) :
    Tracks complete place printed limits n status := by
  cases status <;> rwa [Tracks, same]

section Runs

variable {place : Placement} {printed : List Value} {n : Machine}

theorem tracks_of_running {m' n' : Machine} {status : Status} (here : status = .running m')
    (there : n.round limits = .running n') (together : Together complete place printed m' n') :
    Tracks complete place printed limits n status := by
  rw [here]
  exact ⟨n', run_of_running there, together⟩

/-- The end of the code. A function ends on both sides; module code may go on in the longer code. -/
theorem tracks_fallOff (together : Together complete place printed m n)
    (ended : m.top.current? = none) : Tracks complete place printed limits n m.fallOff := by
  unfold fallOff
  by_cases outside : m.top.entry = .ofModule
  · rw [if_pos outside]
    exact ⟨n, rfl, together, outside, ended⟩
  · rw [if_neg outside]
    have outside' : n.top.entry ≠ .ofModule := mt together.stacked.entry_iff.1 outside
    have falls : n.round limits = n.fallOff := by
      rw [Machine.round, together.stacked.current?_eq_none outside ended]
    rw [fallOff, if_neg outside'] at falls
    have follows : Follows complete (Effect.Mirrors 0 m.top) (m.leaving 0) (n.leaving 0) :=
      follows_leaving together.stacked outside 0
    rcases m.leaving_cases 0 with left | ⟨slot, line, unwritable⟩
    · rw [left] at follows ⊢
      obtain ⟨e', left', effects⟩ := follows
      cases effects
      rw [left'] at falls
      obtain ⟨m', n', here, there, together'⟩ := together.leave outside 0
      exact tracks_of_running here (falls.trans there) together'
    · rw [unwritable] at follows ⊢
      intro same
      obtain ⟨f', failed, cause⟩ := follows same
      rw [failed] at falls
      exact ⟨f', n, run_of_failed falls, cause, together⟩

/-- Every round of the unit has its counterpart in the longer code, if there is gas for it. -/
theorem tracks_round (together : Together complete place printed m n) (lasts : n.Lasts limits) :
    Tracks complete place printed limits n (m.round limits) := by
  unfold Machine.round
  cases current : m.top.current? with
  | none => exact tracks_fallOff together current
  | some i =>
    obtain ⟨k, mirrors⟩ := together.stacked.exists_mirrors
    obtain ⟨j, current', same⟩ := mirrors.exists_current current
    -- the longer code has less gas left than the unit, so what it can pay for the unit can
    obtain ⟨gas', paid'⟩ := lasts.exists_gas current'
    obtain ⟨gas, paid⟩ : ∃ gas, m.gas = gas + 1 := by
      have fewer := together.gas
      exact ⟨m.gas - 1, by omega⟩
    have fewer : gas' ≤ gas := by
      have fewer := together.gas
      omega
    have follows : Follows complete (Effect.Mirrors k m.top) (m.effect limits i)
        (n.effect limits j) := by
      rw [Instruction.eq_of_bare same]
      exact follows_effect together mirrors (Array.mem_of_getElem? current) j.line
    rw [paid]
    dsimp only
    cases done : m.effect limits i with
    | ok e =>
      rw [done] at follows
      obtain ⟨e', done', effects⟩ := follows
      obtain ⟨m', n', here, there, together'⟩ :=
        (together.withGas fewer).perform mirrors current effects
      have round := (round_of_ok current' paid' done').trans there
      exact tracks_of_running here round together'
    | error f =>
      rw [done] at follows
      intro same
      obtain ⟨f', failed, cause⟩ := follows same
      have round := round_of_error current' paid' failed
      exact ⟨f', n, run_of_failed round, cause, together⟩

/-- The longer code runs beside the unit up to its end. -/
theorem tracks_run (together : Together complete place printed m n) (lasts : n.Lasts limits) :
    Tracks complete place printed limits n (m.run limits).status := by
  refine (matched_run (R := fun m n => Together complete place printed m n ∧ n.Lasts limits)
    (M := fun n status => n.Lasts limits ∧ Tracks complete place printed limits n status)
    ?_ ?_ ⟨together, lasts⟩).2
  · rintro m n ⟨together, lasts⟩
    exact ⟨lasts, tracks_round together lasts⟩
  · rintro n m ⟨lasts, n', same, together⟩
    refine ⟨n', ⟨together, ?_⟩, fun status tracks => ⟨lasts, tracks.2.of_run_eq same⟩⟩
    unfold Machine.Lasts
    rwa [← same]

end Runs

end SlotLang
