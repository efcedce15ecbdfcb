import SlotLang.Proofs.Script.Arithmetic
import SlotLang.Proofs.Script.Scope

/-!
# The machine and the script side by side

A machine that runs a program and a state that runs its script are `Mirrored` if the globals and the
output agree, if each frame holds the slots of its activation, and if each frame stands where its
activation stands. Every round of the machine is matched by steps of the script (`mirrored_round`).
A round that fails is matched only if it fails to divide: reads of undefined globals, for one, can
go unnoticed in a script.
-/

open List

namespace SlotLang.Script

variable {p : Program} {b : Body} {mc : Machine} {name : String} {s : State} {term : Term}
  {f : Func} {limits : Limits} {ns : List Nat} {script : Script} {v : Int} {vs : List Value}

/-- Environment and output of a machine agree with variables and printed numbers. -/
structure Agrees (p : Program) (e : Environment) (outputs : Array Value) (vars : Variables)
    (printed : List Int) : Prop where
  globals : ∀ n, vars (Operand.global n).text = (e.global? n).map Int64.toInt
  funcs : ∀ f ∈ p.funcs, e.funcs.get? f.index = some (.ofFunc f)
  output : printed = outputs.toList.map Int64.toInt

/-- Variables hold values under the names of slots of one kind. -/
def HeldAs (slot : UInt32 → Operand) (values : Array Value) (vars : Variables) : Prop :=
  ∀ (n : UInt32) v, values[n.toNat]? = some v → vars (slot n).text = some v.toInt

/-- A frame holds the slots of an activation of a body. -/
structure Holds (p : Program) (b : Body) (a : Activation) (f : Frame) : Prop where
  body : b ∈ p.bodies
  runs : a.Runs b
  scope : Scoped b f.isLocal
  vars : HeldAs .var a.locals f.locals
  args : HeldAs .arg a.args f.locals

/-- What follows the statements of a body: a function returns zero. -/
def ending (inFunc : Bool) : List Stmt :=
  if inFunc then [.ret (.lit 0)] else []

def StandsAt (b : Body) (a : Activation) (f : Frame) : Prop :=
  Stands b.inFunc b.code (ending b.inFunc) a.pc f.code f.loops

/-- The waiting activations and frames, below an activation that was entered in a certain way. -/
inductive Waits (p : Program) : Entry → List Activation → List (Operand × Frame) → Prop where
  | main : Waits p .ofModule [] []
  | call {slot : Operand} {line : Nat} {caller : Activation} {below : List Activation}
    {frame : Frame} {callers : List (Operand × Frame)} {b : Body} (holds : Holds p b caller frame)
    (stands : StandsAt b caller frame) (waits : Waits p caller.entry below callers) :
    Waits p (.ofCall slot line) (caller :: below) ((slot, frame) :: callers)

/-- A machine and a state with the same slots, output and callers. -/
structure Paired (p : Program) (b : Body) (mc : Machine) (s : State) : Prop where
  agrees : Agrees p mc.env mc.outputs s.globals s.output
  holds : Holds p b mc.top s.frame
  waits : Waits p mc.top.entry mc.below s.callers

/-- A machine and a state in the same situation. -/
structure Mirrored (p : Program) (b : Body) (mc : Machine) (s : State) : Prop extends
    Paired p b mc s where
  stands : StandsAt b mc.top s.frame

namespace HeldAs

variable {slot : UInt32 → Operand} {values : Array Value} {vars : Variables}

/-- Setting a slot of the same kind. -/
theorem set (held : HeldAs slot values vars) {n : UInt32} (bound : n.toNat < values.size) (v : Value)
    (isSlot : ∀ k, (slot k).isSlot = true) (injective : ∀ j k, slot j = slot k → j = k) :
    HeldAs slot (values.setIfInBounds n.toNat v) (vars.set (slot n).text v.toInt) := by
  intro k w here
  rw [Array.getElem?_setIfInBounds] at here
  by_cases same : n = k
  · rw [if_pos (congrArg UInt32.toNat same), if_pos (same ▸ bound)] at here
    cases here
    rw [same]
    exact Variables.set_self _ _ _
  · have different : (slot k).text ≠ (slot n).text := fun equal =>
      same (injective _ _ (Operand.text_inj (isSlot k) (isSlot n) equal)).symm
    rw [if_neg (mt UInt32.toNat_inj.1 same)] at here
    rw [Variables.set_of_ne _ _ different]
    exact held k w here

/-- Setting a slot of another kind. -/
theorem set_other (held : HeldAs slot values vars) {other : Operand} (v : Int)
    (different : ∀ k, (slot k).text ≠ other.text) : HeldAs slot values (vars.set other.text v) := by
  intro k w here
  rw [Variables.set_of_ne _ _ (different k)]
  exact held k w here

end HeldAs

theorem var_text_ne_arg_text (k n : UInt32) : (Operand.var k).text ≠ (Operand.arg n).text :=
  fun equal => by cases Operand.text_inj rfl rfl equal

namespace Paired

variable {t : State}

/-- Slots have other names than `_pc`. -/
theorem of_alike (paired : Paired p b mc s) (alike : s.Alike t) : Paired p b mc t := by
  obtain ⟨agrees, holds, waits⟩ := paired
  refine ⟨⟨fun n => ?_, agrees.funcs, alike.output.trans agrees.output⟩,
    ⟨holds.body, holds.runs, alike.isLocal ▸ holds.scope, fun n v here => ?_, fun n v here => ?_⟩,
    alike.callers ▸ waits⟩
  · rw [alike.globals _ (Operand.text_ne_pcName rfl)]
    exact agrees.globals n
  · rw [alike.locals _ (Operand.text_ne_pcName rfl)]
    exact holds.vars n v here
  · rw [alike.locals _ (Operand.text_ne_pcName rfl)]
    exact holds.args n v here

theorem goto (paired : Paired p b mc s) (pc : Nat) : Paired p b (mc.goto pc) s :=
  ⟨paired.agrees,
    ⟨paired.holds.body, paired.holds.runs.goto pc, paired.holds.scope, paired.holds.vars,
      paired.holds.args⟩, paired.waits⟩

theorem lookup_of_isLocal {v : Int} (inner : s.frame.isLocal name = true)
    (here : s.frame.locals name = some v) : s.lookup name = .ok v := by
  unfold State.lookup
  rw [inner, if_pos rfl, here]

theorem read (paired : Paired p b mc s) {o : Operand} {v : Value} (value : mc.read o = .ok v) :
    s.operand o = .ok v.toInt := by
  obtain ⟨agrees, holds, -⟩ := paired
  cases o with
  | lit w =>
    cases value
    rfl
  | global n =>
    change s.lookup _ = _
    unfold State.lookup
    rw [holds.scope.global n, if_neg Bool.false_ne_true, agrees.globals n, elim_eq_ok.1 value]
    rfl
  | var n =>
    have here : mc.top.locals[n.toNat]? = some v := elim_eq_ok.1 value
    have bound : n.toNat < b.varCount := holds.runs.locals ▸ (Array.getElem?_eq_some_iff.1 here).1
    exact lookup_of_isLocal (holds.scope.var n bound) (holds.vars n v here)
  | arg n =>
    have here : mc.top.args[n.toNat]? = some v := elim_eq_ok.1 value
    have bound : n.toNat < b.argCount := holds.runs.args ▸ (Array.getElem?_eq_some_iff.1 here).1
    exact lookup_of_isLocal (holds.scope.arg n bound) (holds.args n v here)

theorem readAll (paired : Paired p b mc s) {os : List Operand} {vs : List Value}
    (values : os.mapM mc.read = .ok vs) : os.mapM s.operand = .ok (vs.map Int64.toInt) := by
  refine mapM_eq_ok.2 (forall₂_map_right_iff.2 ?_)
  exact (mapM_eq_ok.1 values).imp fun _ _ value => paired.read value

/-- Writing a slot on both sides keeps them paired. -/
theorem write (paired : Paired p b mc s) {slot : Operand} (writable : mc.top.canWrite slot = true)
    (v : Value) : Paired p b (mc.write slot v) (s.assign slot.text v.toInt) := by
  obtain ⟨agrees, holds, waits⟩ := paired
  cases slot with
  | lit w => cases writable
  | global n =>
    rw [State.assign_of_not_isLocal (holds.scope.global n)]
    refine ⟨⟨fun k => ?_, agrees.funcs, agrees.output⟩, holds, waits⟩
    change s.globals.set _ _ _ = ((mc.env.setGlobal n v).global? k).map _
    rw [Environment.global?_setGlobal]
    by_cases same : k = n
    · rw [if_pos same, same]
      exact Variables.set_self _ _ _
    · have different : (Operand.global k).text ≠ (Operand.global n).text := fun equal =>
        same (Operand.global.inj (Operand.text_inj rfl rfl equal))
      rw [if_neg same, Variables.set_of_ne _ _ different]
      exact agrees.globals k
  | var n =>
    have bound : n.toNat < mc.top.locals.size := of_decide_eq_true writable
    rw [State.assign_of_isLocal (holds.scope.var n (holds.runs.locals ▸ bound))]
    exact ⟨agrees, ⟨holds.body, holds.runs.write (.var n) v, holds.scope,
      holds.vars.set bound v (fun _ => rfl) (fun _ _ => Operand.var.inj),
      holds.args.set_other _ fun k => (var_text_ne_arg_text n k).symm⟩, waits⟩
  | arg n =>
    have bound : n.toNat < mc.top.args.size := of_decide_eq_true writable
    rw [State.assign_of_isLocal (holds.scope.arg n (holds.runs.args ▸ bound))]
    exact ⟨agrees, ⟨holds.body, holds.runs.write (.arg n) v, holds.scope,
      holds.vars.set_other _ fun k => var_text_ne_arg_text k n,
      holds.args.set bound v (fun _ => rfl) (fun _ _ => Operand.arg.inj)⟩, waits⟩

end Paired

theorem Mirrored.write (mirrored : Mirrored p b mc s) {slot : Operand}
    (writable : mc.top.canWrite slot = true) (v : Value) :
    Mirrored p b (mc.write slot v) (s.assign slot.text v.toInt) := by
  refine ⟨mirrored.toPaired.write writable v, ?_⟩
  have pc : (mc.write slot v).top.pc = mc.top.pc := by
    cases slot <;> rfl
  unfold StandsAt
  rw [pc, (s.code_assign _ _).1, (s.code_assign _ _).2]
  exact mirrored.stands

/-! ## Steps -/

/-- Where the script is after a round of the machine. -/
def Matched (p : Program) (s : State) : Status → Prop
  | .running mc => ∃ b t, Reaches (State.run (ofProgram p)) s t ∧ Mirrored p b mc t
  | .finished _ mc => ∃ t, Ends (State.run (ofProgram p)) s (.finished, t) ∧
      Agrees p mc.env mc.outputs t.globals t.output
  | .failed f mc => ∀ e, exception? f.cause = some e →
      ∃ t, Ends (State.run (ofProgram p)) s (.raised e, t) ∧
        Agrees p mc.env mc.outputs t.globals t.output

theorem Matched.of_reaches {t : State} {status : Status}
    (reaches : Reaches (State.run (ofProgram p)) s t) (matched : Matched p t status) :
    Matched p s status := by
  cases status with
  | running mc =>
    obtain ⟨b, u, onward, mirrored⟩ := matched
    exact ⟨b, u, reaches.trans onward, mirrored⟩
  | finished v mc =>
    obtain ⟨u, ends, agrees⟩ := matched
    exact ⟨u, reaches.ends ends, agrees⟩
  | failed f mc =>
    intro e raised
    obtain ⟨u, ends, agrees⟩ := matched e raised
    exact ⟨u, reaches.ends ends, agrees⟩

theorem step_assign (script : Script) (s : State) (dest : Operand)
    (plain : ∀ f args, term ≠ .call f args) (rest : List Stmt)
    (loops : List (List Stmt × List Stmt)) :
    (s.facing (.assign dest term :: rest) loops).step script =
      (s.facing (.assign dest term :: rest) loops).withValue (s.term term) fun v =>
        .running ((s.assign dest.text v).facing rest loops) := by
  have assigned : ∀ v, ((s.facing (.assign dest term :: rest) loops).assign dest.text v).goOn rest =
      (s.assign dest.text v).facing rest loops := by
    intro v
    rw [State.assign_facing]
    rfl
  simp only [← assigned]
  cases term with
  | call f args => exact absurd rfl (plain f args)
  | _ => rfl

theorem reaches_assign (dest : Operand) (value : s.term term = .ok v) (rest : List Stmt)
    (loops : List (List Stmt × List Stmt)) :
    Reaches (State.run script) (s.facing (.assign dest term :: rest) loops)
      ((s.assign dest.text v).facing rest loops) := by
  have plain : ∀ f args, term ≠ .call f args := by
    rintro f args rfl
    cases value
  refine reaches_of_step ?_
  rw [step_assign script s dest plain, value]
  rfl

theorem ends_assign {e : Exception} {dest : Operand} (plain : ∀ f args, term ≠ .call f args)
    (value : s.term term = .error e) (rest : List Stmt) (loops : List (List Stmt × List Stmt)) :
    Ends (State.run script) (s.facing (.assign dest term :: rest) loops)
      (.raised e, s.facing (.assign dest term :: rest) loops) := by
  refine ends_of_raised ?_
  rw [step_assign script s dest plain, value]
  rfl

theorem ofBinary_ne_call (op : BinaryOp) (a b : Operand) (f : UInt32) (args : List Operand) :
    Term.ofBinary op a b ≠ .call f args := by
  cases op <;> nofun

/-! ## Entering a function -/

/-- The statements that set locals to zero. -/
def inits (ns : List Nat) : List Stmt :=
  ns.map fun n => .assign (.var (.ofNat n)) (.operand (.lit 0))

/-- The variables after some locals were set to zero. -/
def Variables.zeroed (vars : Variables) (ns : List Nat) : Variables :=
  ns.foldl (fun vars n => vars.set (Operand.var (.ofNat n)).text 0) vars

theorem Variables.zeroed_of_zero {vars : Variables} (zero : vars name = some 0) (ns : List Nat) :
    vars.zeroed ns name = some 0 := by
  induction ns generalizing vars with
  | nil => exact zero
  | cons n ns ih =>
    refine ih ?_
    by_cases same : name = (Operand.var (.ofNat n)).text
    · rw [same]
      exact Variables.set_self _ _ _
    · exact (Variables.set_of_ne _ _ same).trans zero

theorem Variables.zeroed_of_mem (vars : Variables) {n : Nat} (member : n ∈ ns) :
    vars.zeroed ns (Operand.var (.ofNat n)).text = some 0 := by
  induction ns generalizing vars with
  | nil => cases member
  | cons m ns ih =>
    rcases mem_cons.1 member with rfl | later
    · exact Variables.zeroed_of_zero (Variables.set_self _ _ _) ns
    · exact ih _ later

theorem Variables.zeroed_of_ne (vars : Variables) (ns : List Nat)
    (other : ∀ n, name ≠ (Operand.var n).text) : vars.zeroed ns name = vars name := by
  induction ns generalizing vars with
  | nil => rfl
  | cons n ns ih => exact (ih _).trans (Variables.set_of_ne _ _ (other _))

theorem reaches_inits (script : Script)
    (inner : ∀ n ∈ ns, s.frame.isLocal (Operand.var (.ofNat n)).text = true) (rest : List Stmt) :
    Reaches (State.run script) (s.facing (inits ns ++ rest) [])
      (({ s with frame := { s.frame with locals := s.frame.locals.zeroed ns } } : State).facing
        rest []) := by
  induction ns generalizing s with
  | nil => exact .refl _ _
  | cons n ns ih =>
    have first : Reaches (State.run script) (s.facing (inits (n :: ns) ++ rest) [])
        ((s.assign (Operand.var (.ofNat n)).text 0).facing (inits ns ++ rest) []) :=
      reaches_assign _ rfl _ _
    rw [State.assign_of_isLocal (inner n mem_cons_self)] at first
    refine first.trans (ih fun m member => ?_)
    exact inner m (mem_cons_of_mem _ member)

theorem lookup_zip {names : List String} {vs : List Int} (nodup : names.Nodup) {k : Nat}
    (named : names[k]? = some name) (value : vs[k]? = some v) :
    (names.zip vs).lookup name = some v := by
  induction names generalizing vs k with
  | nil => simp at named
  | cons first names ih =>
    cases vs with
    | nil => simp at value
    | cons w vs =>
      rw [nodup_cons] at nodup
      rw [zip_cons_cons, lookup_cons_ite]
      cases k with
      | zero =>
        cases named
        rw [if_pos rfl]
        exact value
      | succ k =>
        have different : name ≠ first := fun same => nodup.1 (same ▸ mem_of_getElem? named)
        rw [if_neg different]
        exact ih nodup.2 named value

/-- The frame of a call holds the arguments. -/
theorem heldAs_params (count : vs.length = f.paramCount.toNat) :
    HeldAs .arg vs.toArray ((Def.ofFunc f).frame (vs.map Int64.toInt)).locals := by
  intro n v here
  rw [getElem?_toArray] at here
  have bound : n.toNat < f.paramCount.toNat := count ▸ (List.getElem?_eq_some_iff.1 here).1
  refine lookup_zip (nodup_params _) (k := n.toNat) ?_ (by rw [getElem?_map, here]; rfl)
  change ((List.range f.paramCount.toNat).map _)[n.toNat]? = _
  rw [getElem?_map, getElem?_range bound]
  rfl

theorem mirrored_enter (sound : p.Sound 0) (mirrored : Mirrored p b mc s) (member : f ∈ p.funcs)
    (count : vs.length = f.paramCount.toNat) (dest : Operand) (line : Nat) :
    ∃ b' u, Reaches (State.run (ofProgram p))
        { s with frame := (Def.ofFunc f).frame (vs.map Int64.toInt)
                 callers := (dest, s.frame) :: s.callers } u ∧
      Mirrored p b' { mc with top := .ofCall (.ofFunc f) vs (.ofCall dest line)
                              below := mc.top :: mc.below } u := by
  let called : State :=
    { s with frame := (Def.ofFunc f).frame (vs.map Int64.toInt)
             callers := (dest, s.frame) :: s.callers }
  have scope : Scoped f.toBody (Def.ofFunc f).isLocal := scoped_ofFunc (sound.funcs f member).shaped
  have inner : ∀ n ∈ List.range f.localCount.toNat,
      called.frame.isLocal (Operand.var (.ofNat n)).text = true := by
    intro n range
    refine scope.var (.ofNat n) ?_
    have bound : n < f.localCount.toNat := mem_range.1 range
    rwa [UInt32.toNat_ofNat_of_lt' (Nat.lt_trans bound f.localCount.toNat_lt)]
  have zeroed := reaches_inits (ofProgram p) inner (bodyStmts true f.body ++ ending true)
  let start : State :=
    { called with frame := { called.frame with
      locals := called.frame.locals.zeroed (List.range f.localCount.toNat) } }
  obtain ⟨u, now, loops, reaches, alike, stands⟩ :=
    stands_of_body (ofProgram p) start true f.body (ending true)
  refine ⟨f.toBody, u.facing now loops, zeroed.trans reaches, Paired.of_alike (s := start) ?_
    (alike.facing now loops), stands⟩
  refine ⟨mirrored.agrees, ?_, .call mirrored.holds mirrored.stands mirrored.waits⟩
  refine ⟨Program.toBody_mem member, Activation.runs_ofCall count (by simp), scope, ?_, ?_⟩
  · intro n v here
    change (Array.replicate f.localCount.toNat (0 : Value))[n.toNat]? = some v at here
    rw [Array.getElem?_replicate] at here
    by_cases bound : n.toNat < f.localCount.toNat
    · rw [if_pos bound] at here
      cases here
      have zero := called.frame.locals.zeroed_of_mem (mem_range.2 bound)
      rwa [UInt32.ofNat_toNat] at zero
    · rw [if_neg bound] at here
      cases here
  · intro n v here
    change called.frame.locals.zeroed _ _ = _
    rw [Variables.zeroed_of_ne _ _ fun k => (var_text_ne_arg_text k n).symm]
    exact heldAs_params count n v here

theorem def?_ofProgram (p : Program) (index : UInt32) :
    (ofProgram p).def? index = (p.func? index).map Def.ofFunc := by
  change (p.funcs.map Def.ofFunc).find? _ = _
  rw [find?_map]
  rfl

/-! ## Leaving a function -/

theorem matched_leave {v : Value} (agrees : Agrees p mc.env mc.outputs s.globals s.output)
    (waits : Waits p mc.top.entry mc.below s.callers) (inside : mc.top.entry ≠ .ofModule)
    (left : mc.leaving v = .ok (.leave v)) (leaves : s.step (ofProgram p) = s.ret v.toInt) :
    Matched p s (mc.leave v) := by
  generalize entryEq : mc.top.entry = entry at waits inside
  generalize belowEq : mc.below = below at waits
  generalize callersEq : s.callers = callers at waits
  cases waits with
  | main => exact absurd rfl inside
  | @call slot line caller rest frame callers b holds stands waits =>
    have writable : caller.canWrite slot = true := by
      by_contra unwritable
      rw [Machine.leaving, entryEq, belowEq] at left
      change (if caller.canWrite slot = true then _ else _) = _ at left
      rw [if_neg unwritable] at left
      cases left
    rw [Machine.leave, entryEq, belowEq]
    rw [State.ret, callersEq] at leaves
    have mirrored : Mirrored p b { mc with top := caller, below := rest } { s with frame, callers } :=
      ⟨⟨agrees, holds, waits⟩, stands⟩
    exact ⟨b, _, reaches_of_step leaves, mirrored.write writable v⟩

/-! ## Rounds -/

/-- Both sides stand behind an instruction whose statements the script still has to run. -/
structure Poised (p : Program) (b : Body) (mc : Machine) (t : State) (i : Instruction)
    (rest : List Stmt) (loops : List (List Stmt × List Stmt)) : Prop where
  paired : Paired p b mc t
  stands : Stands b.inFunc b.code (ending b.inFunc) (mc.top.pc + 1) rest loops
  member : i ∈ b.code

namespace Poised

variable {t : State} {i : Instruction} {rest : List Stmt} {loops : List (List Stmt × List Stmt)}

/-- Both sides after an instruction that only goes on. -/
theorem next (poised : Poised p b mc t i rest loops) : Mirrored p b mc.next (t.facing rest loops) :=
  ⟨(poised.paired.of_alike ((State.Alike.refl t).facing rest loops)).goto _, poised.stands⟩

theorem store (poised : Poised p b mc t i rest loops) {dest : Operand} {v : Value}
    (value : t.term term = .ok v.toInt) (writable : mc.top.canWrite dest = true) :
    Matched p (t.facing (.assign dest term :: rest) loops) (.running (mc.next.write dest v)) := by
  refine ⟨b, _, reaches_assign dest value rest loops, ?_⟩
  rw [← State.assign_facing]
  exact poised.next.write writable v

theorem jump (poised : Poised p b mc t i rest loops) {label : UInt32} (labelled : i.label? = some label)
    (steered : hasControl b.code = true) {pc : Nat}
    (target : mc.top.routine.labels.lookup label = some pc) :
    Matched p (t.facing (jumpStmts (tableOf b.code) i ++ rest) loops) (.running (mc.goto pc)) := by
  rw [poised.paired.holds.runs.lookup] at target
  obtain ⟨k, segment, bound, split⟩ := Assembly.segment_of_position target
  rw [← segments_eq_segments] at bound split
  have stmts : jumpStmts (tableOf b.code) i = [.setPc k, .again] := by
    rw [jumpStmts, labelled, tableOf, steered, if_pos rfl]
    simp only [Option.getD_some, lookup_segmentOfLabel, segment]
  rw [stmts, poised.stands.loops_eq steered]
  obtain ⟨u, now, reaches, alike, stands⟩ :=
    stands_of_jump (ofProgram p) t b.inFunc (ending b.inFunc) rest steered bound split
  exact ⟨b, _, reaches, (poised.paired.of_alike (alike.facing _ _)).goto pc, stands⟩

theorem call (poised : Poised p b mc t i rest loops) (sound : p.Sound 0) {index : UInt32}
    {args : List Operand} {vs : List Value} {c : Callable}
    (target : i.callTarget? = some (index, args)) (values : args.mapM mc.read = .ok vs)
    (entered : Machine.callee limits mc.env mc.depth index vs.length = .ok c) (dest : Operand)
    (line : Nat) : Matched p (t.facing (.assign dest (.call index args) :: rest) loops)
      (mc.perform (.enter c vs (.ofCall dest line))) := by
  have paired := poised.paired
  obtain ⟨f, member, known, rfl⟩ :=
    sound.func?_call (Program.mem_allCode paired.holds.body poised.member) target
  obtain ⟨found, count, -⟩ := Machine.callee_ok entered
  rw [paired.agrees.funcs f member, Option.some.injEq] at found
  subst found
  obtain ⟨b', u, reaches, mirrored⟩ := mirrored_enter sound poised.next member count dest line
  refine ⟨b', u, (reaches_of_step ?_).trans reaches, mirrored⟩
  change State.call _ _ _ _ _ _ = _
  have read : args.mapM (t.facing (.assign dest (.call f.index args) :: rest) loops).operand =
      .ok (vs.map Int64.toInt) := paired.readAll values
  have fits : ¬ (vs.map Int64.toInt).length ≠ (Def.ofFunc f).paramCount.toNat := by
    rw [length_map]
    exact not_not_intro count
  rw [State.call, def?_ofProgram, known, Option.map_some]
  dsimp only
  rw [read]
  exact if_neg fits

theorem matched_of_does (poised : Poised p b mc t i rest loops) (sound : p.Sound 0) {e : Effect}
    (does : Machine.Does limits mc i e) :
    Matched p (t.facing (instructionStmts (tableOf b.code) b.inFunc i ++ rest) loops)
      (mc.perform e) := by
  have paired := poised.paired
  cases does with
  | assign value writable => exact poised.store (paired.read value) writable
  | @binary op dest a b' line x y v left right result writable =>
    have value := term_follows op (paired.read left) (paired.read right)
    rw [result] at value
    exact poised.store value writable
  | @not dest a line v value writable =>
    refine poised.store ?_ writable
    change (do return ofBool ((← t.operand a) = 0)) = _
    rw [paired.read value, ← ofBool_eq_toInt, ← decide_eq_decide.2 toInt_eq_zero]
    rfl
  | label => exact ⟨b, _, reaches_of_step rfl, poised.next⟩
  | @jump v line pc target =>
    have steered : hasControl b.code = true := any_eq_true.2 ⟨_, poised.member, rfl⟩
    exact poised.jump rfl steered target
  | @taken a v c line pc value nonzero target =>
    have steered : hasControl b.code = true := any_eq_true.2 ⟨_, poised.member, rfl⟩
    refine .of_reaches (reaches_of_step ?_) (poised.jump rfl steered target)
    change State.withValue _ (t.operand a) _ = _
    rw [paired.read value]
    change Progress.running (State.goOn _ (if c.toInt ≠ 0 then _ else _)) = _
    rw [if_pos (mt toInt_eq_zero.1 nonzero)]
    rfl
  | @skipped a v line value =>
    refine ⟨b, _, reaches_of_step ?_, poised.next⟩
    change State.withValue _ (t.operand a) _ = _
    rw [paired.read value]
    rfl
  | call values entered => exact poised.call sound rfl values entered _ _
  | @ret a line v inside value left =>
    have inFunc : b.inFunc = true :=
      Bool.of_not_eq_false (mt paired.holds.runs.entry.2 inside)
    refine matched_leave paired.agrees paired.waits inside left ?_
    rw [inFunc]
    change State.withValue _ (t.operand a) _ = _
    rw [paired.read value]
    rfl
  | @output a line v value =>
    refine ⟨b, { t.facing rest loops with output := t.output ++ [v.toInt] }, reaches_of_step ?_, ?_⟩
    · change State.withValue _ (t.operand a) _ = _
      rw [paired.read value]
      rfl
    · obtain ⟨⟨agrees, holds, waits⟩, stands⟩ := poised.next
      refine ⟨⟨⟨agrees.globals, agrees.funcs, ?_⟩, holds, waits⟩, stands⟩
      change t.output ++ [v.toInt] = (mc.outputs.push v).toList.map _
      rw [Array.toList_push, map_append, paired.agrees.output]
      rfl

/-- Instructions that fail to divide raise; the other failures are left open. -/
theorem matched_of_fails (poised : Poised p b mc t i rest loops) {cause : Cause} (line : Nat)
    (fails : Machine.Fails limits mc i cause) :
    Matched p (t.facing (instructionStmts (tableOf b.code) b.inFunc i ++ rest) loops)
      (.failed ⟨cause, line⟩ mc) := by
  have paired := poised.paired
  have unread : ∀ {o : Operand}, mc.read o = .error cause → exception? cause = none := by
    intro o value
    rcases Machine.read_error value with rfl | ⟨n, -, rfl⟩ <;> rfl
  have none_raised : exception? cause = none →
      Matched p (t.facing (instructionStmts (tableOf b.code) b.inFunc i ++ rest) loops)
        (.failed ⟨cause, line⟩ mc) := by
    intro nothing e raised
    cases nothing.symm.trans raised
  cases fails with
  | @apply op dest a b' line' x y c left right result =>
    have value := term_follows op (paired.read left) (paired.read right)
    rw [result] at value
    obtain ⟨e, raised, value⟩ := value
    intro e' raised'
    cases raised.symm.trans raised'
    exact ⟨_, ends_assign (ofBinary_ne_call op a b') value rest loops, paired.agrees⟩
  | assign value | left value | right _ value | not value | condition value | ret _ value
  | output value => exact none_raised (unread value)
  | args values =>
    obtain ⟨o, -, value⟩ := exists_of_mapM_eq_error values
    exact none_raised (unread value)
  | callee values refused =>
    rcases Machine.callee_error refused with rfl | ⟨expected, rfl⟩ | rfl <;> exact none_raised rfl
  | @leaving a line' v f inside value unwritable =>
    rcases mc.leaving_cases v with left | ⟨slot, line, error⟩
    · cases left.symm.trans unwritable
    · cases error.symm.trans unwritable
      exact none_raised rfl
  | store | jump | jumpIf | outside => exact none_raised rfl

end Poised

theorem Mirrored.poised (mirrored : Mirrored p b mc s) {i : Instruction}
    (here : b.code[mc.top.pc]? = some i) : ∃ t rest, Reaches (State.run (ofProgram p)) s
        (t.facing (instructionStmts (tableOf b.code) b.inFunc i ++ rest) s.frame.loops) ∧
      Poised p b mc t i rest s.frame.loops := by
  obtain ⟨t, rest, reaches, alike, stands⟩ := mirrored.stands.current (ofProgram p) (s := s) here
  exact ⟨t, rest, reaches, mirrored.toPaired.of_alike alike, stands, mem_of_getElem? here⟩

theorem matched_fallOff (mirrored : Mirrored p b mc s) (ended : b.code.length ≤ mc.top.pc) :
    Matched p s mc.fallOff := by
  obtain ⟨t, passed, alike⟩ := mirrored.stands.atEnd (ofProgram p) (s := s) ended
  refine .of_reaches passed ?_
  have paired := mirrored.toPaired.of_alike (alike.facing (ending b.inFunc) [])
  unfold Machine.fallOff
  cases inFunc : b.inFunc with
  | false =>
    have entry : mc.top.entry = .ofModule := paired.holds.runs.entry.2 inFunc
    rw [if_pos entry]
    have waits := paired.waits
    rw [entry] at waits
    generalize below : mc.below = activations at waits
    generalize callers : (t.facing (ending b.inFunc) []).callers = frames at waits
    cases waits with
    | main =>
      refine ⟨_, ends_of_finished ?_, paired.agrees⟩
      have callers : t.callers = [] := callers
      simp [State.step, State.facing, ending, callers, inFunc]
  | true =>
    have inside : mc.top.entry ≠ .ofModule := fun entry => by
      cases inFunc.symm.trans (paired.holds.runs.entry.1 entry)
    rw [if_neg inside]
    rcases mc.leaving_cases 0 with left | ⟨slot, line, unwritable⟩
    · rw [left]
      exact matched_leave paired.agrees paired.waits inside left rfl
    · rw [unwritable]
      intro e raised
      cases raised

theorem mirrored_round (sound : p.Sound 0) (mirrored : Mirrored p b mc s) :
    Matched p s (mc.round limits) := by
  have current := mirrored.holds.runs.current?
  unfold Machine.round
  cases here : b.code[mc.top.pc]? with
  | none =>
    rw [current, here]
    exact matched_fallOff mirrored (List.getElem?_eq_none_iff.1 here)
  | some i =>
    rw [current, here]
    cases paid : mc.gas with
    | zero =>
      intro e raised
      cases raised
    | succ gas =>
      obtain ⟨t, rest, reaches, here⟩ := mirrored.poised here
      have shaped : i.Shaped := sound.shaped (Program.mem_allCode mirrored.holds.body here.member)
      have answers := Machine.effect_answers limits mc shaped
      have poised : ∀ gas, Poised p b { mc with gas } t i rest s.frame.loops :=
        fun gas => ⟨⟨here.paired.agrees, here.paired.holds, here.paired.waits⟩, here.stands, here.member⟩
      refine .of_reaches reaches ?_
      dsimp only
      cases done : mc.effect limits i with
      | ok e =>
        rw [done] at answers
        exact (poised gas).matched_of_does sound (Machine.Does.withGas answers gas)
      | error f =>
        rw [done] at answers
        exact (poised mc.gas).matched_of_fails f.line answers

theorem mirrored_run (sound : p.Sound 0) (mirrored : Mirrored p b mc s) :
    Matched p s (mc.run limits).status := by
  refine Machine.matched_run (R := fun mc s => ∃ b, Mirrored p b mc s) ?_ ?_ ⟨b, mirrored⟩
  · rintro mc s ⟨b, mirrored⟩
    exact mirrored_round sound mirrored
  · rintro s mc ⟨b, t, reaches, mirrored⟩
    exact ⟨t, ⟨b, mirrored⟩, fun status => .of_reaches reaches⟩

end SlotLang.Script
