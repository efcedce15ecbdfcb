import SlotLang.Proofs.Assembly.Validity

/-!
# The machine and the module side by side

A machine that runs a program and a state that runs its module are `Mirrored` if they agree on the
globals and the output, if each activation stands where its frame stands with the same slots, and
if each waiting frame is about to store the result where the waiting call wants it. Every round of
the machine is matched by steps of the module (`mirrored_round`), and their number is bounded: labels
are different indices, so that there are only so many segments to pass or to enter.
-/

open List

namespace SlotLang.Assembly

variable {p : Program} {m : Module} {main : List Instr} {hosted : Bool} {b : Body} {f : Func}
  {index : UInt32} {k : Nat} {limits : Limits} {mc : Machine} {printed : List Value} {s t : State}
  {callers : List Frame} {dest : Operand} {label : UInt32} {n : Nat} {status : Status} {v : Value}

/-- A program with its valid module. -/
structure Linked (p : Program) (m : Module) (main : List Instr) : Prop where
  sound : p.Sound 0
  emitted : Emitted p m main
  valid : m.isValid = true

/-- The code after the body of a function returns zero. -/
def ending (inFunc : Bool) : List Instr :=
  if inFunc then [.const 0] else []

/-- Environment and output agree with a store, whose output began with `printed`. -/
structure Agrees (p : Program) (printed : List Value) (e : Environment) (outputs : Array Value)
    (store : Store) : Prop where
  size : store.globals.size = p.globalCount.toNat
  globals : ∀ n : UInt32, n.toNat < p.globalCount.toNat → e.global? n = store.globals[n.toNat]?
  funcs : ∀ f ∈ p.funcs, e.funcs.get? f.index = some (.ofFunc f)
  output : store.output.toList = printed ++ outputs.toList

/-- A frame stands where an activation of a body stands. -/
structure Mirrors (p : Program) (b : Body) (a : Activation) (f : Frame) : Prop where
  body : b ∈ p.bodies
  runs : a.Runs b
  vars : f.vars = a.locals
  args : f.args = a.args
  hasResult : f.hasResult = b.inFunc
  stack : f.stack = []
  stands : Stands (bodyContext p b.inFunc b.code) b.code (ending b.inFunc) a.pc f.code f.controls

/-- The waiting activations and frames, below an activation that was entered in a certain way; at
the bottom is a call from outside or module code. -/
inductive Waits (p : Program) : Bool → Entry → List Activation → List Frame → Prop where
  | main : Waits p false .ofModule [] []
  | host : Waits p true .ofHost [] []
  | call {hosted : Bool} {slot : Operand} {line : Nat} {caller : Activation} {below : List Activation}
    {frame : Frame} {rest : List Instr} {callers : List Frame} {b : Body}
    (mirrors : Mirrors p b caller { frame with code := rest })
    (code : frame.code = writeCode slot :: rest) (covered : (declaredBy p b).Covers slot)
    (isSlot : slot.isSlot = true) (waits : Waits p hosted caller.entry below callers) :
    Waits p hosted (.ofCall slot line) (caller :: below) (frame :: callers)

/-- A machine and a state in the same situation. -/
structure Mirrored (p : Program) (hosted : Bool) (printed : List Value) (b : Body) (mc : Machine)
    (s : State) : Prop where
  agrees : Agrees p printed mc.env mc.outputs s.store
  top : Mirrors p b mc.top s.frame
  waits : Waits p hosted mc.top.entry mc.below s.callers

theorem Waits.length_eq {entry : Entry} {below : List Activation}
    (waits : Waits p hosted entry below callers) : below.length = callers.length := by
  induction waits with
  | main => rfl
  | host => rfl
  | call _ _ _ _ _ ih => simp [ih]

namespace Mirrored

variable {o : Operand}

theorem read (mirrored : Mirrored p hosted printed b mc s) (covered : (declaredBy p b).Covers o) :
    ∃ v, mc.read o = .ok v ∧ s.value? o = some v := by
  cases o with
  | lit v => exact ⟨v, rfl, rfl⟩
  | global n =>
    have bound : n.toNat < s.store.globals.size := by
      rw [mirrored.agrees.size]
      exact covered
    have here : s.store.globals[n.toNat]? = some s.store.globals[n.toNat] :=
      Array.getElem?_eq_getElem bound
    refine ⟨s.store.globals[n.toNat], ?_, here⟩
    change (mc.env.global? n).elim _ _ = _
    rw [mirrored.agrees.globals n covered, here]
    rfl
  | var n =>
    have bound : n.toNat < mc.top.locals.size := by
      rw [mirrored.top.runs.locals]
      exact covered
    have here : mc.top.locals[n.toNat]? = some mc.top.locals[n.toNat] :=
      Array.getElem?_eq_getElem bound
    refine ⟨mc.top.locals[n.toNat], ?_, ?_⟩
    · change (mc.top.locals[n.toNat]?).elim _ _ = _
      rw [here]
      rfl
    · change s.frame.vars[n.toNat]? = _
      rw [mirrored.top.vars, here]
  | arg n =>
    have bound : n.toNat < mc.top.args.size := by
      rw [mirrored.top.runs.args]
      exact covered
    have here : mc.top.args[n.toNat]? = some mc.top.args[n.toNat] :=
      Array.getElem?_eq_getElem bound
    refine ⟨mc.top.args[n.toNat], ?_, ?_⟩
    · change (mc.top.args[n.toNat]?).elim _ _ = _
      rw [here]
      rfl
    · change s.frame.args[n.toNat]? = _
      rw [mirrored.top.args, here]

theorem value_of_read (mirrored : Mirrored p hosted printed b mc s) {v : Value}
    (covered : (declaredBy p b).Covers o) (value : mc.read o = .ok v) : s.value? o = some v := by
  obtain ⟨w, source, target⟩ := mirrored.read covered
  rw [source] at value
  cases value
  exact target

theorem read_ne_error (mirrored : Mirrored p hosted printed b mc s) {c : Cause}
    (covered : (declaredBy p b).Covers o) : mc.read o ≠ .error c := by
  obtain ⟨w, source, -⟩ := mirrored.read covered
  rw [source]
  exact nofun

theorem writable (mirrored : Mirrored p hosted printed b mc s) {slot : Operand}
    (covered : (declaredBy p b).Covers slot) (isSlot : slot.isSlot = true) :
    mc.top.canWrite slot = true ∧ s.hasSlot slot = true := by
  cases slot with
  | lit v => cases isSlot
  | global n =>
    refine ⟨rfl, decide_eq_true ?_⟩
    rw [mirrored.agrees.size]
    exact covered
  | var n =>
    refine ⟨decide_eq_true ?_, decide_eq_true ?_⟩
    · rw [mirrored.top.runs.locals]
      exact covered
    · rw [mirrored.top.vars, mirrored.top.runs.locals]
      exact covered
  | arg n =>
    refine ⟨decide_eq_true ?_, decide_eq_true ?_⟩
    · rw [mirrored.top.runs.args]
      exact covered
    · rw [mirrored.top.args, mirrored.top.runs.args]
      exact covered

/-- Writing a slot on both sides keeps them in the same situation. -/
theorem write (mirrored : Mirrored p hosted printed b mc s) (slot : Operand) (v : Value) :
    Mirrored p hosted printed b (mc.write slot v) (s.write slot v) := by
  cases slot with
  | lit w => exact mirrored
  | global n =>
    refine ⟨⟨?_, ?_, mirrored.agrees.funcs, mirrored.agrees.output⟩, mirrored.top, mirrored.waits⟩
    · exact (Array.size_setIfInBounds).trans mirrored.agrees.size
    · intro k bound
      change (mc.env.setGlobal n v).global? k = (s.store.globals.setIfInBounds n.toNat v)[k.toNat]?
      rw [Environment.global?_setGlobal, Array.getElem?_setIfInBounds, mirrored.agrees.size]
      by_cases same : k = n
      · subst same
        rw [if_pos rfl, if_pos rfl, if_pos bound]
      · have different : n.toNat ≠ k.toNat := fun equal => same (UInt32.toNat_inj.1 equal).symm
        rw [if_neg same, if_neg different]
        exact mirrored.agrees.globals k bound
  | var n =>
    have top := mirrored.top
    refine ⟨mirrored.agrees, ?_, mirrored.waits⟩
    refine ⟨top.body, top.runs.write (.var n) v, ?_, top.args, top.hasResult, top.stack, top.stands⟩
    exact congrArg (fun vars => vars.setIfInBounds n.toNat v) top.vars
  | arg n =>
    have top := mirrored.top
    refine ⟨mirrored.agrees, ?_, mirrored.waits⟩
    refine ⟨top.body, top.runs.write (.arg n) v, top.vars, ?_, top.hasResult, top.stack, top.stands⟩
    exact congrArg (fun args => args.setIfInBounds n.toNat v) top.args

end Mirrored

/-! ## Leaving -/

/-- Where the module is, after no more than `n` steps, when the machine has done a round. -/
def Matched (p : Program) (m : Module) (hosted : Bool) (printed : List Value) (n : Nat) (s : State) :
    Status → Prop
  | .running mc => ∃ b t, Reaches m n s t ∧ Mirrored p hosted printed b mc t
  | .finished v mc => v.isSome = hosted ∧ ∃ store, EndsIn m n s (.finished v) store ∧
      Agrees p printed mc.env mc.outputs store
  | .failed f mc => (∃ limit, f.cause = .gasExhausted limit) ∨
      ∃ trap store, trap? f.cause = some trap ∧ EndsIn m n s (.trapped trap) store ∧
        Agrees p printed mc.env mc.outputs store

theorem Matched.of_reaches (reaches : Reaches m k s t)
    (matched : Matched p m hosted printed n t status) :
    Matched p m hosted printed (k + n) s status := by
  cases status with
  | running mc =>
    obtain ⟨b, u, onward, mirrored⟩ := matched
    exact ⟨b, u, reaches.trans onward, mirrored⟩
  | finished v mc =>
    obtain ⟨valued, store, ends, agrees⟩ := matched
    exact ⟨valued, store, reaches.endsIn ends, agrees⟩
  | failed f mc =>
    rcases matched with exhausted | ⟨trap, store, same, ends, agrees⟩
    · exact .inl exhausted
    · exact .inr ⟨trap, store, same, reaches.endsIn ends, agrees⟩

theorem Matched.mono (matched : Matched p m hosted printed k s status) (more : k ≤ n) :
    Matched p m hosted printed n s status := by
  cases status with
  | running mc =>
    obtain ⟨b, t, reaches, mirrored⟩ := matched
    exact ⟨b, t, reaches.mono more, mirrored⟩
  | finished v mc =>
    obtain ⟨valued, store, ends, agrees⟩ := matched
    exact ⟨valued, store, ends.mono more, agrees⟩
  | failed f mc =>
    rcases matched with exhausted | ⟨trap, store, same, ends, agrees⟩
    · exact .inl exhausted
    · exact .inr ⟨trap, store, same, ends.mono more, agrees⟩

theorem before_self (empty : t.frame.stack = []) : t.before t.frame.code [] = t := by
  simp [State.before, State.withFrame, Frame.resume, ← empty]

theorem before_write (empty : t.frame.stack = []) (slot : Operand) (v : Value) :
    (t.write slot v).before t.frame.code [] = t.write slot v := by
  cases slot <;> simp [State.write, State.before, State.withFrame, Frame.resume, ← empty]

theorem matched_store {slot : Operand} (mirrored : Mirrored p hosted printed b mc t)
    (covered : (declaredBy p b).Covers slot) (isSlot : slot.isSlot = true) :
    Matched p m hosted printed 1 (t.before (writeCode slot :: t.frame.code) [.i64 v])
      (.running (mc.write slot v)) := by
  have stored : Reaches m 1 (t.before (writeCode slot :: t.frame.code) [.i64 v])
      ((t.write slot v).before t.frame.code []) := reaches_write (mirrored.writable covered isSlot).2
  rw [before_write mirrored.top.stack] at stored
  exact ⟨b, _, stored, mirrored.write slot v⟩

/-- A caller of the machine can always store the result. -/
theorem leaving_eq (waits : Waits p hosted mc.top.entry mc.below callers) (v : Value) :
    mc.leaving v = .ok (.leave v) := by
  unfold Machine.leaving
  split
  · next slot line caller rest entry below =>
    rw [entry, below] at waits
    cases waits with
    | @call _ _ _ _ _ frame code _ b mirrors here covered isSlot deeper =>
      have writable : caller.canWrite slot = true := by
        cases slot with
        | lit w => cases isSlot
        | global n => rfl
        | var n =>
          refine decide_eq_true ?_
          rw [mirrors.runs.locals]
          exact covered
        | arg n =>
          refine decide_eq_true ?_
          rw [mirrors.runs.args]
          exact covered
      rw [if_pos writable]
  · rfl

theorem matched_leave (mc : Machine) (agrees : Agrees p printed mc.env mc.outputs s.store)
    (waits : Waits p hosted mc.top.entry mc.below s.callers) (inside : mc.top.entry ≠ .ofModule)
    (leaves : s.step m = s.leave (some v)) : Matched p m hosted printed 2 s (mc.leave v) := by
  unfold Machine.leave
  split
  · next slot line caller rest entry below =>
    rw [entry, below] at waits
    generalize callersEq : s.callers = callers at waits
    cases waits with
    | @call _ _ _ _ _ frame code callers b mirrors here covered isSlot deeper =>
      let t : State := { s with frame := { frame with code }, callers }
      have mirrored : Mirrored p hosted printed b { mc with top := caller, below := rest } t :=
        ⟨agrees, mirrors, deeper⟩
      have stack : frame.stack = [] := mirrors.stack
      have resumed : s.step m = .running (t.before (writeCode slot :: code) [.i64 v]) := by
        rw [leaves, State.leave, callersEq]
        simp [t, State.before, State.withFrame, Frame.resume, ← here, stack]
      exact .of_reaches (reaches_of_step resumed) (matched_store mirrored covered isSlot)
  · next notCall =>
    generalize entryEq : mc.top.entry = entry at waits inside
    generalize belowEq : mc.below = below at waits
    generalize callersEq : s.callers = callers at waits
    cases waits with
    | main => exact absurd rfl inside
    | host =>
      refine ⟨rfl, s.store, (ends_of_finished ?_).mono (by decide), agrees⟩
      rw [leaves, State.leave, callersEq]
    | call => exact absurd belowEq (notCall _ _ _ _ entryEq)

/-! ## Rounds -/

/-- The machine knows every label that the module knows. -/
theorem Mirrors.target_ne_none {a : Activation} {f : Frame} (mirrors : Mirrors p b a f)
    (segment : (bodyContext p b.inFunc b.code).table.lookup label = some k) :
    a.routine.labels.lookup label ≠ none := by
  rw [mirrors.runs.lookup]
  cases steered : hasControl b.code with
  | false =>
    rw [bodyContext, steered, if_neg Bool.false_ne_true] at segment
    cases segment
  | true =>
    rw [bodyContext, steered, if_pos rfl] at segment
    obtain ⟨position, found, -⟩ := segments_of_label segment
    rw [found]
    exact Option.some_ne_none position

theorem facing_self (empty : s.frame.stack = []) : s.facing s.frame.code s.frame.controls = s := by
  simp [State.facing, State.withFrame, ← empty]

theorem matched_fallOff (mirrored : Mirrored p hosted printed b mc s)
    (ended : b.code.length ≤ mc.top.pc) :
    Matched p m hosted printed ((segments b.code).length + 3) s mc.fallOff := by
  have top := mirrored.top
  have passed := top.stands.atEnd (m := m) (s := s) ended
  rw [facing_self top.stack] at passed
  refine .of_reaches passed ?_
  unfold Machine.fallOff
  cases inFunc : b.inFunc with
  | false =>
    have entry : mc.top.entry = .ofModule := top.runs.entry.2 inFunc
    rw [if_pos entry]
    have waits := mirrored.waits
    rw [entry] at waits
    generalize below : mc.below = activations at waits
    generalize callersEq : s.callers = callers at waits
    cases waits with
    | main =>
      refine ⟨rfl, s.store, (ends_of_finished ?_).mono (by decide), mirrored.agrees⟩
      change State.ret _ = _
      rw [State.ret, if_neg]
      · have callersEq : (s.facing (ending false) []).callers = [] := callersEq
        rw [State.leave, callersEq]
        rfl
      · change ¬ s.frame.hasResult = true
        rw [top.hasResult, inFunc]
        exact Bool.false_ne_true
  | true =>
    have inside : mc.top.entry ≠ .ofModule := fun entry => by
      rw [top.runs.entry.1 entry] at inFunc
      cases inFunc
    rw [if_neg inside, leaving_eq mirrored.waits]
    have pushed : Reaches m 1 (s.facing (ending true) []) ((s.facing [] []).before [] [.i64 0]) :=
      reaches_of_step rfl
    refine .of_reaches (n := 2) pushed (matched_leave mc mirrored.agrees mirrored.waits inside ?_)
    change State.ret _ = _
    rw [State.ret, if_pos]
    · rfl
    · change s.frame.hasResult = true
      rw [top.hasResult, inFunc]

theorem matched_jump (mc : Machine) {pc : Nat} {xs : List Instr} {stack : List Cell}
    {outer : List Control} (mirrored : Mirrored p hosted printed b mc t)
    (steered : hasControl b.code = true)
    (segment : (bodyContext p b.inFunc b.code).table.lookup label = some k)
    (small : k < 0x100000000) (target : mc.top.routine.labels.lookup label = some pc)
    (controls : Frame.findMark .dispatch outer = Frame.findMark .dispatch t.frame.controls) :
    Matched p m hosted printed (3 + ((segments b.code).length + 3))
      ((t.facing [] outer).before ([.index k, .set .pc, .br .dispatch] ++ xs) stack)
      (.running (mc.goto pc)) := by
  have top := mirrored.top
  obtain ⟨codes, all, loop⟩ := top.stands.loop steered
  rw [bodyContext, steered, if_pos rfl] at segment
  obtain ⟨position, found, bound, split⟩ := segments_of_label segment
  rw [top.runs.lookup, found] at target
  cases target
  let u := (t.facing [] outer).select (.ofNat k)
  have selected : u.frame.pc.toNat = k := UInt32.toNat_ofNat_of_lt' small
  obtain ⟨now, inner, reaches, stands⟩ := stands_of_segment (m := m) (s := u)
    (ending b.inFunc) steered all bound split selected
  have jumped : Reaches m 3
      ((t.facing [] outer).before ([.index k, .set .pc, .br .dispatch] ++ xs) stack)
      (u.facing (dispatchLoop codes ++ ending b.inFunc) []) :=
    reaches_jump (s := t.facing [] outer) (controls.trans loop)
  refine ⟨b, u.facing now inner, jumped.trans reaches, mirrored.agrees, ?_, mirrored.waits⟩
  exact ⟨top.body, top.runs.goto _, top.vars, top.args, top.hasResult, rfl, stands⟩

theorem callee_eq {e : Environment} {depth found : Nat}
    (registered : ∀ f ∈ p.funcs, e.funcs.get? f.index = some (.ofFunc f))
    (known : p.func? index = some f) (count : f.paramCount.toNat = found) :
    Machine.callee limits e depth index found =
      if limits.maxDepth ≤ depth then .error (.depthExceeded limits.maxDepth)
      else .ok (.ofFunc f) := by
  have member : f ∈ p.funcs := mem_of_find?_eq_some known
  have index_eq : f.index = index := by simpa using find?_some known
  unfold Machine.callee
  rw [← index_eq, registered f member]
  change (if found ≠ f.paramCount.toNat then _ else _) = _
  rw [if_neg (not_not_intro count.symm)]

theorem mirrored_enter (mirrored : Mirrored p hosted printed b mc t) (member : f ∈ p.funcs)
    {body : List Instr} (compiled : bodyCode p true f.body = .ok body) {vs : List Value}
    (count : vs.length = f.paramCount.toNat) (line : Nat) (covered : (declaredBy p b).Covers dest)
    (isSlot : dest.isSlot = true) : ∃ b' u, Reaches m ((segments f.body).length + 3)
        { t with frame := Frame.ofFunc (definitionOf f body) vs
                 callers := t.frame.resume (writeCode dest :: t.frame.code) [] :: t.callers } u ∧
      Mirrored p hosted printed b'
        { mc with top := .ofCall (.ofFunc f) vs (.ofCall dest line)
                  below := mc.top :: mc.below } u := by
  let start : State :=
    { t with frame := Frame.ofFunc (definitionOf f body) vs
             callers := t.frame.resume (writeCode dest :: t.frame.code) [] :: t.callers }
  obtain ⟨now, controls, reaches, stands⟩ := stands_of_body (m := m) (s := start)
    (ending true) compiled rfl
  refine ⟨f.toBody, start.facing now controls, reaches, mirrored.agrees, ?_, ?_⟩
  · refine ⟨Program.toBody_mem member, Activation.runs_ofCall count (by simp), rfl, rfl, rfl, rfl, ?_⟩
    exact stands
  · have stack := mirrored.top.stack
    have same : { t.frame.resume (writeCode dest :: t.frame.code) [] with code := t.frame.code } =
        t.frame := by
      simp [Frame.resume, ← stack]
    exact .call (b := b) (same ▸ mirrored.top) rfl covered isSlot mirrored.waits

theorem Linked.length_segments_le (linked : Linked p m main) (body : b ∈ p.bodies) :
    (segments b.code).length ≤ 0x100000001 := by
  refine Assembly.length_segments_le
    (fun i member => linked.sound.shaped (Program.mem_allCode body member)) ?_
  rcases mem_cons.1 body with rfl | func
  · exact linked.sound.codeLabels
  · obtain ⟨f, member, rfl⟩ := mem_map.1 func
    exact linked.sound.funcLabels f member

/-- Enough steps for the code of an instruction. -/
def instructionSteps : Nat := 0x200000010

def roundSteps : Nat := 0x400000000

/-- A call does not take too many steps: there are only so many arguments. -/
theorem Linked.callSteps_le (linked : Linked p m main) {count : Nat}
    (known : p.func? index = some f) (counted : f.paramCount.toNat = count) :
    count + (1 + ((segments f.body).length + 3)) ≤ instructionSteps := by
  have few : (segments f.body).length ≤ 0x100000001 :=
    linked.length_segments_le (Program.toBody_mem (mem_of_find?_eq_some known))
  have small := f.paramCount.toNat_lt
  unfold instructionSteps
  omega

/-- Both sides stand behind an instruction whose code the module still has to run. -/
structure Poised (p : Program) (hosted : Bool) (printed : List Value) (b : Body) (mc : Machine)
    (t : State) (i : Instruction) (ys : List Instr) : Prop where
  mirrored : Mirrored p hosted printed b mc.next t
  member : i ∈ b.code
  shaped : i.Shaped
  compiled : instructionCode (bodyContext p b.inFunc b.code) i = .ok ys
  checked : CheckedIn (declaredBy p b) ys

namespace Poised

variable {i : Instruction} {ys : List Instr}

theorem covered (poised : Poised p hosted printed b mc t i ys) :
    ∀ o ∈ i.operands, (declaredBy p b).Covers o :=
  covers_of_checked poised.shaped poised.compiled poised.checked

/-- A call on both sides, up to the moment when the callee starts. -/
theorem matched_call {args : List Operand} {v : Value} {line' : Nat}
    (poised : Poised p hosted printed b mc t ⟨.call, dest :: .lit v :: args, line'⟩ ys)
    (linked : Linked p m main) (frames : limits.maxDepth = maxCallFrames) (line : Nat) :
    ∃ vs, args.mapM mc.next.read = .ok vs ∧
      Matched p m hosted printed instructionSteps (t.before (ys ++ t.frame.code) [])
        (match Machine.callee limits mc.next.env mc.next.depth v.low vs.length with
          | .ok c => .running { mc.next with top := .ofCall c vs (.ofCall dest line)
                                             below := mc.next.top :: mc.next.below }
          | .error cause => .failed ⟨cause, line⟩ mc.next) := by
  have covered := poised.covered
  obtain ⟨mirrored, -, shaped, compiled, -⟩ := poised
  obtain ⟨f, ⟨known, count⟩, rfl⟩ := callCode_ok compiled
  have readable : ∀ o ∈ args, (declaredBy p b).Covers o := fun o member => covered o (by simp [member])
  obtain ⟨vs, source, target⟩ : ∃ vs, List.Forall₂ (fun o v => mc.next.read o = .ok v) args vs ∧
      List.Forall₂ (fun o v => t.value? o = some v) args vs := by
    clear covered shaped compiled count
    induction args with
    | nil => exact ⟨[], .nil, .nil⟩
    | cons o args ih =>
      obtain ⟨v, source, target⟩ := mirrored.read (readable o mem_cons_self)
      obtain ⟨vs, sources, targets⟩ := ih fun o member => readable o (mem_cons_of_mem _ member)
      exact ⟨v :: vs, .cons source sources, .cons target targets⟩
  have length : f.paramCount.toNat = vs.length := count.trans source.length_eq
  refine ⟨vs, mapM_eq_ok.2 source, Matched.mono ?_ (linked.callSteps_le known count)⟩
  have member : f ∈ p.funcs := mem_of_find?_eq_some known
  obtain ⟨d, found, emitted⟩ := linked.emitted.func? known
  obtain ⟨body, bodyOk, rfl⟩ := funcDef_ok emitted
  rw [callee_eq mirrored.agrees.funcs known length]
  rw [append_assoc]
  refine .of_reaches (reaches_readAll target) ?_
  have entered := step_call (d := definitionOf f body) (s := t) (writeCode dest :: t.frame.code) []
    found length.symm
  have depth : (limits.maxDepth ≤ mc.next.depth) = (maxCallFrames ≤ t.callers.length + 1) := by
    rw [frames, Machine.depth, mirrored.waits.length_eq]
  by_cases full : maxCallFrames ≤ t.callers.length + 1
  · rw [if_pos full] at entered
    rw [if_pos (depth ▸ full)]
    exact .inr ⟨.stackExhausted, t.store, rfl, (ends_of_trapped entered).mono (by omega),
      mirrored.agrees⟩
  · rw [if_neg full] at entered
    rw [if_neg (depth ▸ full)]
    obtain ⟨b', u, reaches, inner⟩ := mirrored_enter mirrored member bodyOk length.symm line
      (covered dest (by simp)) (shaped.dest_isSlot rfl).1
    exact ⟨b', u, (reaches_of_step entered).trans reaches, inner⟩

theorem matched_of_does (poised : Poised p hosted printed b mc t i ys) (linked : Linked p m main)
    (frames : limits.maxDepth = maxCallFrames) {e : Effect} (does : Machine.Does limits mc i e) :
    Matched p m hosted printed instructionSteps (t.before (ys ++ t.frame.code) [])
      (mc.perform e) := by
  have covered := poised.covered
  have ⟨mirrored, member, shaped, compiled, checked⟩ := poised
  have few := linked.length_segments_le mirrored.top.body
  have settled : t.before t.frame.code [] = t := before_self mirrored.top.stack
  cases does with
  | @assign dest a line v value writable =>
    cases compiled
    have read := mirrored.value_of_read (covered a (by simp)) value
    exact (Matched.of_reaches (reaches_read read) (matched_store mirrored (covered dest (by simp))
      (shaped.dest_isSlot rfl).1)).mono (by decide)
  | @binary op dest a b' line x y v left right result writable =>
    cases compiled
    rw [append_assoc]
    have pushed : Reaches m 8
        (t.before (binaryCode op a b' ++ writeCode dest :: t.frame.code) []) _ := reaches_binary
      (mirrored.value_of_read (covered a (by simp)) left)
      (mirrored.value_of_read (covered b' (by simp)) right) result
    exact (Matched.of_reaches pushed (matched_store mirrored (covered dest (by simp))
      (shaped.dest_isSlot rfl).1)).mono (by decide)
  | @not dest a line v value writable =>
    cases compiled
    have read := mirrored.value_of_read (covered a (by simp)) value
    exact (Matched.of_reaches (reaches_not read) (matched_store mirrored (covered dest (by simp))
      (shaped.dest_isSlot rfl).1)).mono (by decide)
  | @label v line =>
    cases compiled
    have passed : Reaches m 1 _ _ := reaches_notes (s := t) [v.low] t.frame.code []
    rw [settled] at passed
    exact ⟨b, t, passed.mono (by decide), mirrored⟩
  | @jump v line pc target =>
    obtain ⟨k, segment, rfl⟩ := jumpCode_ok rfl compiled
    have steered : hasControl b.code = true := any_eq_true.2 ⟨_, member, rfl⟩
    refine (matched_jump (t := t) mc.next mirrored steered segment
      (segment_lt_of_checked checked (.inl (by simp))) target rfl).mono ?_
    unfold instructionSteps
    omega
  | @taken a v c line pc value nonzero target =>
    obtain ⟨jump, jumpOk, whole⟩ := bind_eq_ok.1 compiled
    cases whole
    obtain ⟨k, segment, rfl⟩ := jumpCode_ok rfl jumpOk
    have steered : hasControl b.code = true := any_eq_true.2 ⟨_, member, rfl⟩
    have read := mirrored.value_of_read (covered a (by simp)) value
    have small : k < 0x100000000 := segment_lt_of_checked checked (.inr (by simp))
    have truth : Cell.ofBool (c ≠ 0) = .i32 1 := by simp [Cell.ofBool, nonzero]
    rw [append_assoc]
    have enough : 3 + (1 + (3 + ((segments b.code).length + 3))) ≤ instructionSteps := by
      unfold instructionSteps
      omega
    refine (Matched.of_reaches (reaches_truth read) ?_).mono enough
    rw [truth]
    have entered : Reaches m 1
        (t.before (.ifThen [.index k, .set .pc, .br .dispatch] :: t.frame.code) [.i32 1])
        ((t.facing [] (⟨none, t.frame.code, t.frame.code, 0⟩ :: t.frame.controls)).before
          ([.index k, .set .pc, .br .dispatch] ++ []) []) := reaches_of_step rfl
    exact .of_reaches entered (matched_jump mc.next mirrored steered segment small target rfl)
  | @skipped a v line value =>
    obtain ⟨jump, jumpOk, whole⟩ := bind_eq_ok.1 compiled
    cases whole
    have read := mirrored.value_of_read (covered a (by simp)) value
    rw [append_assoc]
    refine (Matched.of_reaches (n := 1) (reaches_truth read) ?_).mono (by decide)
    have passed : Reaches m 1 (t.before (.ifThen jump :: t.frame.code) [.i32 0])
        (t.before t.frame.code []) := reaches_of_step rfl
    rw [settled] at passed
    exact ⟨b, t, passed.mono (by decide), mirrored⟩
  | @call dest v args line vs c values entered =>
    obtain ⟨ws, values', matched⟩ := poised.matched_call linked frames line
    have same : ws = vs := Except.ok.inj (values'.symm.trans values)
    rwa [same, show Machine.callee limits mc.next.env mc.next.depth v.low vs.length = .ok c from entered]
      at matched
  | @ret a line v inside value left =>
    obtain ⟨inFunc, rfl⟩ := retCode_ok compiled
    have read := mirrored.value_of_read (covered a (by simp)) value
    refine (Matched.of_reaches (reaches_read read)
      (matched_leave mc mirrored.agrees mirrored.waits inside ?_)).mono (by decide)
    have hasResult : t.frame.hasResult = true := mirrored.top.hasResult.trans inFunc
    change State.ret _ = _
    rw [State.ret]
    exact if_pos hasResult
  | @output a line v value =>
    cases compiled
    have read := mirrored.value_of_read (covered a (by simp)) value
    have agrees := mirrored.agrees
    have printed' : Reaches m 2 (t.before (readCode a :: .print :: t.frame.code) [])
        ((t.print v).before t.frame.code []) := reaches_print read
    rw [show (t.print v).before t.frame.code [] = t.print v from before_self mirrored.top.stack]
      at printed'
    refine ⟨b, _, printed'.mono (by decide), ⟨agrees.size, agrees.globals, agrees.funcs, ?_⟩,
      mirrored.top, mirrored.waits⟩
    change (t.store.output.push v).toList = printed ++ (mc.outputs.push v).toList
    have output : t.store.output.toList = printed ++ mc.outputs.toList := agrees.output
    rw [Array.toList_push, Array.toList_push, output, append_assoc]

theorem matched_of_fails (poised : Poised p hosted printed b mc t i ys) (linked : Linked p m main)
    (frames : limits.maxDepth = maxCallFrames) {cause : Cause} (line : Nat)
    (fails : Machine.Fails limits mc i cause) :
    Matched p m hosted printed instructionSteps (t.before (ys ++ t.frame.code) [])
      (.failed ⟨cause, line⟩ mc) := by
  have covered := poised.covered
  have ⟨mirrored, member, shaped, compiled, checked⟩ := poised
  have top := mirrored.top
  cases fails with
  | @assign dest a line c value | @not dest a line c value | @condition a v line c value
  | @ret a line c inside value | @output a line c value =>
    exact absurd value (mirrored.read_ne_error (covered a (by simp)))
  | @left op dest a b' line c value =>
    exact absurd value (mirrored.read_ne_error (covered a (by simp)))
  | @right op dest a b' line x c left value =>
    exact absurd value (mirrored.read_ne_error (covered b' (by simp)))
  | @apply op dest a b' line x y c left right result =>
    cases compiled
    obtain ⟨trap, same, ends⟩ := ends_binary (m := m) (writeCode dest :: t.frame.code) []
      (mirrored.value_of_read (covered a (by simp)) left)
      (mirrored.value_of_read (covered b' (by simp)) right) result
    rw [append_assoc]
    exact .inr ⟨trap, t.store, same, ends.mono (by decide), mirrored.agrees⟩
  | @store op dest rest line stores unwritable =>
    have writable := (mirrored.writable (covered dest (by simp)) (shaped.dest_isSlot stores).1).1
    exact absurd (writable.symm.trans unwritable) (by simp)
  | @jump v line missing =>
    obtain ⟨k, segment, rfl⟩ := jumpCode_ok rfl compiled
    exact absurd missing (top.target_ne_none segment)
  | @jumpIf a v c line value nonzero missing =>
    obtain ⟨jump, jumpOk, -⟩ := bind_eq_ok.1 compiled
    obtain ⟨k, segment, -⟩ := jumpCode_ok rfl jumpOk
    exact absurd missing (top.target_ne_none segment)
  | @args dest v args line c values =>
    obtain ⟨ws, values', -⟩ := poised.matched_call linked frames line
    cases values'.symm.trans values
  | @callee dest v args line' vs c values refused =>
    obtain ⟨ws, values', matched⟩ := poised.matched_call linked frames line
    have same : ws = vs := Except.ok.inj (values'.symm.trans values)
    rwa [same, show Machine.callee limits mc.next.env mc.next.depth v.low vs.length = .error cause
      from refused] at matched
  | outside outside =>
    obtain ⟨inFunc, -⟩ := retCode_ok compiled
    exact absurd ((top.runs.entry.1 outside).symm.trans inFunc) (by simp)
  | @leaving a line v f inside value unwritable =>
    have left : mc.leaving v = .ok (.leave v) := leaving_eq mirrored.waits v
    rw [left] at unwritable
    cases unwritable

end Poised

theorem matched_instruction (linked : Linked p m main) (mirrored : Mirrored p hosted printed b mc s)
    (frames : limits.maxDepth = maxCallFrames) {i : Instruction}
    (current : b.code[mc.top.pc]? = some i) (gas : Nat) : Matched p m hosted printed roundSteps s
      (match mc.effect limits i with
        | .error f => .failed f mc
        | .ok e => ({ mc with gas } : Machine).perform e) := by
  have top := mirrored.top
  have member : i ∈ b.code := mem_of_getElem? current
  have shaped : i.Shaped := linked.sound.shaped (Program.mem_allCode top.body member)
  obtain ⟨code, bodyOk, checkedBody⟩ := linked.emitted.checked linked.valid top.body
  obtain ⟨ys, compiled, checked⟩ := CheckedIn.ofBody bodyOk checkedBody member
  obtain ⟨xs, rest, controls, compiled', reaches, stands⟩ :=
    top.stands.current (m := m) (s := s) current
  rw [compiled] at compiled'
  cases compiled'
  rw [facing_self top.stack] at reaches
  have poised : ∀ gas, Poised p hosted printed b { mc with gas } (s.facing rest controls) i ys :=
    fun gas => ⟨⟨mirrored.agrees,
      ⟨top.body, top.runs.goto _, top.vars, top.args, top.hasResult, rfl, stands⟩, mirrored.waits⟩,
      member, shaped, compiled, checked⟩
  have enough : (segments b.code).length + instructionSteps ≤ roundSteps := by
    have few := linked.length_segments_le top.body
    unfold instructionSteps roundSteps
    omega
  refine (Matched.of_reaches reaches ?_).mono enough
  have answers := Machine.effect_answers limits mc shaped
  cases done : mc.effect limits i with
  | ok e =>
    rw [done] at answers
    exact (poised gas).matched_of_does linked frames (Machine.Does.withGas answers gas)
  | error f =>
    rw [done] at answers
    exact (poised mc.gas).matched_of_fails linked frames f.line answers

theorem mirrored_round (linked : Linked p m main) (mirrored : Mirrored p hosted printed b mc s)
    (frames : limits.maxDepth = maxCallFrames) :
    Matched p m hosted printed roundSteps s (mc.round limits) := by
  have current := mirrored.top.runs.current?
  unfold Machine.round
  cases here : b.code[mc.top.pc]? with
  | none =>
    rw [current, here]
    refine (matched_fallOff mirrored (List.getElem?_eq_none_iff.1 here)).mono ?_
    have few := linked.length_segments_le mirrored.top.body
    unfold roundSteps
    omega
  | some i =>
    rw [current, here]
    cases paid : mc.gas with
    | zero => exact .inl ⟨limits.gas, rfl⟩
    | succ gas => exact matched_instruction linked mirrored frames here gas

theorem mirrored_run (linked : Linked p m main) (frames : limits.maxDepth = maxCallFrames)
    (mirrored : Mirrored p hosted printed b mc s) :
    Matched p m hosted printed (roundSteps * mc.roundsLeft) s (mc.run limits).status := by
  refine Machine.run_induction (P := fun mc ending => ∀ s b, Mirrored p hosted printed b mc s →
    Matched p m hosted printed (roundSteps * mc.roundsLeft) s ending.status) ?_ ?_ ?_ mc s b mirrored
  · intro mc next goesOn rest s b mirrored
    have here := mirrored_round linked mirrored frames
    rw [goesOn] at here
    obtain ⟨b', t, reaches, onward⟩ := here
    refine (Matched.of_reaches reaches (rest t b' onward)).mono ?_
    calc roundSteps + roundSteps * next.roundsLeft
        = roundSteps * (next.roundsLeft + 1) := by rw [Nat.mul_succ, Nat.add_comm]
      _ ≤ roundSteps * mc.roundsLeft := Nat.mul_le_mul_left _ (Machine.roundsLeft_of_round goesOn)
  · intro mc v next finished s b mirrored
    have here := mirrored_round linked mirrored frames
    rw [finished] at here
    exact here.mono (Nat.le_mul_of_pos_right _ mc.roundsLeft_pos)
  · intro mc f next failed s b mirrored
    have here := mirrored_round linked mirrored frames
    rw [failed] at here
    exact here.mono (Nat.le_mul_of_pos_right _ mc.roundsLeft_pos)

end SlotLang.Assembly
