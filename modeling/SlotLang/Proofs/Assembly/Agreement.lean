import SlotLang.Proofs.Assembly.Simulation
import SlotLang.Proofs.Wat.Fields
import SlotLang.Assembly.Instance

/-!
# The interpreter and the module agree

A host sends requests, to run the module code or to call a function, to an environment in which a
program is defined and to an instance of the program's module. `session_agrees` says that the text of
the module denotes it, and that as long as the environment does not run out of gas, both give the same
answers: the same printed values, the same result or corresponding failures, and the same globals after
every request. Slots have to be countable: a write to the last global has no valid module
(`lastGlobal_not_declared`).
-/

open List

namespace SlotLang

/-- What a host can ask for. -/
inductive Request where
  | main
  | call (index : UInt32) (args : List Value)

/-- A call that names a function and passes as many arguments as it has parameters. -/
def Request.Fits (p : Program) : Request → Prop
  | .main => True
  | .call index args => ∃ f, p.func? index = some f ∧ args.length = f.paramCount.toNat

namespace Environment

/-- What an environment does on a request; module code has no value. -/
def answer (limits : Limits) (p : Program) (e : Environment) : Request → RunResult (Option Value)
  | .main =>
    let r := e.run limits p
    { result := r.result.map fun _ => none, outputs := r.outputs, env := r.env }
  | .call index args =>
    let r := e.call limits index args
    { result := r.result.map some, outputs := r.outputs, env := r.env }

/-- The answers to a sequence of requests, each in the environment that the one before left. -/
def session (limits : Limits) (p : Program) (e : Environment) :
    List Request → List (RunResult (Option Value))
  | [] => []
  | request :: requests =>
    let a := e.answer limits p request
    a :: a.env.session limits p requests

end Environment

/-- A run that ended because its gas was used up. -/
def RunResult.Exhausted {α : Type} (r : RunResult α) : Prop :=
  ∃ f limit, r.result = .error f ∧ f.cause = .gasExhausted limit

namespace Assembly

variable {e : Environment} {inst : Instance}

/-- The frame that an instance starts on a request, found by the name of the export. -/
def Instance.frame? (inst : Instance) : Request → Option Frame
  | .main => (inst.export? mainExport).map fun (_, frame) => frame []
  | .call index args =>
    match inst.export? (funcExport index) with
    | some (count, frame) => if args.length = count then some (frame args) else none
    | none => none

/-- How an instance answers a sequence of requests, when printed values are taken after each. -/
inductive Instance.Session : Instance → List Request → List (Outcome × Store) → Prop where
  | nil {inst : Instance} : Session inst [] []
  | cons {inst : Instance} {request : Request} {requests : List Request} {frame : Frame}
    {outcome : Outcome} {store : Store} {rest : List (Outcome × Store)}
    (found : inst.frame? request = some frame)
    (ends : Ends inst.code { store := inst.takeOutput.1.store, frame } outcome store)
    (others : Session { inst with store } requests rest) :
    Session inst (request :: requests) ((outcome, store) :: rest)

/-- The same value, or a failure and the trap that corresponds to it. -/
def SameEnd : Except Fault (Option Value) → Outcome → Prop
  | .ok v, .finished w => v = w
  | .error f, .trapped trap => trap? f.cause = some trap
  | _, _ => False

/-- An answer of an environment and one of an instance that nobody can tell apart. -/
structure SameAnswer (p : Program) (a : RunResult (Option Value)) (o : Outcome × Store) : Prop where
  ending : SameEnd a.result o.1
  output : o.2.output.toList = a.outputs
  size : o.2.globals.size = p.globalCount.toNat
  globals : ∀ n : UInt32, n < p.globalCount → a.env.global? n = o.2.globals[n.toNat]?

variable {p : Program} {m : Module} {main : List Instr} {limits : Limits}

/-! ## Exports -/

theorem funcExport_inj {i j : UInt32} : funcExport i = funcExport j ↔ i = j := by
  constructor
  · intro same
    have texts : toString i.toNat = toString j.toNat := (String.append_right_inj _).1 same
    exact UInt32.toNat_inj.1 (toString_inj texts)
  · exact congrArg funcExport

theorem funcExport_ne_main (i : UInt32) : funcExport i ≠ mainExport := by
  intro same
  have first := congrArg (fun text : String => text.toList.head?) same
  simp [funcExport, mainExport] at first

theorem export?_func {index : UInt32} {d : FuncDef} (found : inst.code.func? index = some d) :
    inst.export? (funcExport index) = some (d.paramCount.toNat, .ofFunc d) := by
  have same : (inst.code.funcs.find? fun f => funcExport f.index == funcExport index) =
      inst.code.func? index := by
    unfold Module.func?
    congr 1
    funext f
    rw [Bool.eq_iff_iff, beq_iff_eq, beq_iff_eq, funcExport_inj]
  rw [Instance.export?, if_neg (funcExport_ne_main index), same, found]
  rfl

/-! ## Single requests -/

theorem Agrees.of_defineAll {store : Store} (sound : p.Sound 0) (agrees : Agrees p [] e #[] store) :
    Agrees p [] (e.defineAll p.funcs) #[] store := by
  refine ⟨agrees.size, ?_, ?_, agrees.output⟩
  · intro n bound
    rw [Environment.global?, Environment.globals_defineAll]
    exact agrees.globals n bound
  · intro f member
    exact Environment.get?_defineAll sound.numbered.nodup member

theorem Agrees.clear {outputs : Array Value} {store : Store} (agrees : Agrees p [] e outputs store) :
    Agrees p [] e.clear outputs store :=
  ⟨agrees.size, agrees.globals, agrees.funcs, agrees.output⟩

theorem sameAnswer_of_matched {hosted : Bool} {n : Nat} {s : State} {ending : Machine.Ending}
    (matched : Matched p m hosted [] n s ending.status) {f : Option Value → Option Value}
    (keeps : ∀ v, v.isSome = hosted → f v = v)
    (lasting : ¬ (RunResult.ofEnding f ending).Exhausted) :
    ∃ outcome store, EndsIn m n s outcome store ∧ SameAnswer p (.ofEnding f ending) (outcome, store) ∧
      Agrees p [] (RunResult.ofEnding f ending).env ending.machine.outputs store := by
  obtain ⟨result, last⟩ := ending
  cases result with
  | ok v =>
    obtain ⟨valued, store, ends, agrees⟩ := matched
    refine ⟨.finished v, store, ends, ⟨keeps v valued, agrees.output, agrees.size, ?_⟩, agrees.clear⟩
    exact fun n bound => agrees.globals n (UInt32.lt_iff_toNat_lt.1 bound)
  | error fault =>
    rcases matched with ⟨limit, exhausted⟩ | ⟨trap, store, same, ends, agrees⟩
    · exact absurd ⟨fault, limit, rfl, exhausted⟩ lasting
    · refine ⟨.trapped trap, store, ends, ⟨same, agrees.output, agrees.size, ?_⟩, agrees.clear⟩
      exact fun n bound => agrees.globals n (UInt32.lt_iff_toNat_lt.1 bound)

theorem answer_main (e : Environment) :
    e.answer limits p .main = .ofEnding (fun _ => none)
      (({ env := e.defineAll p.funcs, top := .ofModule p.code, gas := limits.gas } :
        Machine).run limits) := by
  simp only [Environment.answer, Environment.run, RunResult.ofEnding]
  cases (Machine.run limits _).result <;> rfl

theorem answer_call {index : UInt32} {args : List Value} {c : Callable}
    (entered : Machine.callee limits e 0 index args.length = .ok c) :
    e.answer limits p (.call index args) = .ofEnding (fun v => some (v.getD 0))
      (({ env := e, top := .ofCall c args .ofHost, gas := limits.gas } : Machine).run limits) := by
  simp only [Environment.answer, Environment.call, entered, RunResult.ofEnding]
  cases (Machine.run limits _).result <;> rfl

/-- Entering the code and every round of a run take a bounded number of steps. -/
theorem Linked.answerSteps_le (linked : Linked p m main) {b : Body} (body : b ∈ p.bodies)
    (gas : Nat) :
    (segments b.code).length + 3 + roundSteps * (2 * gas + 0 + 1) ≤ roundSteps * (2 * gas + 2) := by
  have few := linked.length_segments_le body
  have enter : (segments b.code).length + 3 ≤ roundSteps := by
    unfold roundSteps
    omega
  rw [Nat.add_zero, Nat.mul_succ roundSteps (2 * gas + 1), Nat.add_comm]
  exact Nat.add_le_add_left enter _

/-- The instance runs the module code as the environment does. -/
theorem main_agrees (linked : Linked p m main) (code : inst.code = m)
    (agrees : Agrees p [] (e.defineAll p.funcs) #[] inst.takeOutput.1.store)
    (deep : limits.maxDepth = maxCallFrames) (lasting : ¬ (e.answer limits p .main).Exhausted) :
    ∃ frame outcome store, inst.frame? .main = some frame ∧
      EndsIn m (roundSteps * (2 * limits.gas + 2)) { store := inst.takeOutput.1.store, frame } outcome
        store ∧
      SameAnswer p (e.answer limits p .main) (outcome, store) ∧
      ∃ outputs, Agrees p [] (e.answer limits p .main).env outputs store := by
  let start : State :=
    { store := inst.takeOutput.1.store
      frame := .ofMain { hasPc := hasControl p.code, body := main } }
  obtain ⟨now, controls, reaches, stands⟩ := stands_of_body (m := m) (s := start) []
    linked.emitted.code rfl
  rw [append_nil] at reaches
  have mirrored : Mirrored p false [] p.mainBody
      { env := e.defineAll p.funcs, top := .ofModule p.code, gas := limits.gas }
      (start.facing now controls) :=
    ⟨agrees, ⟨p.mainBody_mem, Activation.runs_ofModule p, rfl, rfl, rfl, rfl, stands⟩, .main⟩
  rw [answer_main] at lasting ⊢
  obtain ⟨outcome, store, ends, same, after⟩ := sameAnswer_of_matched
    (mirrored_run linked deep mirrored)
    (fun v valueless => (Option.not_isSome_iff_eq_none.1 (by simp [valueless])).symm) lasting
  refine ⟨_, outcome, store, ?_,
    (reaches.endsIn ends).mono (linked.answerSteps_le p.mainBody_mem limits.gas), same, _, after⟩
  rw [Instance.frame?, Instance.export?, if_pos rfl, code, linked.emitted.entry]
  rfl

/-- The instance answers a single request as the environment does. -/
theorem answer_agrees (linked : Linked p m main) (code : inst.code = m)
    (agrees : Agrees p [] e #[] inst.takeOutput.1.store) (deep : limits.maxDepth = maxCallFrames)
    {request : Request} (fits : request.Fits p) (lasting : ¬ (e.answer limits p request).Exhausted) :
    ∃ frame outcome store, inst.frame? request = some frame ∧
      EndsIn m (roundSteps * (2 * limits.gas + 2)) { store := inst.takeOutput.1.store, frame } outcome
        store ∧
      SameAnswer p (e.answer limits p request) (outcome, store) ∧
      ∃ outputs, Agrees p [] (e.answer limits p request).env outputs store := by
  cases request with
  | main => exact main_agrees linked code (agrees.of_defineAll linked.sound) deep lasting
  | call index args =>
    obtain ⟨f, known, count⟩ := fits
    have member : f ∈ p.funcs := mem_of_find?_eq_some known
    obtain ⟨d, found, compiled⟩ := linked.emitted.func? known
    obtain ⟨body, bodyOk, rfl⟩ := funcDef_ok compiled
    let start : State :=
      { store := inst.takeOutput.1.store, frame := .ofFunc (definitionOf f body) args }
    obtain ⟨now, controls, reaches, stands⟩ := stands_of_body (m := m) (s := start)
      (ending true) bodyOk rfl
    have mirrored : Mirrored p true [] f.toBody
        { env := e, top := .ofCall (.ofFunc f) args .ofHost, gas := limits.gas }
        (start.facing now controls) :=
      ⟨agrees, ⟨Program.toBody_mem member, Activation.runs_ofCall count (by simp), rfl, rfl, rfl, rfl,
        stands⟩, .host⟩
    have entered : Machine.callee limits e 0 index args.length = .ok (.ofFunc f) := by
      rw [callee_eq agrees.funcs known count.symm, if_neg (by rw [deep]; decide)]
    rw [answer_call entered] at lasting ⊢
    obtain ⟨outcome, store, ends, same, after⟩ := sameAnswer_of_matched
      (mirrored_run linked deep mirrored)
      (fun v valued => by obtain ⟨w, rfl⟩ := Option.isSome_iff_exists.1 valued; rfl) lasting
    refine ⟨_, outcome, store, ?_, (reaches.endsIn ends).mono
      (linked.answerSteps_le (Program.toBody_mem member) limits.gas), same, _, after⟩
    rw [← code] at found
    rw [Instance.frame?, export?_func found]
    exact if_pos count

/-! ## Sessions -/

theorem session_agrees_of_agrees (linked : Linked p m main) (code : inst.code = m)
    (agrees : Agrees p [] e #[] inst.takeOutput.1.store) (deep : limits.maxDepth = maxCallFrames)
    {requests : List Request} (fit : ∀ r ∈ requests, r.Fits p)
    (lasting : ∀ a ∈ e.session limits p requests, ¬ a.Exhausted) :
    ∃ ends, inst.Session requests ends ∧
      List.Forall₂ (SameAnswer p) (e.session limits p requests) ends := by
  induction requests generalizing e inst with
  | nil => exact ⟨[], .nil, .nil⟩
  | cons request requests ih =>
    obtain ⟨frame, outcome, store, found, ends, same, outputs, after⟩ := answer_agrees linked code
      agrees deep (fit request mem_cons_self) (lasting _ mem_cons_self)
    have taken : Agrees p [] (e.answer limits p request).env #[]
        ({ inst with store } : Instance).takeOutput.1.store :=
      ⟨after.size, after.globals, after.funcs, rfl⟩
    obtain ⟨rest, others, sames⟩ := @ih _ { inst with store } code taken
      (fun r member => fit r (mem_cons_of_mem _ member))
      (fun a member => lasting a (mem_cons_of_mem _ member))
    exact ⟨(outcome, store) :: rest, .cons found (code ▸ ends.ends) others, .cons same sames⟩

/-- The text of the module of a program is read as that module, operator by operator, and the module is
valid. As long as the gas lasts, an environment with the program's functions and its globals at zero and
a fresh instance of the module give the same answers to every sequence of requests. -/
theorem session_agrees {source : Source} (parsed : Program.parse source 0 = .ok p)
    (countable : Countable p) (emitted : Module.ofProgram p = .ok m) {e : Environment}
    (registered : ∀ f ∈ p.funcs, e.func? f.index = some f)
    (preset : ∀ n : UInt32, n < p.globalCount → e.global? n = some 0)
    (deep : limits.maxDepth = maxCallFrames) {requests : List Request}
    (fit : ∀ r ∈ requests, r.Fits p) (lasting : ∀ a ∈ e.session limits p requests, ¬ a.Exhausted) :
    Wat.Module.ofText m.text = some m.toWat ∧ m.isValid = true ∧
      ∃ ends, (Instance.ofModule m).Session requests ends ∧
        List.Forall₂ (SameAnswer p) (e.session limits p requests) ends := by
  have sound := sound_of_parse parsed
  have valid := isValid_of_sound sound countable emitted
  obtain ⟨main, parts⟩ := emitted_of_ofProgram emitted
  have linked : Linked p m main := ⟨sound, parts, valid⟩
  refine ⟨ofText_text m, valid,
    session_agrees_of_agrees linked rfl ⟨?_, ?_, ?_, rfl⟩ deep fit lasting⟩
  · change (Array.replicate m.globalCount.toNat (0 : Value)).size = _
    rw [Array.size_replicate, parts.globalCount]
  · intro n bound
    change _ = (Array.replicate m.globalCount.toNat (0 : Value))[n.toNat]?
    rw [preset n (UInt32.lt_iff_toNat_lt.2 bound), parts.globalCount, Array.getElem?_replicate,
      if_pos bound]
  · intro f member
    obtain ⟨c, found, same⟩ := Option.map_eq_some_iff.1 (registered f member)
    rw [found, callable_eq_ofFunc same]

/-- A function that divides ten, called in a loop with `2` and `1`. -/
def divider : Source where
  name := "divider"
  text := "# 0 1 \x7b\n/ v0 10 a0\n^ v0\n\x7d\n= g0 2\n: 0\n$ g1 0 g0\n. g1\n- g0 g0 1\n? g0 0\n"

/-- What `divider` is parsed to. -/
def dividerProgram : Program where
  code := [⟨.assign, [.global 0, .lit 2], 5⟩, ⟨.label, [.lit 0], 6⟩,
    ⟨.call, [.global 1, .lit 0, .global 0], 7⟩, ⟨.output, [.global 1], 8⟩,
    ⟨.binary .sub, [.global 0, .global 0, .lit 1], 9⟩, ⟨.jumpIf, [.global 0, .lit 0], 10⟩]
  funcs := [{ index := 0, paramCount := 1, localCount := 1, line := 1
              body := [⟨.binary .div, [.var 0, .lit 10, .arg 0], 2⟩, ⟨.ret, [.var 0], 3⟩] }]
  globalCount := 2

/-- The environment of `dividerProgram` before the first request. -/
def dividerEnvironment : Environment :=
  ((Environment.defineAll {} dividerProgram.funcs).setGlobal 0 0).setGlobal 1 0

set_option maxRecDepth 4000 in
/-- After the loop has printed two quotients, a call that divides by zero traps. -/
theorem session_agrees_divider :
    Program.parse divider 0 = .ok dividerProgram ∧
    (dividerEnvironment.session { gas := 100 } dividerProgram [.main, .call 0 [0]]).map
      (fun a => (a.outputs, a.fault?.map Fault.cause)) =
        [([5, 10], none), ([], some .divisionByZero)] ∧
    Countable dividerProgram ∧
    ∃ m, Module.ofProgram dividerProgram = .ok m ∧ Wat.Module.ofText m.text = some m.toWat ∧
      m.isValid = true ∧ ∃ ends, (Instance.ofModule m).Session [.main, .call 0 [0]] ends ∧
        List.Forall₂ (SameAnswer dividerProgram)
          (dividerEnvironment.session { gas := 100 } dividerProgram [.main, .call 0 [0]]) ends := by
  have parsed : Program.parse divider 0 = .ok dividerProgram := by cbv
  have answers : (dividerEnvironment.session { gas := 100 } dividerProgram [.main, .call 0 [0]]).map
      (fun a => (a.outputs, a.fault?.map Fault.cause)) =
        [([5, 10], none), ([], some .divisionByZero)] := by cbv
  have globals : (slotsIn Operand.globalIndex? dividerProgram.allCode).all (· < 0xFFFFFFFF) = true := by
    decide
  have vars : (slotsIn Operand.varIndex? dividerProgram.allCode).all (· < 0xFFFFFFFF) = true := by
    decide
  have countable : Countable dividerProgram :=
    ⟨by simpa using globals, by simpa using vars, by decide⟩
  have emits : (Module.ofProgram dividerProgram).isOk = true := by cbv
  refine ⟨parsed, answers, countable, ?_⟩
  cases emitted : Module.ofProgram dividerProgram with
  | error e => simp [emitted, Except.isOk, Except.toBool] at emits
  | ok m =>
    refine ⟨m, rfl, session_agrees parsed countable emitted ?_ ?_ rfl ?_ ?_⟩
    · intro f member
      rw [mem_singleton.1 member]
      rfl
    · intro n bound
      have small : n.toNat < 2 := UInt32.lt_iff_toNat_lt.1 bound
      have preset : n = 0 ∨ n = 1 := by
        rcases Nat.lt_succ_iff_lt_or_eq.1 small with zero | one
        · exact .inl (UInt32.toNat_inj.1 (Nat.lt_one_iff.1 zero))
        · exact .inr (UInt32.toNat_inj.1 one)
      rcases preset with rfl | rfl <;> rfl
    · intro request member
      simp only [mem_cons, not_mem_nil, or_false] at member
      rcases member with rfl | rfl
      · trivial
      · exact ⟨_, rfl, rfl⟩
    · rintro a member ⟨fault, limit, failed, cause⟩
      have known := mem_map_of_mem (f := fun a => (a.outputs, a.fault?.map Fault.cause)) member
      rw [answers] at known
      simp [RunResult.fault?, failed, cause] at known

/-- A write to the last global. -/
def lastGlobal : Source where
  name := "last"
  text := "= g4294967295 1\n"

/-- What `lastGlobal` is parsed to. One more than its slot is zero in 32 bits. -/
def lastGlobalProgram : Program where
  code := [⟨.assign, [.global 0xFFFFFFFF, .lit 1], 1⟩]

/-- What `lastGlobal` is assembled to. -/
def lastGlobalModule : Module where
  entry := some { hasPc := false, body := [.const 1, .globalSet 0xFFFFFFFF] }

/-- The interpreter writes the global, but the text of the module writes one that it does not declare,
so there is no module to run. -/
theorem lastGlobal_not_declared :
    Program.parse lastGlobal 0 = .ok lastGlobalProgram ∧
    Module.ofProgram lastGlobalProgram = .ok lastGlobalModule ∧
    (Environment.session { gas := 9 } lastGlobalProgram {} [.main]).map
      (fun a => (a.fault?, a.env.global? 0xFFFFFFFF)) = [(none, some 1)] ∧
    Wat.Module.ofText lastGlobalModule.text = some lastGlobalModule.toWat ∧
    lastGlobalModule.toWat.isValid = false ∧ lastGlobalModule.isValid = false :=
  ⟨by cbv, by cbv, by cbv, ofText_text _, by cbv, by cbv⟩

end Assembly

end SlotLang
