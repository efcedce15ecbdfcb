import SlotLang.Proofs.Assembly.Agreement
import SlotLang.Proofs.Canonical.Words
import SlotLang.Proofs.Outcomes
import SlotLang.Proofs.Tools.Presets
import SlotLang.Tool.Job

/-!
# The interpreter and the runner as tools

One tool interprets a source, another one runs the module that the source was assembled to. Both end
with the same status as long as the interpreter neither misses the value of a global nor runs out of
gas, and they print the same if the run succeeds. If it fails, the interpreter has printed what came
before the failure, and the runner prints nothing: values stay in an instance until they are taken,
and nobody takes them after a trap (`runner_agrees_unless_trapped`).
-/

namespace SlotLang

variable {args : List String} {c : Console} {job : Job Unit} {p : Program} {w : World}

/-! ## Jobs on a console -/

namespace Job

variable {α β : Type} {d : Console} {content : Content} {path text : String}

/-- What a job makes of both channels and the files. -/
def on (job : Job α) (c : Console) : Except JobError α × Console :=
  job.run.run c

theorem on_bind {x : Job α} {f : α → Job β} {a : α} (first : x.on c = (.ok a, d)) :
    (x >>= f).on c = (f a).on d := by
  unfold on at first ⊢
  simp only [ExceptT.run_bind, StateT.run_bind, first]
  rfl

theorem on_get : (get : Job Console).on c = (.ok c, c) :=
  rfl

theorem on_print (s : String) : (print s).on c = (.ok (), { c with out := c.out ++ s }) :=
  rfl

theorem on_readText (found : c.disk.readText path = .ok text) :
    (readText path).on c = (.ok text, c) := by
  rw [readText, on_bind on_get]
  simp only [found]
  rfl

theorem on_readImage (found : c.disk.read path = .ok content) :
    (readImage path).on c = (.ok content.toImage, c) := by
  rw [readImage, on_bind on_get]
  simp only [found]
  rfl

/-- The interpreter prints before it fails. -/
theorem on_interpret {p : Program} (found : c.disk.readText path = .ok text)
    (parsed : Program.parse ⟨path, text⟩ 0 = .ok p) : (interpret path).on c =
      ((Environment.run {} {} p).fault?.elim (.ok ()) fun f => .error (.outcome (.faulted f)),
        { c with out := c.out ++ outputText (Environment.run {} {} p).outputs }) := by
  have read : (readSource path).on c = (.ok ⟨path, text⟩, c) := on_bind (on_readText found)
  have program : (ofExcept .outcome (Source.program ⟨path, text⟩)).on c = (.ok p, c) := by
    rw [Source.program, parsed]
    rfl
  rw [interpret, on_bind read, on_bind program]
  generalize Environment.run {} {} p = r
  rw [on_bind (on_print _)]
  cases r.fault? <;> rfl

/-- The runner prints only what the entry point hands over at its end. -/
theorem on_runner {target : String} {inst : Assembly.Instance}
    (found : c.disk.read target = .ok content)
    (loaded : Assembly.Instance.ofImage w.assembler.decode content.toImage = .ok inst) :
    (runner w { file := some target } target).on c =
      match inst.runMain.2 with
      | .ok outputs => (.ok (), { c with out := c.out ++ outputText outputs })
      | .error e => (.error (.use e), c) := by
  have instantiated : (ofExcept .image
      (Assembly.Instance.ofImage w.assembler.decode content.toImage)).on c = (.ok inst, c) := by
    rw [loaded]
    rfl
  rw [runner, on_bind (on_readImage found), on_bind instantiated]
  cases inst.runMain with
  | mk after result => cases result <;> rfl

end Job

/-! ## The run of a fresh instance -/

/-- The environment in which the first globals are zero. -/
def Environment.zeroed : Nat → Environment
  | 0 => {}
  | n + 1 => (zeroed n).setGlobal (.ofNat n) 0

theorem Environment.global?_zeroed {count : Nat} {n : UInt32} (bound : n.toNat < count) :
    (zeroed count).global? n = some 0 := by
  induction count with
  | zero => omega
  | succ count ih =>
    rw [zeroed, global?_setGlobal]
    by_cases last : n = .ofNat count
    · rw [if_pos last]
    · have before : n.toNat ≠ count := by
        intro same
        rw [← same, UInt32.ofNat_toNat] at last
        exact last rfl
      rw [if_neg last]
      exact ih (by omega)

theorem Environment.funcs_zeroed (count : Nat) : (zeroed count).funcs = .empty := by
  induction count with
  | zero => rfl
  | succ count ih => exact ih

theorem Environment.Preset.defineAll {e e' : Environment} (preset : e.Preset e') (fs : List Func) :
    (e.defineAll fs).Preset (e'.defineAll fs) := by
  induction fs generalizing e e' with
  | nil => exact preset
  | cons f fs ih =>
    have defined : (e.define f).Preset (e'.define f) :=
      ⟨preset.globals, by simp only [Environment.define, preset.funcs]⟩
    exact ih defined

/-- The run did not miss the value of a global, and its gas lasted. -/
def RunResult.Settled {α : Type} (r : RunResult α) : Prop :=
  ∀ f, r.fault? = some f → (∀ n, f.cause ≠ .undefinedGlobal n) ∧ ∀ limit, f.cause ≠ .gasExhausted limit

/-- A settled run that starts without globals does the same when they are zero. -/
theorem Environment.run_zeroed {limits : Limits} (settled : (Environment.run limits {} p).Settled)
    (count : Nat) : ((zeroed count).run limits p).result = (Environment.run limits {} p).result ∧
      ((zeroed count).run limits p).outputs = (Environment.run limits {} p).outputs := by
  have fresh : (({} : Environment).defineAll p.funcs).Preset ((zeroed count).defineAll p.funcs) :=
    Environment.Preset.defineAll ⟨fun n v found => (by cases found), funcs_zeroed count⟩ p.funcs
  have started : (Machine.start limits {} p).Preset (Machine.start limits (zeroed count) p) :=
    ⟨fresh, rfl, rfl, rfl, rfl⟩
  rw [run_eq_ofEnding] at settled
  rw [run_eq_ofEnding, run_eq_ofEnding]
  have ran := started.run limits
  generalize (Machine.start limits {} p).run limits = ending at ran settled
  generalize (Machine.start limits (zeroed count) p).run limits = ending' at ran
  obtain ⟨result, last⟩ := ending
  obtain ⟨result', last'⟩ := ending'
  cases result with
  | ok v =>
    rcases ran with same | ⟨k, line, n, missing⟩
    · cases result' with
      | ok w =>
        rw [RunResult.ofEnding, RunResult.ofEnding, same.1]
        exact ⟨rfl, congrArg Array.toList same.2.outputs⟩
      | error f => exact same.elim
    · cases missing
  | error f =>
    rcases ran with same | ⟨k, line, n, missing⟩
    · cases result' with
      | ok w => exact same.elim
      | error g =>
        rw [RunResult.ofEnding, RunResult.ofEnding, same.1]
        exact ⟨rfl, congrArg Array.toList same.2.outputs⟩
    · cases missing
      exact absurd rfl ((settled _ rfl).1 k)

namespace Assembly

variable {m : Module} {source : Source}

section

variable {inst : Instance} {d : MainDef} {store : Store}

theorem exists_entry {frame : Frame} (found : inst.frame? .main = some frame) :
    ∃ d, inst.code.entry = some d ∧ frame = .ofMain d := by
  rw [Instance.frame?, Instance.export?, if_pos rfl] at found
  cases entry : inst.code.entry with
  | none => simp [entry] at found
  | some d =>
    rw [entry] at found
    cases found
    exact ⟨d, rfl, rfl⟩

/-- An instance that ends as the interpreter does neither gets stuck nor runs out of steps, and gives
the value or the trap of the module. -/
theorem execute_of_sameEnd {f : Frame} {r : Except Fault (Option Value)} {outcome : Outcome}
    (ends : State.run inst.code Instance.patience { store := inst.store, frame := f } = (outcome, store))
    (same : SameEnd r outcome) :
    outcome ≠ .stuck ∧ outcome ≠ .outOfFuel ∧
      (∀ v, r = .ok v → inst.execute f = ({ inst with store }, .ok (v.getD 0))) ∧
      ∀ e, r = .error e → ∃ trap, trap? e.cause = some trap ∧
        inst.execute f = ({ inst with store }, .error (.trapped trap)) := by
  unfold Instance.execute
  rw [ends]
  match r, outcome with
  | .ok v, .finished w =>
    cases (same : v = w)
    exact ⟨nofun, nofun, by rintro _ ⟨⟩; rfl, nofun⟩
  | .error e, .trapped trap => exact ⟨nofun, nofun, nofun, by rintro _ ⟨⟩; exact ⟨trap, same, rfl⟩⟩

end

/-- What the entry point of a fresh instance hands over. -/
theorem runMain_ofModule (parsed : Program.parse source 0 = .ok p)
    (emitted : Module.ofProgram p = .ok m) (valid : m.isValid = true)
    (settled : (Environment.run {} {} p).Settled) :
    match (Environment.run {} {} p).fault? with
    | none => (Instance.ofModule m).runMain.2 = .ok (Environment.run {} {} p).outputs
    | some f => ∃ trap, trap? f.cause = some trap ∧
        (Instance.ofModule m).runMain.2 = .error (.trapped trap) := by
  obtain ⟨main, parts⟩ := emitted_of_ofProgram emitted
  have linked : Linked p m main := ⟨sound_of_parse parsed, parts, valid⟩
  have agrees : Agrees p [] ((Environment.zeroed p.globalCount.toNat).defineAll p.funcs) #[]
      (Instance.ofModule m).takeOutput.1.store := by
    refine ⟨?_, fun n bound => ?_, fun f member => ?_, rfl⟩
    · change (Array.replicate m.globalCount.toNat (0 : Value)).size = _
      rw [Array.size_replicate, parts.globalCount]
    · change _ = (Array.replicate m.globalCount.toNat (0 : Value))[n.toNat]?
      rw [Environment.global?, Environment.globals_defineAll, parts.globalCount,
        Array.getElem?_replicate, if_pos bound]
      exact Environment.global?_zeroed bound
    · exact Environment.get?_defineAll linked.sound.numbered.nodup member
  obtain ⟨result, outputs⟩ := Environment.run_zeroed settled p.globalCount.toNat
  generalize Environment.run {} {} p = fresh at settled result outputs ⊢
  have answered : ((Environment.zeroed p.globalCount.toNat).answer {} p .main).result =
      fresh.result.map fun _ => none := congrArg (Except.map fun _ => none) result
  have lasting : ¬ ((Environment.zeroed p.globalCount.toNat).answer {} p .main).Exhausted := by
    rintro ⟨f, limit, failed, exhausted⟩
    rw [answered] at failed
    cases stopped : fresh.result with
    | ok u =>
      rw [stopped] at failed
      cases failed
    | error g =>
      rw [stopped] at failed
      cases failed
      exact (settled f (by rw [RunResult.fault?, stopped])).2 limit exhausted
  obtain ⟨frame, outcome, store, found, ends, same, -⟩ := main_agrees linked rfl agrees rfl lasting
  obtain ⟨d, entry, rfl⟩ := exists_entry found
  have ran : State.run m Instance.patience
      { store := (Instance.ofModule m).store, frame := .ofMain d } = (outcome, store) :=
    ends Instance.patience (by decide)
  obtain ⟨-, -, finishes, traps⟩ := execute_of_sameEnd ran (answered ▸ same.ending)
  cases failed : fresh.result with
  | ok u =>
    have executed := finishes none (by rw [failed]; rfl)
    simp only [RunResult.fault?, failed, Instance.runMain, entry, executed]
    rw [← outputs]
    exact congrArg Except.ok same.output
  | error f =>
    obtain ⟨trap, known, executed⟩ := traps f (by rw [failed]; rfl)
    simp only [RunResult.fault?, failed, Instance.runMain, entry, executed]
    exact ⟨trap, known, rfl⟩

theorem ofImage_of_ofProgram {image : Image} (compiled : Image.ofProgram .working p = .ok image) :
    ∃ m, Module.ofProgram p = .ok m ∧ m.isValid = true ∧
      ∀ decode, Instance.ofImage decode image = .ok (.ofModule m) := by
  obtain ⟨m, emitted, assembled, code, valid⟩ := ofProgram_eq_ok.1 compiled
  change (if m.isValid then _ else _) = _ at assembled
  split at assembled
  · next fine =>
    cases assembled
    refine ⟨m, emitted, fine, fun decode => ?_⟩
    cases within : m.isWithinLimits <;> simp_all [Image.toModule, Instance.ofImage, Except.map]
  · cases assembled

end Assembly

/-! ## Both tools -/

theorem outputText_eq_empty {vs : List Value} : outputText vs = "" ↔ vs = [] := by
  rw [← String.toList_inj, outputText, toList_unlines]
  cases vs with
  | nil | cons v vs => simp [ended]

theorem Tool.run_of_ofArgs {t : Tool} {o : Options} (asked : Options.ofArgs t args = .ok o) :
    t.run args w = Job.result w (Job.ofTool t w o) := by
  rw [Tool.run, asked]

theorem Job.result_of_ok (done : job.on { disk := w.disk } = (.ok (), c)) :
    Job.result w job = { out := c.out, err := c.err, disk := c.disk, written := c.written } := by
  unfold Job.on at done
  rw [Job.result, done]

theorem Job.result_of_error {e : JobError} (failed : job.on { disk := w.disk } = (.error e, c)) :
    Job.result w job = { status := 1, out := c.out, err := c.err ++ e.text, disk := c.disk,
                         written := c.written } := by
  unfold Job.on at failed
  rw [Job.result, failed]

theorem Tool.run_interpreter {path text : String}
    (asked : Options.ofArgs .interpreter args = .ok { file := some path })
    (read : w.disk.readText path = .ok text) (parsed : Program.parse ⟨path, text⟩ 0 = .ok p) :
    (Tool.run .interpreter args w).out = outputText (Environment.run {} {} p).outputs ∧
      (Tool.run .interpreter args w).status =
        if (Environment.run {} {} p).fault?.isSome then 1 else 0 := by
  have done : (Job.ofTool .interpreter w { file := some path }).on { disk := w.disk } = _ :=
    Job.on_interpret (c := { disk := w.disk }) read parsed
  rw [Tool.run_of_ofArgs asked]
  generalize Environment.run {} {} p = run at done
  cases fault : run.fault? with
  | none =>
    rw [fault] at done
    rw [Job.result_of_ok done]
    exact ⟨String.empty_append, rfl⟩
  | some f =>
    rw [fault] at done
    rw [Job.result_of_error done]
    exact ⟨String.empty_append, rfl⟩

section

variable {v : World} {target : String} {content : Content} {inst : Assembly.Instance}
  (asked : Options.ofArgs .runner args = .ok { file := some target })
  (stored : v.disk.read target = .ok content)
  (loaded : Assembly.Instance.ofImage v.assembler.decode content.toImage = .ok inst)

include asked stored loaded

theorem Tool.run_runner_of_ok {outputs : List Value} (handed : inst.runMain.2 = .ok outputs) :
    (Tool.run .runner args v).out = outputText outputs ∧ (Tool.run .runner args v).status = 0 := by
  have done : (Job.ofTool .runner v { file := some target }).on { disk := v.disk } = _ :=
    Job.on_runner (c := { disk := v.disk }) stored loaded
  rw [handed] at done
  rw [Tool.run_of_ofArgs asked, Job.result_of_ok done]
  exact ⟨String.empty_append, rfl⟩

theorem Tool.run_runner_of_error {e : Assembly.UseError} (refused : inst.runMain.2 = .error e) :
    (Tool.run .runner args v).out = "" ∧ (Tool.run .runner args v).status = 1 := by
  have failed : (Job.ofTool .runner v { file := some target }).on { disk := v.disk } = _ :=
    Job.on_runner (c := { disk := v.disk }) stored loaded
  rw [refused] at failed
  rw [Tool.run_of_ofArgs asked, Job.result_of_error failed]
  exact ⟨rfl, rfl⟩

end

/-- **The runner prints what the interpreter prints, unless the run fails.** Both end with the same
status; after a failure the interpreter has printed the values that came before it, and the runner
none. -/
theorem runner_agrees_unless_trapped {w v : World} {args moduleArgs : List String}
    {path target text : String} {p : Program} {content : Content}
    (asked : Options.ofArgs .interpreter args = .ok { file := some path })
    (read : w.disk.readText path = .ok text) (parsed : Program.parse ⟨path, text⟩ 0 = .ok p)
    (compiled : Assembly.Image.ofProgram .working p = .ok content.toImage)
    (askedModule : Options.ofArgs .runner moduleArgs = .ok { file := some target })
    (stored : v.disk.read target = .ok content) (settled : (Environment.run {} {} p).Settled) :
    let run := Environment.run {} {} p
    let interpreted := Tool.run .interpreter args w
    let executed := Tool.run .runner moduleArgs v
    interpreted.out = outputText run.outputs ∧
      interpreted.status = (if run.fault?.isSome then 1 else 0) ∧
      executed.status = interpreted.status ∧
      executed.out = (if run.fault?.isSome then "" else interpreted.out) ∧
      (executed.out = interpreted.out ↔ run.fault? = none ∨ run.outputs = []) := by
  intro run interpreted executed
  obtain ⟨m, emitted, valid, loaded⟩ := Assembly.ofImage_of_ofProgram compiled
  have handed := Assembly.runMain_ofModule parsed emitted valid settled
  obtain ⟨printed, status⟩ := Tool.run_interpreter asked read parsed
  refine ⟨printed, status, ?_⟩
  rw [show interpreted.out = _ from printed, show interpreted.status = _ from status]
  cases fault : run.fault? with
  | none =>
    rw [show (Environment.run {} {} p).fault? = none from fault] at handed
    obtain ⟨out, done⟩ := Tool.run_runner_of_ok askedModule stored (loaded _) handed
    exact ⟨done, out, iff_of_true out (.inl rfl)⟩
  | some f =>
    rw [show (Environment.run {} {} p).fault? = some f from fault] at handed
    obtain ⟨trap, -, trapped⟩ := handed
    obtain ⟨out, failed⟩ := Tool.run_runner_of_error askedModule stored (loaded _) trapped
    refine ⟨failed, out, ?_⟩
    rw [show executed.out = "" from out, eq_comm, outputText_eq_empty]
    simp [run]

/-- A world with one file, and an assembler that works. -/
def World.holding (c : Content) : World where
  disk := { entries := [(["t"], .file c)] }
  assembler := .working

theorem World.read_holding (c : Content) : (World.holding c).disk.read "t" = .ok c := by
  cbv

theorem World.readText_holding (text : String) :
    (World.holding (.text text)).disk.readText "t" = .ok text := by
  cbv

theorem asked_interpreter : Options.ofArgs .interpreter ["t"] = .ok { file := some "t" } := by
  cbv

theorem asked_runner : Options.ofArgs .runner ["t"] = .ok { file := some "t" } := by
  cbv

/-- A source that prints, fails and would print again. -/
def trapping : String :=
  ". 1\n/ g0 1 0\n. 2\n"

/-- What `trapping` is parsed to. -/
def trappingProgram : Program where
  code := [⟨.output, [.lit 1], 1⟩, ⟨.binary .div, [.global 0, .lit 1, .lit 0], 2⟩,
    ⟨.output, [.lit 2], 3⟩]
  globalCount := 1

/-- What `trapping` is assembled to. -/
def trappingModule : Assembly.Module where
  globalCount := 1
  entry := some {
    hasPc := false
    body := [.const 1, .print, .const 1, .const 0, .arith .div, .globalSet 0, .const 2, .print] }

/-- The interpreter prints the value before the division, the runner prints nothing. -/
theorem runner_silent_on_trapping :
    Program.parse ⟨"t", trapping⟩ 0 = .ok trappingProgram ∧
    Assembly.Image.ofProgram .working trappingProgram = .ok (.ofModule trappingModule) ∧
    (Tool.run .interpreter ["t"] (.holding (.text trapping))).out = "1\n" ∧
    (Tool.run .interpreter ["t"] (.holding (.text trapping))).status = 1 ∧
    (Tool.run .runner ["t"] (.holding (.image (.ofModule trappingModule)))).out = "" ∧
    (Tool.run .runner ["t"] (.holding (.image (.ofModule trappingModule)))).status = 1 := by
  have parsed : Program.parse ⟨"t", trapping⟩ 0 = .ok trappingProgram := by cbv
  have compiled : Assembly.Image.ofProgram .working trappingProgram =
      .ok (.ofModule trappingModule) := by cbv
  have loaded (decode : List UInt8 → Option Assembly.Module) :
      Assembly.Instance.ofImage decode (.ofModule trappingModule) = .ok (.ofModule trappingModule) := by
    cbv
  have trapped : (Assembly.Instance.ofModule trappingModule).runMain.2 =
      .error (.trapped .divideByZero) := by cbv
  have outputs : (Environment.run {} {} trappingProgram).outputs = [1] := by cbv
  have fault : (Environment.run {} {} trappingProgram).fault? = some ⟨.divisionByZero, 2⟩ := by cbv
  obtain ⟨printed, status⟩ := Tool.run_interpreter asked_interpreter
    (World.readText_holding trapping) parsed
  obtain ⟨silent, failed⟩ := Tool.run_runner_of_error asked_runner
    (World.read_holding (.image (.ofModule trappingModule))) (loaded _) trapped
  rw [fault] at status
  rw [outputs] at printed
  exact ⟨parsed, compiled, printed, status, silent, failed⟩

/-- What both tools do with `trapping`, by the statement above. -/
theorem runner_agrees_unless_trapped_trapping :
    (Environment.run {} {} trappingProgram).Settled ∧
    (Tool.run .runner ["t"] (.holding (.image (.ofModule trappingModule)))).status =
      (Tool.run .interpreter ["t"] (.holding (.text trapping))).status ∧
    (Tool.run .runner ["t"] (.holding (.image (.ofModule trappingModule)))).out ≠
      (Tool.run .interpreter ["t"] (.holding (.text trapping))).out := by
  have fault : (Environment.run {} {} trappingProgram).fault? = some ⟨.divisionByZero, 2⟩ := by cbv
  have outputs : (Environment.run {} {} trappingProgram).outputs = [1] := by cbv
  have settled : (Environment.run {} {} trappingProgram).Settled := by
    intro f found
    rw [fault] at found
    cases found
    constructor <;> rintro _ ⟨⟩
  obtain ⟨-, -, status, -, same⟩ := runner_agrees_unless_trapped asked_interpreter
    (World.readText_holding trapping) (by cbv) (by cbv) asked_runner
    (World.read_holding (.image (.ofModule trappingModule))) settled
  refine ⟨settled, status, fun equal => ?_⟩
  rcases same.1 equal with none | none
  · cases fault.symm.trans none
  · cases outputs.symm.trans none

end SlotLang
