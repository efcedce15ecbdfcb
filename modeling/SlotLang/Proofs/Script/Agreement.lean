import SlotLang.Proofs.Script.Simulation

/-!
# Scripts do what their programs do

A run of a program is compared with the script of the program, read as Python. If the run completes,
so does the script, with the same output and the same globals; if the run fails to divide, the
script raises the corresponding exception after the same output. There is no condition on the limits
of the run, since a run that ends by itself or at a division has kept to them.
-/

namespace SlotLang.Script

variable {p : Program}

/-- Every long enough execution of a script ends this way. -/
def EndsWith (script : Script) (outcome : Outcome) (t : State) : Prop :=
  Ends (State.run script) script.start (outcome, t)

/-- A state that has printed some values and whose globals are those of an environment. -/
structure Shows (outputs : List Value) (e : Environment) (t : State) : Prop where
  output : t.output = outputs.map Int64.toInt
  globals : ∀ n, t.globals (Operand.global n).text = (e.global? n).map Int64.toInt

/-- A script follows a run: it completes with the output and the globals of a run that completes, and
it raises after the same output where a run fails to divide. -/
def FollowsRun (script : Script) (r : RunResult Unit) : Prop :=
  match r.result with
  | .ok _ => ∃ t, script.EndsWith .finished t ∧ Shows r.outputs r.env t
  | .error f => ∀ e, exception? f.cause = some e →
      ∃ t, script.EndsWith (.raised e) t ∧ Shows r.outputs r.env t

/-- Before the first round, both sides are at the start of the module code. -/
theorem exists_mirrored_start (sound : p.Sound 0) (gas : Nat) :
    ∃ t, Reaches (State.run (ofProgram p)) (ofProgram p).start t ∧
      Mirrored p p.mainBody
        { env := ({} : Environment).defineAll p.funcs, top := .ofModule p.code, gas } t := by
  obtain ⟨t, now, loops, reaches, alike, stands⟩ :=
    stands_of_body (ofProgram p) (ofProgram p).start false p.code []
  rw [List.append_nil] at reaches
  refine ⟨_, reaches, Paired.of_alike (s := (ofProgram p).start) ?_ (alike.facing now loops), stands⟩
  refine ⟨⟨fun n => ?_, fun f member => ?_, rfl⟩, ?_, .main⟩
  · change none = _
    rw [Environment.global?, Environment.globals_defineAll]
    rfl
  · exact Environment.get?_defineAll sound.numbered.nodup member
  · refine ⟨p.mainBody_mem, Activation.runs_ofModule p, scoped_main p, ?_, ?_⟩
    · intro n v here
      cases here
    · intro n v here
      cases here

theorem followsRun_of_matched {ending : Machine.Ending}
    (matched : Matched p (ofProgram p).start ending.status) :
    (ofProgram p).FollowsRun (.ofEnding (fun _ => ()) ending) := by
  obtain ⟨result, last⟩ := ending
  cases result with
  | ok v =>
    obtain ⟨t, ends, agrees⟩ := matched
    exact ⟨t, ends, agrees.output, agrees.globals⟩
  | error f =>
    intro e raised
    obtain ⟨t, ends, agrees⟩ := matched e raised
    exact ⟨t, ends, agrees.output, agrees.globals⟩

theorem followsRun_of_sound (sound : p.Sound 0) (limits : Limits) :
    (ofProgram p).FollowsRun (Environment.run limits {} p) := by
  obtain ⟨s, reaches, mirrored⟩ := exists_mirrored_start sound limits.gas
  exact followsRun_of_matched (.of_reaches reaches (mirrored_run sound mirrored))

/-- The script of a program follows every run of it in a fresh environment. -/
theorem script_follows_run {source : Source} (parsed : Program.parse source 0 = .ok p)
    (limits : Limits) : (ofProgram p).FollowsRun (Environment.run limits {} p) :=
  followsRun_of_sound (sound_of_parse parsed) limits

/-- A loop that prints quotients until the divisor is zero. -/
def quotients : Source where
  name := "quotients"
  text := "# 0 1 \x7b\n/ v0 10 a0\n^ v0\n\x7d\n= g0 2\n: 0\n$ g1 0 g0\n. g1\n- g0 g0 1\n@ 0\n"

/-- What `quotients` is parsed to. -/
def quotientsProgram : Program where
  code := [⟨.assign, [.global 0, .lit 2], 5⟩, ⟨.label, [.lit 0], 6⟩,
    ⟨.call, [.global 1, .lit 0, .global 0], 7⟩, ⟨.output, [.global 1], 8⟩,
    ⟨.binary .sub, [.global 0, .global 0, .lit 1], 9⟩, ⟨.jump, [.lit 0], 10⟩]
  funcs := [{ index := 0, paramCount := 1, localCount := 1, line := 1
              body := [⟨.binary .div, [.var 0, .lit 10, .arg 0], 2⟩, ⟨.ret, [.var 0], 3⟩] }]
  globalCount := 2

set_option maxRecDepth 4000 in
/-- The script of `quotients` prints two quotients and then raises. -/
theorem script_follows_run_quotients :
    Program.parse quotients 0 = .ok quotientsProgram ∧
    ∃ t, (ofProgram quotientsProgram).EndsWith (.raised .zeroDivision) t ∧ t.output = [5, 10] := by
  have parsed : Program.parse quotients 0 = .ok quotientsProgram := by cbv
  have failed : ((Environment.run { gas := 100 } {} quotientsProgram).result.map fun _ => ()) =
      .error ⟨.divisionByZero, 2⟩ := by cbv
  have outputs : (Environment.run { gas := 100 } {} quotientsProgram).outputs = [5, 10] := by cbv
  have follows := script_follows_run parsed { gas := 100 }
  unfold FollowsRun at follows
  refine ⟨parsed, ?_⟩
  cases result : (Environment.run { gas := 100 } {} quotientsProgram).result with
  | ok v =>
    rw [result] at failed
    cases failed
  | error f =>
    rw [result] at failed follows
    cases failed
    obtain ⟨t, ends, shows⟩ := follows .zeroDivision rfl
    refine ⟨t, ends, ?_⟩
    rw [shows.output, outputs]
    rfl

end SlotLang.Script
