import SlotLang.Proofs.Limits.Unlimited
import SlotLang.Proofs.Script.Agreement

/-!
# Undefined globals in scripts

Where a run stops because a global has no value, the script of the program arrives at the statements
of the same instruction with the same output. There it raises the exception for the name of that
global, with one exception: `and` and `or` do not look at a second operand that the first one makes
superfluous, while an instruction reads all its operands. Such a statement stores its result, and the
script goes on.
-/

namespace SlotLang

namespace Machine

variable {limits : Limits} {m n : Machine} {i : Instruction} {f : Fault}

theorem line_of_atLine {α : Type} {x : Except Cause α} (failed : atLine i x = .error f) :
    f.line = i.line := by
  cases x with
  | ok a => cases failed
  | error c =>
    cases failed
    rfl

/-- A fault is reported on the line of its instruction, unless it is the caller that cannot store a
result. -/
theorem line_of_effect (failed : m.effect limits i = .error f) :
    f.line = i.line ∨ ∃ slot, f.cause = .slotOutOfScope slot := by
  unfold effect at failed
  cases opcode : i.opcode with
  | ret =>
    rw [opcode] at failed
    change m.returning i = _ at failed
    unfold returning at failed
    split at failed
    · cases failed
      exact .inl rfl
    · rcases value : atLine i (m.readOperand i 0) with g | v
      · rw [value] at failed
        cases failed
        exact .inl (line_of_atLine value)
      · rw [value] at failed
        rcases m.leaving_cases v with left | ⟨slot, line, unwritable⟩
        · cases left.symm.trans failed
        · cases unwritable.symm.trans failed
          exact .inr ⟨slot, rfl⟩
  | label | defineFunc | blockClose =>
    rw [opcode] at failed
    cases failed
  | _ =>
    rw [opcode] at failed
    exact .inl (line_of_atLine failed)

/-- A run stops at an undefined global because of the current instruction. -/
theorem misses_of_round {k : UInt32} (failed : m.round limits = .failed f n)
    (misses : f.cause = .undefinedGlobal k) :
    n = m ∧ ∃ i, m.top.current? = some i ∧ m.effect limits i = .error f ∧ f.line = i.line := by
  cases current : m.top.current? with
  | none =>
    rw [round_ended current, fallOff] at failed
    split at failed
    · cases failed
    · rcases m.leaving_cases 0 with left | ⟨slot, line, unwritable⟩
      · rw [left] at failed
        exact absurd failed (perform_ne_failed _ _ _ _)
      · rw [unwritable] at failed
        cases failed
        cases misses
  | some i =>
    cases paid : m.gas with
    | zero =>
      rw [round_unpaid current paid] at failed
      cases failed
      cases misses
    | succ gas =>
      cases done : m.effect limits i with
      | ok e =>
        rw [round_of_ok current paid done] at failed
        exact absurd failed (perform_ne_failed _ _ _ _)
      | error g =>
        rw [round_of_error current paid done] at failed
        cases failed
        refine ⟨rfl, i, rfl, done, (line_of_effect done).resolve_right ?_⟩
        rintro ⟨slot, other⟩
        cases misses.symm.trans other

end Machine

namespace Script

variable {p : Program} {b : Body} {mc : Machine} {s t : State} {n : UInt32} {a dest : Operand}
  {e : Exception} {line : Nat} {op : BinaryOp}

/-- The statement of an instruction does not look at the second operand. -/
def State.Overlooks (s : State) (i : Instruction) : Prop :=
  ∃ op dest a b line, i = ⟨.binary op, [dest, a, b], line⟩ ∧
    (op = .and ∧ s.operand a = .ok 0 ∨ op = .or ∧ ∃ v, v ≠ 0 ∧ s.operand a = .ok v)

/-! ## Reading -/

/-- The exception for a global without a value. -/
def missing (n : UInt32) : Exception :=
  .name (Operand.global n).text

theorem Paired.read_missing (paired : Paired p b mc s) {o : Operand}
    (value : mc.read o = .error (.undefinedGlobal n)) :
    o = .global n ∧ s.operand o = .error (missing n) := by
  rcases Machine.read_error value with other | ⟨k, rfl, same⟩
  · cases other
  · cases same
    refine ⟨rfl, ?_⟩
    change s.lookup _ = _
    unfold State.lookup
    rw [paired.holds.scope.global n, if_neg Bool.false_ne_true, paired.agrees.globals n,
      (elim_eq_error.1 value).1]
    rfl

theorem Paired.readAll_missing (paired : Paired p b mc s) {os : List Operand}
    (values : os.mapM mc.read = .error (.undefinedGlobal n)) :
    os.mapM s.operand = .error (missing n) := by
  induction os with
  | nil => cases values
  | cons o os ih =>
    rw [List.mapM_cons] at values ⊢
    cases value : mc.read o with
    | error c =>
      rw [value] at values
      cases values
      rw [(paired.read_missing value).2]
      rfl
    | ok v =>
      rw [paired.read value]
      cases rest : os.mapM mc.read with
      | error c =>
        rw [value, rest] at values
        cases values
        rw [show os.mapM s.operand = _ from ih rest]
        rfl
      | ok vs =>
        rw [value, rest] at values
        cases values

theorem term_of_left_error {b : Operand} (left : s.operand a = .error e) :
    s.term (.ofBinary op a b) = .error e := by
  cases op <;> simp only [Term.ofBinary, State.term, left] <;> rfl

theorem term_of_right_error {b : Operand} {v : Int}
    (looks : ¬ s.Overlooks ⟨.binary op, [dest, a, b], line⟩) (left : s.operand a = .ok v)
    (right : s.operand b = .error e) : s.term (.ofBinary op a b) = .error e := by
  cases op with
  | and =>
    have nonzero : v ≠ 0 := by
      rintro rfl
      exact looks ⟨_, _, _, _, _, rfl, .inl ⟨rfl, left⟩⟩
    change (do if (← s.operand a) ≠ 0 then _ else _) = _
    rw [left]
    change (if v ≠ 0 then _ else _) = _
    rw [if_pos nonzero, right]
    rfl
  | or =>
    have zero : v = 0 := by
      by_contra nonzero
      exact looks ⟨_, _, _, _, _, rfl, .inr ⟨rfl, v, nonzero, left⟩⟩
    change (do if (← s.operand a) ≠ 0 then _ else _) = _
    rw [left]
    change (if v ≠ 0 then _ else _) = _
    rw [if_neg (not_not.2 zero), right]
    rfl
  | _ =>
    simp only [Term.ofBinary, State.term, left, right]
    rfl

/-- A term that does not look at its second operand has a value. -/
theorem term_of_overlooks {b : Operand} (overlooks : s.Overlooks ⟨.binary op, [dest, a, b], line⟩) :
    s.term (.ofBinary op a b) = .ok (ofBool (op = .or)) := by
  obtain ⟨_, _, _, _, _, same, settled⟩ := overlooks
  cases same
  rcases settled with ⟨rfl, zero⟩ | ⟨rfl, v, nonzero, value⟩
  · change (do if (← s.operand a) ≠ 0 then _ else _) = _
    rw [zero]
    rfl
  · change (do if (← s.operand a) ≠ 0 then _ else _) = _
    rw [value]
    exact if_pos nonzero

/-! ## Statements -/

theorem ends_call {script : Script} {f : UInt32} {d : Def} {args : List Operand}
    (known : script.def? f = some d) (values : args.mapM s.operand = .error e) (dest : Operand)
    (rest : List Stmt) (loops : List (List Stmt × List Stmt)) :
    Ends (State.run script) (s.facing (.assign dest (.call f args) :: rest) loops)
      (.raised e, s.facing (.assign dest (.call f args) :: rest) loops) := by
  have read : args.mapM (s.facing (.assign dest (.call f args) :: rest) loops).operand = .error e :=
    values
  refine ends_of_raised ?_
  change State.call _ _ _ _ _ _ = _
  rw [State.call, known]
  dsimp only
  rw [read]

namespace Poised

variable {i : Instruction} {rest : List Stmt} {loops : List (List Stmt × List Stmt)}
  {limits : Limits}

theorem raises_of_fails (poised : Poised p b mc t i rest loops) (sound : p.Sound 0) {cause : Cause}
    (fails : Machine.Fails limits mc i cause) (misses : cause = .undefinedGlobal n)
    (looks : ¬ t.Overlooks i) : Ends (State.run (ofProgram p))
      (t.facing (instructionStmts (tableOf b.code) b.inFunc i ++ rest) loops)
      (.raised (missing n), t.facing (instructionStmts (tableOf b.code) b.inFunc i ++ rest) loops) := by
  have paired := poised.paired
  have value_missing : ∀ {o : Operand}, mc.read o = .error cause → t.operand o = .error (missing n) :=
    fun value => (paired.read_missing (misses ▸ value)).2
  cases fails with
  | @assign dest a line c value =>
    have plain : ∀ f args, Term.operand a ≠ .call f args := nofun
    exact ends_assign plain (value_missing value) rest loops
  | @left op dest a b' line c value =>
    exact ends_assign (ofBinary_ne_call op a b')
      (term_of_left_error (value_missing value)) rest loops
  | @right op dest a b' line x c left value =>
    exact ends_assign (ofBinary_ne_call op a b')
      (term_of_right_error looks (paired.read left) (value_missing value)) rest loops
  | @apply op dest a b' line x y c left right result =>
    have value := term_follows op (paired.read left) (paired.read right)
    rw [result, misses] at value
    obtain ⟨e, raised, -⟩ := value
    cases raised
  | @not dest a line c value =>
    have plain : ∀ f args, Term.negation a ≠ .call f args := nofun
    refine ends_assign plain ?_ rest loops
    change (do return ofBool ((← t.operand a) = 0)) = _
    rw [value_missing value]
    rfl
  | @condition a _ _ _ value | @output a _ _ value =>
    refine ends_of_raised ?_
    change State.withValue _ (t.operand a) _ = _
    rw [value_missing value]
    rfl
  | @args dest v args line c values =>
    obtain ⟨f, -, known, -⟩ :=
      sound.func?_call (Program.mem_allCode paired.holds.body poised.member) rfl
    have defined : (ofProgram p).def? v.low = some (.ofFunc f) := by
      rw [def?_ofProgram, known, Option.map_some]
    exact ends_call defined (paired.readAll_missing (misses ▸ values)) dest rest loops
  | @ret a line c inside value =>
    have inFunc : b.inFunc = true :=
      Bool.of_not_eq_false (mt paired.holds.runs.entry.2 inside)
    rw [inFunc]
    refine ends_of_raised ?_
    change State.withValue _ (t.operand a) _ = _
    rw [value_missing value]
    rfl
  | callee values refused =>
    rcases Machine.callee_error refused with rfl | ⟨expected, rfl⟩ | rfl <;> cases misses
  | @leaving a line v f inside value unwritable =>
    rcases mc.leaving_cases v with left | ⟨slot, line, error⟩
    · cases left.symm.trans unwritable
    · cases error.symm.trans unwritable
      cases misses
  | store | jump | jumpIf | outside => cases misses

/-- The statement of an instruction goes on if it does not look at an undefined global. -/
theorem stores_of_fails (poised : Poised p b mc t i rest loops)
    (fails : Machine.Fails limits mc i (.undefinedGlobal n)) (overlooks : t.Overlooks i) :
    ∃ op dest a, i = ⟨.binary op, [dest, a, .global n], i.line⟩ ∧
      Reaches (State.run (ofProgram p))
        (t.facing (instructionStmts (tableOf b.code) b.inFunc i ++ rest) loops)
        ((t.assign dest.text (ofBool (op = .or))).facing rest loops) := by
  have paired := poised.paired
  have stores := overlooks
  obtain ⟨op, dest, a, b', line, rfl, settled⟩ := overlooks
  have read : ∃ v, t.operand a = .ok v := by
    rcases settled with ⟨-, zero⟩ | ⟨-, v, -, value⟩
    · exact ⟨0, zero⟩
    · exact ⟨v, value⟩
  obtain ⟨v, read⟩ := read
  have undefined : b' = .global n := by
    cases fails with
    | left value => cases read.symm.trans (paired.read_missing value).2
    | right _ value => exact (paired.read_missing value).1
    | apply left right result =>
      have value := term_follows op (paired.read left) (paired.read right)
      rw [result] at value
      obtain ⟨e, raised, -⟩ := value
      cases raised
  rw [undefined] at stores ⊢
  exact ⟨op, dest, a, rfl, reaches_assign dest (term_of_overlooks stores) rest loops⟩

end Poised

/-! ## Runs -/

/-- What a script does with the statements of an instruction that reads an undefined global: it raises
the exception for that name, unless it does not look there and stores a result. -/
structure Halts (p : Program) (b : Body) (i : Instruction) (n : UInt32) (t : State) (rest : List Stmt) :
    Prop where
  code : t.frame.code = instructionStmts (tableOf b.code) b.inFunc i ++ rest
  raises : ¬ t.Overlooks i → Ends (State.run (ofProgram p)) t (.raised (missing n), t)
  stores : t.Overlooks i → ∃ op dest a, i = ⟨.binary op, [dest, a, .global n], i.line⟩ ∧
    Reaches (State.run (ofProgram p)) t ((t.assign dest.text (ofBool (op = .or))).goOn rest)

/-- Where the script is after a round of the machine, if that round goes on or stops for want of a
global. -/
def Traced (p : Program) (s : State) : Status → Prop
  | .running mc => ∃ b t, Reaches (State.run (ofProgram p)) s t ∧ Mirrored p b mc t
  | .finished _ _ => True
  | .failed f mc => ∀ n, f.cause = .undefinedGlobal n → ∃ b ∈ p.bodies, ∃ i ∈ b.code,
      i.line = f.line ∧ ∃ t rest, Reaches (State.run (ofProgram p)) s t ∧
        Agrees p mc.env mc.outputs t.globals t.output ∧ Halts p b i n t rest

theorem Traced.of_reaches {status : Status} (reaches : Reaches (State.run (ofProgram p)) s t)
    (traced : Traced p t status) : Traced p s status := by
  cases status with
  | running mc =>
    obtain ⟨b, u, onward, mirrored⟩ := traced
    exact ⟨b, u, reaches.trans onward, mirrored⟩
  | finished v mc => trivial
  | failed f mc =>
    intro n misses
    obtain ⟨b, body, i, member, line, u, rest, onward, stands⟩ := traced n misses
    exact ⟨b, body, i, member, line, u, rest, reaches.trans onward, stands⟩

theorem traced_round (sound : p.Sound 0) {limits : Limits} (mirrored : Mirrored p b mc s) :
    Traced p s (mc.round limits) := by
  have matched : Matched p s (mc.round limits) := mirrored_round sound mirrored
  cases round : mc.round limits with
  | running mc' =>
    rw [round] at matched
    exact matched
  | finished v mc' => trivial
  | failed f mc' =>
    intro n misses
    obtain ⟨rfl, i, current, failed, line⟩ := Machine.misses_of_round round misses
    rw [mirrored.holds.runs.current?] at current
    obtain ⟨t, rest, reaches, poised⟩ := mirrored.poised current
    have shaped : i.Shaped := sound.shaped (Program.mem_allCode mirrored.holds.body poised.member)
    have fails := Machine.effect_answers limits mc' shaped
    rw [failed] at fails
    change Machine.Fails _ _ _ f.cause at fails
    refine ⟨b, mirrored.holds.body, i, poised.member, line.symm, _, rest, reaches,
      poised.paired.agrees, rfl, poised.raises_of_fails sound fails misses, fun overlooks => ?_⟩
    obtain ⟨op, dest, a, same, onward⟩ := poised.stores_of_fails (misses ▸ fails) overlooks
    refine ⟨op, dest, a, same, ?_⟩
    rw [State.assign_facing]
    exact onward

theorem traced_run (sound : p.Sound 0) (limits : Limits) (mirrored : Mirrored p b mc s) :
    Traced p s (mc.run limits).status := by
  refine Machine.matched_run (R := fun mc s => ∃ b, Mirrored p b mc s) ?_ ?_ ⟨b, mirrored⟩
  · rintro mc s ⟨b, mirrored⟩
    exact traced_round sound mirrored
  · rintro s mc ⟨b, t, reaches, mirrored⟩
    exact ⟨t, ⟨b, mirrored⟩, fun status => .of_reaches reaches⟩

/-- Where a run stops for want of a global, the script comes to the statements of the same instruction
with the same output and the same globals. It raises the exception for the name of that global there,
unless it does not look at it. -/
theorem script_raises_unless_overlooked {source : Source} (parsed : Program.parse source 0 = .ok p)
    (limits : Limits) {line : Nat}
    (failed : (Environment.run limits {} p).result = .error ⟨.undefinedGlobal n, line⟩) :
    ∃ b ∈ p.bodies, ∃ i ∈ b.code, i.line = line ∧ ∃ t rest,
      Reaches (State.run (ofProgram p)) (ofProgram p).start t ∧
      Shows (Environment.run limits {} p).outputs (Environment.run limits {} p).env t ∧
      Halts p b i n t rest := by
  have sound : p.Sound 0 := sound_of_parse parsed
  obtain ⟨s, reaches, mirrored⟩ := exists_mirrored_start sound limits.gas
  have traced := Traced.of_reaches reaches (traced_run sound limits mirrored)
  unfold Environment.run at failed ⊢
  dsimp only at failed ⊢
  generalize Machine.run limits _ = ending at traced failed ⊢
  obtain ⟨result, last⟩ := ending
  cases result with
  | ok v => cases failed
  | error f =>
    cases failed
    obtain ⟨b, body, i, member, line, t, rest, reaches, agrees, halts⟩ := traced n rfl
    exact ⟨b, body, i, member, line, t, rest, reaches, ⟨agrees.output, agrees.globals⟩, halts⟩

/-- A function that adds a global without a value to its argument. -/
def sumWithUndefined : Source where
  name := "sum with undefined"
  text := "# 0 1 \x7b\n+ v0 a0 g7\n^ v0\n\x7d\n. 5\n$ g0 0 3\n"

/-- What `sumWithUndefined` is parsed to. -/
def sumWithUndefinedProgram : Program where
  code := [⟨.output, [.lit 5], 5⟩, ⟨.call, [.global 0, .lit 0, .lit 3], 6⟩]
  funcs := [{ index := 0, paramCount := 1, localCount := 1, line := 1
              body := [⟨.binary .add, [.var 0, .arg 0, .global 7], 2⟩, ⟨.ret, [.var 0], 3⟩] }]
  globalCount := 8

set_option maxRecDepth 4000 in
/-- The script of `sumWithUndefined` prints and then raises in the function. -/
theorem script_raises_unless_overlooked_sum :
    Program.parse sumWithUndefined 0 = .ok sumWithUndefinedProgram ∧
    ∃ t, (ofProgram sumWithUndefinedProgram).EndsWith (.raised (.name "g7")) t ∧ t.output = [5] := by
  have parsed : Program.parse sumWithUndefined 0 = .ok sumWithUndefinedProgram := by cbv
  have failed : (Environment.run { gas := 10 } {} sumWithUndefinedProgram).result =
      .error ⟨.undefinedGlobal 7, 2⟩ := by cbv
  have outputs : (Environment.run { gas := 10 } {} sumWithUndefinedProgram).outputs = [5] := by cbv
  obtain ⟨b, body, i, member, line, t, rest, reaches, shows, halts⟩ :=
    script_raises_unless_overlooked parsed { gas := 10 } failed
  refine ⟨parsed, t, reaches.ends (halts.raises ?_), ?_⟩
  · -- The only instruction on that line is the sum.
    have only : ∀ b ∈ sumWithUndefinedProgram.bodies, ∀ i ∈ b.code, i.line = 2 →
        i.opcode = .binary .add := by decide
    rintro ⟨op, dest, a, b', line', rfl, settled⟩
    cases only b body _ member line
    rcases settled with ⟨other, -⟩ | ⟨other, -⟩ <;> cases other
  · rw [shows.output, outputs]
    rfl

/-- A conjunction whose first operand is zero and whose second has no value. -/
def zeroAndUndefined : Source where
  name := "zero and undefined"
  text := "& g0 0 g1\n. 1\n"

/-- What `zeroAndUndefined` is parsed to. -/
def zeroAndUndefinedProgram : Program where
  code := [⟨.binary .and, [.global 0, .lit 0, .global 1], 1⟩, ⟨.output, [.lit 1], 2⟩]
  globalCount := 2

/-- The run of `zeroAndUndefined` stops before it prints anything; its script prints and ends. -/
theorem script_of_zeroAndUndefined_ends :
    Program.parse zeroAndUndefined 0 = .ok zeroAndUndefinedProgram ∧
    (Environment.run { gas := 10 } {} zeroAndUndefinedProgram).result =
      .error ⟨.undefinedGlobal 1, 1⟩ ∧
    (Environment.run { gas := 10 } {} zeroAndUndefinedProgram).outputs = [] ∧
    ∃ t, (ofProgram zeroAndUndefinedProgram).EndsWith .finished t ∧ t.output = [1] := by
  let script := ofProgram zeroAndUndefinedProgram
  refine ⟨by cbv, by cbv, by cbv, (script.start.run script 3).2, ⟨3, fun fuel enough => ?_⟩, rfl⟩
  obtain ⟨more, rfl⟩ := Nat.exists_eq_add_of_le enough
  rw [Nat.add_comm]
  rfl

end Script

end SlotLang
