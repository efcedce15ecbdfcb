import SlotLang.Proofs.Sessions.Joining
import SlotLang.Proofs.Sessions.Mirroring
import SlotLang.Proofs.Sessions.Soundness

/-!
# Splitting a program into units

A joined text runs its first part as the first unit does, with functions of the second part defined
early but not called, and then goes on as the second unit does in what the first has left. So a program
may be fed to a session in two units: what is printed, what is left behind and how the run ends are the
same (`split_run_agrees`).
-/

open List

namespace SlotLang

open Environment

/-! ## Functions without lines -/

/-- The functions that are defined, without the numbers of their lines. -/
def Environment.bareFuncs (e : Environment) : List (UInt32 × Func) :=
  e.funcs.toList.map fun entry => (entry.1, entry.2.func.bare)

theorem map_insertEntry {α β : Type} (f : α → β) (key : UInt32) (value : α)
    (entries : List (UInt32 × α)) :
    (SlotMap.insertEntry key value entries).map (fun e => (e.1, f e.2)) =
      SlotMap.insertEntry key (f value) (entries.map fun e => (e.1, f e.2)) := by
  induction entries with
  | nil => rfl
  | cons e entries ih =>
    simp only [SlotMap.insertEntry, map_cons]
    split
    · rfl
    · split
      · rfl
      · rw [map_cons, ih]

namespace Environment

theorem bareFuncs_define (e : Environment) (f : Func) :
    (e.define f).bareFuncs = SlotMap.insertEntry f.index f.bare e.bareFuncs :=
  map_insertEntry (fun c : Callable => c.func.bare) f.index (.ofFunc f) e.funcs.entries

/-- What is defined is the same where the functions are, but for their lines. -/
theorem bareFuncs_defineAll {e e' : Environment} {fs gs : List Func}
    (before : e'.bareFuncs = e.bareFuncs) (same : gs.map Func.bare = fs.map Func.bare) :
    (e'.defineAll gs).bareFuncs = (e.defineAll fs).bareFuncs := by
  induction fs generalizing e e' gs with
  | nil =>
    rw [map_nil, map_eq_nil_iff] at same
    rw [same]
    exact before
  | cons f fs ih =>
    obtain ⟨g, gs, rfl, first, rest⟩ := map_eq_cons_iff.1 same
    have define : (e'.define g).bareFuncs = (e.define f).bareFuncs := by
      rw [bareFuncs_define, bareFuncs_define, before, (Func.eq_of_bare first).1, first]
    change ((e'.define g).defineAll gs).bareFuncs = ((e.define f).defineAll fs).bareFuncs
    exact ih define rest

theorem defineAll_append (e : Environment) (fs gs : List Func) :
    e.defineAll (fs ++ gs) = (e.defineAll fs).defineAll gs :=
  foldl_append

theorem lookup_bareFuncs (e : Environment) (index : UInt32) :
    e.bareFuncs.lookup index = (e.funcs.get? index).map fun c => c.func.bare :=
  lookup_map_snd (fun c : Callable => c.func.bare) e.funcs.entries index

/-- Environments with the same functions but for their lines cover each other. -/
theorem covers_of_bareFuncs {complete : Prop} {e e' : Environment}
    (same : e'.bareFuncs = e.bareFuncs) : Covers complete e.funcs e'.funcs := by
  have look (index : UInt32) : (e'.funcs.get? index).map (fun c => c.func.bare) =
      (e.funcs.get? index).map fun c => c.func.bare := by
    rw [← lookup_bareFuncs, ← lookup_bareFuncs, same]
  refine ⟨fun index c known => ?_, fun _ index unknown => ?_⟩
  · have there := look index
    rw [known] at there
    exact Option.map_eq_some_iff.1 there
  · have there := look index
    rw [unknown] at there
    exact Option.map_eq_none_iff.1 there

/-- Functions with other numbers may be defined besides. -/
theorem covers_append {fs gs : List Func} (nodup : ((fs ++ gs).map Func.index).Nodup) :
    Covers False (defineAll {} fs).funcs (defineAll {} (fs ++ gs)).funcs := by
  refine ⟨fun index c known => ?_, False.elim⟩
  by_cases defined : ∃ f ∈ fs, f.index = index
  · obtain ⟨f, member, rfl⟩ := defined
    have inner : (fs.map Func.index).Nodup := by
      rw [map_append] at nodup
      exact (nodup_append.1 nodup).1
    rw [get?_defineAll inner member] at known
    cases known
    exact ⟨_, get?_defineAll nodup (mem_append_left gs member), rfl⟩
  · have other : ∀ f ∈ fs, f.index ≠ index := fun f member same => defined ⟨f, member, same⟩
    rw [get?_defineAll_of_ne other] at known
    cases known

end Environment

/-! ## Two units and the whole -/

/-- A program of two units, one behind the other. -/
structure Program.Splits (r p q : Program) : Prop where
  code : ∃ code, r.code = p.code ++ code ∧ SameCode code q.code
  funcs : ∃ funcs, r.funcs = p.funcs ++ funcs ∧ funcs.map Func.bare = q.funcs.map Func.bare
  indices : (r.funcs.map Func.index).Nodup
  labels : (definedLabels r.code).Nodup
  first : LabelsSound p.code
  second : LabelsSound q.code

theorem splits_of_parse {s first second : Source} {known : UInt32} {p q r : Program}
    (join : s.IsJoin first second) (above : Program.parse first 0 = .ok p)
    (behind : Program.parse second known = .ok q) (joined : Program.parse s 0 = .ok r) :
    r.Splits p q := by
  obtain ⟨code, funcs, codes, sameCode, definitions, sameFuncs⟩ := parse_join join above behind joined
  have sound := sound_of_parse joined
  exact {
    code := ⟨code, codes, sameCode⟩
    funcs := ⟨funcs, definitions, sameFuncs⟩
    indices := sound.numbered.nodup
    labels := sound.codeLabels.nodup
    first := (sound_of_parse above).codeLabels
    second := (sound_of_parse behind).codeLabels }

namespace Program.Splits

variable {p q r : Program} (splits : r.Splits p q)

include splits

/-- The first unit stands at the start. -/
def front : Placement where
  unit := p.code
  whole := r.code
  offset := 0
  embeds := by
    obtain ⟨code, codes, -⟩ := splits.code
    rw [codes]
    exact embedsAt_append_left splits.first code

/-- The second unit stands behind the first. -/
def back : Placement where
  unit := q.code
  whole := r.code
  offset := p.code.length
  embeds := by
    obtain ⟨code, codes, same⟩ := splits.code
    have labels := splits.labels
    rw [codes] at labels ⊢
    exact embedsAt_append_right same splits.second labels

theorem length_eq : r.code.length = p.code.length + q.code.length := by
  obtain ⟨code, codes, same⟩ := splits.code
  rw [codes, length_append, same.length_eq]

/-- Both units together define the functions of the whole. -/
theorem bareFuncs_eq {e : Environment} (funcs : e.funcs = (defineAll {} p.funcs).funcs) :
    (defineAll {} r.funcs).bareFuncs = (e.defineAll q.funcs).bareFuncs := by
  obtain ⟨gs, definitions, same⟩ := splits.funcs
  rw [definitions, defineAll_append]
  refine bareFuncs_defineAll ?_ same
  rw [bareFuncs, bareFuncs, funcs]

/-- The whole starts like its first unit. It has more functions, so faults need not be the same yet. -/
theorem together_start (limits : Limits) :
    Together False splits.front [] (Machine.start limits {} p) (Machine.start limits {} r) where
  globals := by
    rw [Machine.start, Machine.start, globals_defineAll, globals_defineAll]
  funcs := by
    obtain ⟨gs, definitions, -⟩ := splits.funcs
    have indices := splits.indices
    rw [definitions] at indices
    rw [Machine.start, Machine.start, definitions]
    exact covers_append indices
  stacked := .base (Nat.zero_le _)
  outputs := rfl
  gas := Nat.le_refl _

/-- When the first unit has ended, the whole goes on like the second one in what the first has left. -/
theorem together_between {limits : Limits} (lasts : (Machine.start limits {} r).Lasts limits)
    {v : Option Value} {m : Machine} (ended : (Machine.start limits {} p).run limits = ⟨.ok v, m⟩) :
    ∃ n, (Machine.start limits {} r).run limits = n.run limits ∧
      Together True splits.back m.outputs.toList (Machine.start limits m.env.clear q) n := by
  have tracks := tracks_run (splits.together_start limits) lasts
  have keeps := Machine.keeps_run limits (Machine.start limits {} p)
  rw [ended] at tracks keeps
  obtain ⟨n, same, together, outside, atEnd⟩ := tracks
  refine ⟨n, same, ?_⟩
  obtain ⟨under, top⟩ := together.stacked.eq_of_ended outside atEnd
  -- `n` is in the middle of the run, and so has the functions that the run starts and ends with
  have known : n.env.funcs = (defineAll {} r.funcs).funcs :=
    Machine.funcs_eq_of_run_eq same
  have bare : n.env.bareFuncs = (m.env.clear.defineAll q.funcs).bareFuncs := by
    rw [← splits.bareFuncs_eq (e := m.env.clear) keeps.funcs, bareFuncs, bareFuncs, known]
  exact {
    globals := together.globals.trans (globals_defineAll m.env.clear q.funcs).symm
    funcs := covers_of_bareFuncs bare
    stacked := by
      rw [top, under, Program.Splits.front, Nat.zero_add]
      exact .base (Nat.zero_le _)
    outputs := by simpa [Machine.start] using together.outputs
    gas := Nat.le_trans together.gas keeps.gas }

end Program.Splits

/-- Why a run failed, without the line. -/
def RunResult.cause? {α : Type} (r : RunResult α) : Option Cause :=
  r.fault?.map Fault.cause

theorem ends_together {place : Placement} {printed : List Value} {m n : Machine} {limits : Limits}
    (together : Together True place printed m n) (lasts : n.Lasts limits)
    (last : place.whole.length = place.offset + place.unit.length) :
    Together True place printed (m.run limits).machine (n.run limits).machine ∧
      (RunResult.ofEnding (fun _ => ()) (n.run limits)).cause? =
        (RunResult.ofEnding (fun _ => ()) (m.run limits)).cause? := by
  have tracks := tracks_run together lasts
  generalize m.run limits = ending at tracks
  obtain ⟨result, m'⟩ := ending
  cases result with
  | ok v =>
    obtain ⟨n', same, together', outside, atEnd⟩ := tracks
    obtain ⟨under, top⟩ := together'.stacked.eq_of_ended outside atEnd
    have finished : n'.round limits = .finished none n' := by
      have done : n'.top.current? = none := by
        rw [top, ← last]
        simp [Activation.current?, Activation.ofModuleAt, Activation.ofModule, Routine.ofCode]
      rw [Machine.round, done]
      dsimp only
      rw [Machine.fallOff, if_pos (by rw [top]; rfl)]
    rw [same, Machine.run_of_finished finished]
    exact ⟨together', rfl⟩
  | error f =>
    obtain ⟨f', n', failed, cause, together'⟩ := tracks trivial
    rw [failed]
    exact ⟨together', congrArg some cause⟩

/-- A program may be split into two units. If both units and the joined text are accepted, the first
unit runs to its end and there is gas enough for the joined text, then the units print what the joined
text prints, leave the same globals and functions, and end in the same way, but for line numbers. -/
theorem split_run_agrees {whole first second : Source} {p q r : Program} (limits : Limits)
    (join : whole.IsJoin first second) (firstParsed : Program.parse first 0 = .ok p)
    (secondParsed : Program.parse second (UInt32.ofNat p.funcs.length) = .ok q)
    (wholeParsed : Program.parse whole 0 = .ok r)
    (completed : (Environment.run limits {} p).result = .ok ())
    (lasts : ∀ limit, (Environment.run limits {} r).cause? ≠ some (.gasExhausted limit)) :
    let one := Environment.run limits {} p
    let two := one.env.run limits q
    let all := Environment.run limits {} r
    one.outputs ++ two.outputs = all.outputs ∧ two.env.globals = all.env.globals ∧
      two.env.bareFuncs = all.env.bareFuncs ∧ two.cause? = all.cause? := by
  have splits := splits_of_parse join firstParsed secondParsed wholeParsed
  have lasting : (Machine.start limits {} r).Lasts limits := by
    intro limit line n exhausted
    apply lasts limit
    rw [Environment.run_eq_ofEnding, exhausted]
    rfl
  simp only [Environment.run_eq_ofEnding] at completed ⊢
  have kept := Machine.keeps_run limits (Machine.start limits {} p)
  generalize ended : (Machine.start limits {} p).run limits = ending at completed kept ⊢
  obtain ⟨result, m⟩ := ending
  cases result with
  | error f => cases completed
  | ok v =>
    obtain ⟨n, same, together⟩ := splits.together_between lasting ended
    have lasting' : n.Lasts limits := by
      unfold Machine.Lasts
      rwa [← same]
    obtain ⟨after, cause⟩ := ends_together together lasting' splits.length_eq
    rw [← same] at after cause
    refine ⟨after.outputs.symm, after.globals.symm, ?_, cause.symm⟩
    have two := Machine.keeps_run limits (Machine.start limits m.env.clear q)
    have all := Machine.keeps_run limits (Machine.start limits {} r)
    have bare := splits.bareFuncs_eq (e := m.env.clear) kept.funcs
    simp only [Environment.bareFuncs] at bare ⊢
    exact (two.funcs ▸ all.funcs ▸ bare).symm

/-- A loop, and a function that is not called yet. -/
def countingUnit : Source :=
  ⟨"counting", "# 0 1 \x7b\n/ v0 12 a0\n^ v0\n\x7d\n= g0 2\n: 0\n. g0\n- g0 g0 1\n? g0 0\n"⟩

/-- A second function that calls the first one, and a loop that runs until the call fails. -/
def dividingUnit : Source :=
  ⟨"dividing", "# 1 1 \x7b\n$ v0 0 a0\n^ v0\n\x7d\n= g0 1\n: 1\n$ g1 1 g0\n. g1\n- g0 g0 1\n@ 1\n"⟩

/-- Both units in one text. -/
def countingAndDividing : Source :=
  ⟨"both", countingUnit.text ++ "\n" ++ dividingUnit.text⟩

/-- The program of the first unit. -/
def countingProgram : Program where
  funcs := [⟨0, 1, 1, [⟨.binary .div, [.var 0, .lit 12, .arg 0], 2⟩, ⟨.ret, [.var 0], 3⟩], 1⟩]
  code := [⟨.assign, [.global 0, .lit 2], 5⟩, ⟨.label, [.lit 0], 6⟩, ⟨.output, [.global 0], 7⟩,
    ⟨.binary .sub, [.global 0, .global 0, .lit 1], 8⟩, ⟨.jumpIf, [.global 0, .lit 0], 9⟩]
  globalCount := 1

/-- The program of the second unit, with its text `n` lines further below. -/
def dividingProgram (n : Nat) : Program where
  funcs := [⟨1, 1, 1, [⟨.call, [.var 0, .lit 0, .arg 0], n + 2⟩, ⟨.ret, [.var 0], n + 3⟩], n + 1⟩]
  code := [⟨.assign, [.global 0, .lit 1], n + 5⟩, ⟨.label, [.lit 1], n + 6⟩,
    ⟨.call, [.global 1, .lit 1, .global 0], n + 7⟩, ⟨.output, [.global 1], n + 8⟩,
    ⟨.binary .sub, [.global 0, .global 0, .lit 1], n + 9⟩, ⟨.jump, [.lit 1], n + 10⟩]
  globalCount := 2

/-- The program of both units. -/
def countingAndDividingProgram : Program where
  funcs := countingProgram.funcs ++ (dividingProgram 10).funcs
  code := countingProgram.code ++ (dividingProgram 10).code
  globalCount := 2

set_option maxRecDepth 4000 in
/-- The units print what the joined text prints before it divides by zero. -/
theorem split_run_agrees_dividing :
    let one := Environment.run { gas := 100 } {} countingProgram
    let two := one.env.run { gas := 100 } (dividingProgram 0)
    let all := Environment.run { gas := 100 } {} countingAndDividingProgram
    countingAndDividing.IsJoin countingUnit dividingUnit ∧
      Program.parse countingUnit 0 = .ok countingProgram ∧
      Program.parse dividingUnit (UInt32.ofNat countingProgram.funcs.length) =
        .ok (dividingProgram 0) ∧
      Program.parse countingAndDividing 0 = .ok countingAndDividingProgram ∧
      one.result = .ok () ∧ all.cause? = some .divisionByZero ∧ all.outputs = [2, 1, 12] ∧
      one.outputs ++ two.outputs = all.outputs ∧ two.env.globals = all.env.globals ∧
      two.env.bareFuncs = all.env.bareFuncs ∧ two.cause? = all.cause? := by
  have join : countingAndDividing.IsJoin countingUnit dividingUnit := rfl
  have first : Program.parse countingUnit 0 = .ok countingProgram := by cbv
  have second : Program.parse dividingUnit (UInt32.ofNat countingProgram.funcs.length) =
      .ok (dividingProgram 0) := by cbv
  have whole : Program.parse countingAndDividing 0 = .ok countingAndDividingProgram := by cbv
  have completed : (Environment.run { gas := 100 } {} countingProgram).result = .ok () := by cbv
  have ending : ((Environment.run { gas := 100 } {} countingAndDividingProgram).cause?,
      (Environment.run { gas := 100 } {} countingAndDividingProgram).outputs) =
        (some .divisionByZero, [2, 1, 12]) := by cbv
  obtain ⟨cause, outputs⟩ := Prod.mk.inj ending
  have lasts : ∀ limit, (Environment.run { gas := 100 } {} countingAndDividingProgram).cause? ≠
      some (.gasExhausted limit) := by simp [cause]
  exact ⟨join, first, second, whole, completed, cause, outputs,
    split_run_agrees { gas := 100 } join first second whole completed lasts⟩

end SlotLang
