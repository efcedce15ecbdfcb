import SlotLang.Proofs.Builder.Acceptance
import SlotLang.Proofs.Sessions.Safety
import SlotLang.Session

/-!
# Sessions are sound

A unit is read in the context of as many functions as there are, and numbers its own functions after
them, so the functions of a session always have the indices from zero up (`dense_defineAll`). With
what the builder checks, every body that is ever registered is safe, also where a later unit
redefines a function that an older body calls: a body depends only on how many functions there are.
So a session never leaves the safe environments (`safe_runAll`), and no run of it fails for a reason
that lies in its code.
-/

open List

namespace SlotLang

open Environment

/-! ## Numbers of functions -/

namespace SlotMap

variable {α : Type}

theorem length_insertEntry (key : UInt32) (value : α) {entries : List (UInt32 × α)}
    (sorted : entries.Pairwise fun a b => a.1 < b.1) :
    (insertEntry key value entries).length =
      if (entries.lookup key).isSome then entries.length else entries.length + 1 := by
  induction entries with
  | nil => rfl
  | cons head rest ih =>
    obtain ⟨k, v⟩ := head
    obtain ⟨above, sorted⟩ := pairwise_cons.1 sorted
    unfold insertEntry
    rw [lookup_cons_ite]
    by_cases before : key < k
    · have missing : rest.lookup key = none := by
        refine lookup_eq_none_iff.2 fun e member => ?_
        have larger := UInt32.lt_trans before (above e member)
        exact bne_iff_ne.2 (UInt32.ne_of_lt larger)
      simp [before, UInt32.ne_of_lt before, missing]
    · rw [if_neg before]
      by_cases same : key = k
      · simp [same]
      · rw [if_neg same, if_neg same, length_cons, ih sorted, length_cons]
        split <;> rfl

theorem size_insert (m : SlotMap α) (key : UInt32) (value : α) :
    (m.insert key value).size = if (m.get? key).isSome then m.size else m.size + 1 :=
  length_insertEntry key value m.sorted

end SlotMap

namespace Environment

variable {e : Environment}

/-- Functions are added at the end or in place of others. -/
theorem dense_define (dense : e.Dense) {f : Func} (next : f.index.toNat ≤ e.funcCount) :
    (e.define f).Dense ∧ e.funcCount ≤ (e.define f).funcCount ∧
      f.index.toNat < (e.define f).funcCount := by
  have size : (e.define f).funcCount =
      if (e.funcs.get? f.index).isSome then e.funcCount else e.funcCount + 1 :=
    SlotMap.size_insert e.funcs f.index (.ofFunc f)
  have registered (index : UInt32) : ((e.define f).funcs.get? index).isSome = true ↔
      index = f.index ∨ index.toNat < e.funcCount := by
    rw [define, SlotMap.get?_insert, ← dense index]
    by_cases same : index = f.index <;> simp [same]
  unfold Dense
  simp only [registered, size, dense f.index]
  by_cases old : f.index.toNat < e.funcCount
  · rw [if_pos old]
    refine ⟨fun index => ⟨?_, .inr⟩, Nat.le_refl _, old⟩
    rintro (rfl | below)
    · exact old
    · exact below
  · rw [if_neg old]
    refine ⟨fun index => ?_, Nat.le_succ _, by omega⟩
    rw [← UInt32.toNat_inj]
    omega

theorem dense_defineAll (dense : e.Dense) {known : UInt32} {earlier : List UInt32} {fs : List Func}
    (numbered : EachAfter (IndexFits known) earlier (fs.map Func.index))
    (room : known.toNat + newAmong known earlier ≤ e.funcCount) :
    (e.defineAll fs).Dense ∧ e.funcCount ≤ (e.defineAll fs).funcCount := by
  induction fs generalizing e earlier with
  | nil => exact ⟨dense, Nat.le_refl _⟩
  | cons f fs ih =>
    obtain ⟨⟨-, place⟩, others⟩ := numbered
    have next : f.index.toNat ≤ e.funcCount := by
      rcases place with old | new
      · have below := UInt32.lt_iff_toNat_lt.1 old
        omega
      · omega
    obtain ⟨dense', grows, inside⟩ := dense_define dense next
    have count := newAmong_concat known earlier f.index
    have room' : known.toNat + newAmong known (earlier ++ [f.index]) ≤ (e.define f).funcCount := by
      rw [count]
      by_cases new : known ≤ f.index
      · have next := place.resolve_left (UInt32.not_lt.2 new)
        rw [if_pos new]
        omega
      · rw [if_neg new]
        omega
    obtain ⟨all, more⟩ := ih dense' others room'
    exact ⟨all, Nat.le_trans grows more⟩

end Environment

/-! ## Accepted units -/

/-- The local slots of a text can be counted. -/
def Source.LocalsFit (s : Source) : Prop :=
  ∀ n ∈ s.slots Operand.varIndex?, n < 0xFFFFFFFF

section Accepted

variable {source : Source} {known : UInt32} {p : Program}
  (parsed : Program.parse source known = .ok p)

include parsed

theorem eachAfter_of_parse : EachAfter (IndexFits known) [] (p.funcs.map Func.index) := by
  obtain ⟨xs, reads, built, rfl⟩ := parse_eq_ok_iff.1 parsed
  have indices : (programOf xs).funcs.map Func.index = openers xs := by
    rw [openers_eq, programOf, map_map]
    rfl
  rw [indices]
  exact built.numbered

/-- Frames have the local slots that bodies use. -/
theorem var_lt_localCount (fits : source.LocalsFit) {f : Func} (member : f ∈ p.funcs)
    {i : Instruction} (inBody : i ∈ f.body) {n : UInt32} (used : .var n ∈ i.operands) :
    n < f.localCount := by
  obtain ⟨xs, reads, built, rfl⟩ := parse_eq_ok_iff.1 parsed
  obtain ⟨b, block, rfl⟩ := mem_map.1 member
  have within : ∀ i ∈ b.body, i ∈ instructionsOf xs := fun i there =>
    (mem_instructionsOf reads.solid built.alternating).2
      (mem_append_left _ (mem_flatMap.2 ⟨b, block, there⟩))
  have counted : IsCount (slotsIn Operand.varIndex? b.body) b.func.localCount :=
    isCount_slotCount fun k there => fits k (reads.mem_slots (mem_slotsIn_of_subset within there))
  exact UInt32.lt_iff_toNat_lt.2 (counted.lt (mem_slotsIn.2 ⟨i, inBody, _, used, rfl⟩))

end Accepted

/-- An accepted unit registers safe functions and runs safe code. -/
theorem Environment.Safe.accept {e : Environment} (safe : e.Safe) {source : Source} {p : Program}
    (fits : source.LocalsFit)
    (parsed : Program.parse source (UInt32.ofNat e.funcCount) = .ok p) :
    (e.defineAll p.funcs).Safe ∧ p.mainBody.Safe (e.defineAll p.funcs).funcCount := by
  have sound := sound_of_parse parsed
  have known : (UInt32.ofNat e.funcCount).toNat ≤ e.funcCount := by
    rw [UInt32.toNat_ofNat']
    exact Nat.mod_le _ _
  obtain ⟨dense, grows⟩ := dense_defineAll safe.dense (eachAfter_of_parse parsed) known
  have calls : ∀ i ∈ p.allCode, ∀ index args, i.callTarget? = some (index, args) →
      index.toNat < (e.defineAll p.funcs).funcCount := by
    intro i member index args target
    rcases sound.calls i member index args target with old | ⟨f, new, rfl⟩
    · have below := UInt32.lt_iff_toNat_lt.1 old
      omega
    · refine (dense f.index).1 ?_
      rw [get?_defineAll sound.numbered.nodup new]
      rfl
  refine ⟨⟨dense, fun index c found => ?_, (frames_defineAll e p.funcs).trans safe.idle⟩, ?_⟩
  · rcases get?_defineAll_cases found with ⟨f, member, rfl⟩ | ⟨-, old⟩
    · have built := sound.funcs f member
      exact {
        shaped := built.shaped
        labels := sound.funcLabels f member
        returns := fun _ _ _ => rfl
        vars := fun i inBody n used =>
          UInt32.lt_iff_toNat_lt.1 (var_lt_localCount parsed fits member inBody used)
        args := fun i inBody n used => UInt32.lt_iff_toNat_lt.1 (built.args i inBody n used)
        calls := fun i inBody => calls i (Program.mem_allCode (Program.toBody_mem member) inBody) }
    · exact (safe.bodies index c old).mono grows
  · exact {
      shaped := sound.code
      labels := sound.codeLabels
      returns := fun i member ret => absurd ret (sound.outside i member).1
      vars := fun i member n used => absurd used ((sound.outside i member).2 n).1
      args := fun i member n used => absurd used ((sound.outside i member).2 n).2
      calls := fun i member => calls i (Program.mem_allCode (Program.mainBody_mem p) member) }

/-! ## Sessions -/

/-- A source and the limits that it is run under. -/
structure SessionUnit where
  limits : Limits
  source : Source

def Environment.runAll (e : Environment) (units : List SessionUnit) : Environment :=
  units.foldl (fun e u => (e.runSource u.limits u.source).env) e

theorem Environment.runAll_cons (e : Environment) (u : SessionUnit) (units : List SessionUnit) :
    e.runAll (u :: units) = (e.runSource u.limits u.source).env.runAll units :=
  foldl_cons ..

theorem Environment.safe_empty : Environment.Safe {} where
  dense := fun index => by simp [SlotMap.empty, SlotMap.get?, funcCount, SlotMap.size]
  bodies := fun index c found => by cases found
  idle := rfl

section Units

variable {limits : Limits} {e : Environment} {source : Source}

/-- The run of an accepted unit fails only by its data. -/
theorem safe_start (limits : Limits) {p : Program} (safe : e.Safe) (fits : source.LocalsFit)
    (parsed : Program.parse source (UInt32.ofNat e.funcCount) = .ok p) :
    ((Machine.start limits e p).run limits).status.Safe := by
  obtain ⟨defined, main⟩ := safe.accept fits parsed
  have start : (Machine.start limits e p).Safe := {
    env := defined
    top := ⟨p.mainBody, main, Activation.runs_ofModule p⟩
    below := fun a member => absurd member not_mem_nil
    awaits := trivial }
  exact Machine.safe_run limits start

theorem runSource_of_ok {p : Program}
    (parsed : Program.parse source (UInt32.ofNat e.funcCount) = .ok p) :
    e.runSource limits source =
      { error := (e.run limits p).fault?.map .faulted, outputs := (e.run limits p).outputs,
        env := (e.run limits p).env } := by
  delta runSource
  rw [parsed]

theorem runSource_of_error {report : Report}
    (rejected : Program.parse source (UInt32.ofNat e.funcCount) = .error report) :
    e.runSource limits source = { error := some (.rejected report), env := e } := by
  delta runSource
  rw [rejected]

/-- Whatever becomes of a unit, the environment stays safe, and a fault lies in the data. -/
theorem safe_runSource (limits : Limits) (safe : e.Safe) (fits : source.LocalsFit) :
    (e.runSource limits source).env.Safe ∧
      ∀ f, (e.runSource limits source).error = some (.faulted f) → f.cause.isDynamic = true := by
  cases parsed : Program.parse source (UInt32.ofNat e.funcCount) with
  | error report =>
    rw [runSource_of_error parsed]
    exact ⟨safe, fun f faulted => by simp at faulted⟩
  | ok p =>
    rw [runSource_of_ok parsed, run_eq_ofEnding]
    have ended := safe_start limits safe fits parsed
    generalize (Machine.start limits e p).run limits = ending at ended
    obtain ⟨result, n⟩ := ending
    cases result with
    | ok v => exact ⟨⟨ended.dense, ended.bodies, rfl⟩, fun f faulted => by cases faulted⟩
    | error cause =>
      refine ⟨⟨ended.1.dense, ended.1.bodies, rfl⟩, fun f faulted => ?_⟩
      cases faulted
      exact ended.2

theorem unchanged_of_rejected {report : Report}
    (rejected : (e.runSource limits source).error = some (.rejected report)) :
    (e.runSource limits source).env = e ∧ (e.runSource limits source).outputs = [] := by
  cases parsed : Program.parse source (UInt32.ofNat e.funcCount) with
  | error report' =>
    rw [runSource_of_error parsed]
    exact ⟨rfl, rfl⟩
  | ok p =>
    rw [runSource_of_ok parsed] at rejected
    cases fault : (e.run limits p).fault? <;> simp [fault] at rejected

theorem safe_runAll (safe : e.Safe) {units : List SessionUnit}
    (fit : ∀ u ∈ units, u.source.LocalsFit) : (e.runAll units).Safe := by
  induction units generalizing e with
  | nil => exact safe
  | cons u units ih =>
    rw [runAll_cons]
    exact ih (safe_runSource u.limits safe (fit u mem_cons_self)).1
      fun v member => fit v (mem_cons_of_mem _ member)

end Units

/-- Sessions are sound. Take any unit `u` of a session, after the units before it: it leaves functions
that are numbered from zero without a gap and, however it ends, no call in progress; if it is
rejected, nothing has changed; and if its run fails, then by its data and not by its code. -/
theorem session_sound (before : List SessionUnit) (fit : ∀ v ∈ before, v.source.LocalsFit)
    (u : SessionUnit) (fits : u.source.LocalsFit) :
    let e := Environment.runAll {} before
    let r := e.runSource u.limits u.source
    r.env.Dense ∧ r.env.callDepth = 0 ∧
      (∀ report, r.error = some (.rejected report) → r.env = e ∧ r.outputs = []) ∧
      ∀ f, r.error = some (.faulted f) → f.cause.isDynamic = true := by
  intro e r
  have safe : e.Safe := safe_runAll Environment.safe_empty fit
  obtain ⟨after, dynamic⟩ := safe_runSource u.limits safe fits
  exact ⟨after.dense, after.callDepth, fun report => unchanged_of_rejected, dynamic⟩

/-- A function that calls another one. -/
def callingUnit : SessionUnit where
  limits := { gas := 9 }
  source := ⟨"calling", "# 0 0 \x7b\n\x7d\n# 1 0 \x7b\n$ v0 0\n\x7d\n"⟩

/-- A unit that gives the called function a parameter and then calls the caller. -/
def redefiningUnit : SessionUnit where
  limits := { gas := 9 }
  source := ⟨"redefining", "# 0 1 \x7b\n\x7d\n$ g0 1\n"⟩

/-- What the two units leave. -/
def redefined : UnitResult :=
  (runAll {} [callingUnit]).runSource redefiningUnit.limits redefiningUnit.source

set_option maxRecDepth 4000 in
theorem session_sound_redefined :
    (∀ v ∈ [callingUnit], v.source.LocalsFit) ∧ redefiningUnit.source.LocalsFit ∧
      redefined.env.Dense ∧ redefined.env.callDepth = 0 ∧
      redefined.error = some (.faulted ⟨.argumentCount 0 1 0, 4⟩) := by
  have calling : callingUnit.source.slots Operand.varIndex? = [0] := by cbv
  have redefining : redefiningUnit.source.slots Operand.varIndex? = [] := by cbv
  have fit : ∀ v ∈ [callingUnit], v.source.LocalsFit := by
    simp [Source.LocalsFit, calling]
  have fits : redefiningUnit.source.LocalsFit := by
    simp [Source.LocalsFit, redefining]
  let p : Program := { funcs := [⟨0, 0, 0, [], 1⟩, ⟨1, 0, 1, [⟨.call, [.var 0, .lit 0], 4⟩], 3⟩] }
  let q : Program := {
    funcs := [⟨0, 1, 0, [], 1⟩]
    code := [⟨.call, [.global 0, .lit 1], 3⟩]
    globalCount := 1 }
  have first : Program.parse callingUnit.source (UInt32.ofNat (funcCount {})) =
      .ok p := by cbv
  have called : runAll {} [callingUnit] =
      (run callingUnit.limits {} p).env := by
    rw [runAll_cons, runSource_of_ok first]
    rfl
  have count : (run callingUnit.limits {} p).env.funcCount = 2 := by cbv
  have second : Program.parse redefiningUnit.source
      (UInt32.ofNat (run callingUnit.limits {} p).env.funcCount) = .ok q := by
    rw [count]
    cbv
  have fault : ((run callingUnit.limits {} p).env.run redefiningUnit.limits q).fault? =
      some ⟨.argumentCount 0 1 0, 4⟩ := by cbv
  have error : redefined.error = some (.faulted ⟨.argumentCount 0 1 0, 4⟩) := by
    rw [redefined, called, runSource_of_ok second]
    exact congrArg (Option.map UnitError.faulted) fault
  obtain ⟨dense, idle, -⟩ := session_sound [callingUnit] fit redefiningUnit fits
  exact ⟨fit, fits, dense, idle, error⟩

end SlotLang
