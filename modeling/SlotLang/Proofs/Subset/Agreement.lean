import SlotLang.Proofs.Subset.Programs

/-!
# Lowered programs follow the reference semantics

A call enters a machine that mirrors the memory of the function, the body runs as its statements do,
and the result is stored with the caller as it was. By induction on the fuel, which bounds the depth
of calls, machines follow all calls, and hence whole programs: `lowered_run_follows`.
-/

open List

namespace SlotLang

namespace Machine

variable {limits : Limits} {m n : Machine} {dest : Operand} {line : Nat}

/-- A known function can be called with the right number of arguments while there is depth left. -/
theorem callee_eq_ok {e : Environment} {depth found : Nat} {index : UInt32} {c : Callable}
    (known : e.funcs.get? index = some c) (count : found = c.func.paramCount.toNat)
    (shallow : depth < limits.maxDepth) : callee limits e depth index found = .ok c := by
  unfold callee
  rw [known]
  change (if _ then _ else if _ then _ else _) = _
  rw [if_neg (not_not.2 count), if_neg (Nat.not_le.2 shallow)]

/-- The machine that runs a called function. -/
def entered (m : Machine) (f : Func) (vs : List Value) (dest : Operand) (line : Nat) : Machine :=
  { m.next with top := .ofCall (.ofFunc f) vs (.ofCall dest line), below := m.next.top :: m.below }

/-- The machine after a called function. -/
def backTo (n m : Machine) : Machine :=
  { n with top := m.next.top, below := m.below }

section Leaving

variable (entry : n.top.entry = .ofCall dest line) (below : n.below = m.next.top :: m.below)

include entry below

theorem leaving_entered (writable : m.top.canWrite dest = true) (v : Value) :
    n.leaving v = .ok (.leave v) := by
  have writable : m.next.top.canWrite dest = true := writable
  unfold leaving
  rw [entry, below]
  exact if_pos writable

theorem leave_entered (v : Value) : n.leave v = .running ((n.backTo m).write dest v) := by
  unfold leave
  rw [entry, below]
  rfl

end Leaving

end Machine

namespace Subset

variable {allowed : Limits → Prop} {found defs : List Def} {body : List Stmt} {d : Def}
  {name : String} {p : Program} {f : Func} {sc : Scene} {mem mem' : Memory} {m n : Machine}
  {vs : List Value} {dest : Operand} {line : Nat} {c : Callee} {e : Environment}

/-! ## The memory of a call -/

theorem lookup_zip {params : List String} {i : Nat} (found : params.idxOf? name = some i)
    (long : i < vs.length) : (params.zip vs).lookup name = vs[i]? := by
  induction params generalizing vs i with
  | nil => cases found
  | cons first rest ih =>
    cases vs with
    | nil => exact absurd long (Nat.not_lt_zero i)
    | cons v vs =>
      rw [zip_cons_cons, lookup_cons_ite]
      rw [idxOf?_cons] at found
      by_cases same : name = first
      · rw [if_pos (beq_iff_eq.2 same.symm)] at found
        cases found
        exact if_pos same
      · rw [if_neg fun equal => same (beq_iff_eq.1 equal).symm] at found
        obtain ⟨j, later, rfl⟩ := Option.map_eq_some_iff.1 found
        rw [if_neg same]
        exact ih later (Nat.lt_of_succ_lt_succ long)

theorem bind_of_idxOf? {i : Nat} (found : c.params.idxOf? name = some i)
    (count : vs.length = c.params.length) : vs[i]? = some (c.bind vs name) := by
  have bound := (List.getElem?_eq_some_iff.1 (FuncScope.getElem?_of_idxOf? found)).1
  have long : i < vs.length := count ▸ bound
  rw [Callee.bind, lookup_zip found long, getElem?_eq_getElem long]
  rfl

theorem bind_of_not_mem (missing : name ∉ c.params) : c.bind vs name = 0 := by
  have nothing : (c.params.zip vs).lookup name = none := by
    refine lookup_eq_none_iff.2 fun entry member => bne_iff_ne.2 ?_
    rintro rfl
    exact missing (of_mem_zip member).1
  rw [Callee.bind, nothing]
  rfl

/-- What a call gives, by what the body of the function gives. -/
theorem result_callFunc (found : callee? name body = some c) (fuel : Nat) (vs : List Value)
    (mem : Memory) : (callFunc body (fuel + 1) name vs).result mem =
      match (execAll { isLocal := c.isLocal, call := callFunc body fuel, rounds := fuel }
        c.body).result { mem with locals := c.bind vs } with
      | (.ok flow, mem') => (.ok flow.value, { mem' with locals := mem.locals })
      | (.error stop, mem') => (.error stop, mem') := by
  rw [callFunc, found]
  change ((execAll _ c.body >>= fun flow => _ : Eval Value).result { mem with locals := c.bind vs }) = _
  rw [result_bind]
  cases (execAll { isLocal := c.isLocal, call := callFunc body fuel, rounds := fuel }
    c.body).result { mem with locals := c.bind vs } with
  | mk outcome mem' => cases outcome <;> rfl

/-- A machine follows a call if it follows the body of the function and then returns. -/
theorem sim_callFunc {fuel : Nat} {globals : SlotTable} {post : Flow → Memory → Machine → Prop}
    {post' : Value → Memory → Machine → Prop} (found : callee? name body = some c)
    (runs : Sim allowed globals
      (execAll { isLocal := c.isLocal, call := callFunc body fuel, rounds := fuel } c.body)
      { mem with locals := c.bind vs } m post)
    (back : ∀ flow mem' n, post flow mem' n → ∃ l, Reaches (Machine.outcome allowed) n l ∧
      post' flow.value { mem' with locals := mem.locals } l) :
    Sim allowed globals (callFunc body (fuel + 1) name vs) mem m post' := by
  unfold Sim at runs ⊢
  rw [result_callFunc found]
  split at runs
  · next flow mem' result =>
    obtain ⟨n, reaches, ended⟩ := runs
    obtain ⟨l, onward, returned⟩ := back flow mem' n ended
    rw [result]
    exact ⟨l, reaches.trans onward, returned⟩
  · next stop mem' result =>
    rw [result]
    exact runs

theorem keepsLocals_callFunc (body : List Stmt) (fuel : Nat) (name : String) (vs : List Value) :
    (callFunc body fuel name vs).KeepsLocals := by
  cases fuel with
  | zero => exact .ofExcept _
  | succ fuel =>
    cases found : callee? name body with
    | none =>
      rw [callFunc, found]
      exact .ofExcept _
    | some c =>
      intro mem v mem' result
      rw [result_callFunc found] at result
      split at result <;> cases result
      rfl

/-! ## Calls -/

section Calls

variable (lowers : Lowers body defs p) (fits : Fits body p) (member : d ∈ defs)
  (inFuncs : f ∈ p.funcs)
  (made : lowerDef (.ofProgram defs body) d (.ofBody d.params d.body) = .ok f)

include lowers fits member made in
theorem toNat_paramCount : f.paramCount.toNat = d.params.length := by
  have few := fits.params d (functionsOf_eq lowers.collected ▸ member)
  obtain ⟨code, -, rfl⟩ := lowerDef_ok made
  simp only [UInt32.toNat_ofNat']
  omega

/-- A function starts with its parameters bound and its other locals at zero. -/
theorem stands_entered (module : sc.module = .ofProgram defs body) (mirrors : Mirrors sc none mem m)
    (count : vs.length = d.params.length) :
    Stands (funcScene lowers fits member inFuncs made sc.funcs (sc.depth + 1)) none 0
      { mem with locals := d.callee.bind vs } (m.entered f vs dest line) where
  runs := Activation.runs_ofCall (count.trans (toNat_paramCount lowers fits member made).symm) nofun
  funcs := mirrors.funcs
  depth := congrArg (· + 1) mirrors.depth
  globals named _ := mirrors.globals (module ▸ named) (Option.some_ne_none _)
  locals := by
    intro x o named _
    refine ⟨fun _ _ => rfl, fun inRange => ?_⟩
    have few := fits.params d (functionsOf_eq lowers.collected ▸ member)
    rcases FuncScope.slot?_eq_some named with ⟨i, found, rfl⟩ | ⟨missing, n, -, rfl⟩
    · have bound := (List.getElem?_eq_some_iff.1 (FuncScope.getElem?_of_idxOf? found)).1
      have index : (UInt32.ofNat i).toNat = i := by
        change i < d.params.length at bound
        simp only [UInt32.toNat_ofNat']
        omega
      refine elim_eq_ok.2 ?_
      change vs.toArray[(UInt32.ofNat i).toNat]? = _
      rw [index, getElem?_toArray]
      exact bind_of_idxOf? (c := d.callee) found count
    · have unbound : d.callee.bind vs x = 0 := bind_of_not_mem (idxOf?_eq_none_iff.1 missing)
      have bound : n.toNat < (Array.replicate f.localCount.toNat (0 : Value)).size := inRange n rfl
      rw [Array.size_replicate] at bound
      refine elim_eq_ok.2 ?_
      change (Array.replicate f.localCount.toNat (0 : Value))[n.toNat]? = some (d.callee.bind vs x)
      rw [Array.getElem?_replicate, if_pos bound, unbound]
  outputs := mirrors.outputs
  pc := rfl

/-- However statements end, the machine has arrived somewhere. -/
theorem Landed.arrives {flow : Flow} {loop : Option LoopLabels} {pos : Nat}
    (landed : Landed sc loop pos m flow mem n) : ∃ pos', Arrives sc 0 none pos' mem m n := by
  cases flow with
  | next => exact ⟨pos, landed⟩
  | leaveLoop | nextRound =>
    obtain ⟨-, pos', -, -, arrives⟩ := landed
    exact ⟨pos', arrives⟩
  | ret v =>
    obtain ⟨pos', -, -, -, -, arrives, -⟩ := landed
    exact ⟨pos', arrives⟩

variable {inner : Scene}

theorem reaches_returned {flow : Flow} {pos : Nat}
    (landed : Landed inner none pos (m.entered f vs dest line) flow mem n)
    (ended : pos = inner.body.code.length) (writable : m.top.canWrite dest = true) :
    Reaches (Machine.outcome allowed) n ((n.backTo m).write dest flow.value) := by
  obtain ⟨_, there⟩ := landed.arrives
  have inside : n.top.entry ≠ .ofModule := by
    rw [there.shape.entry]
    nofun
  have leaving := Machine.leaving_entered there.shape.entry there.shape.below writable
  have leave := Machine.leave_entered there.shape.entry there.shape.below
  cases flow with
  | next =>
    have current : n.top.current? = none := by
      rw [landed.runs.current?, landed.pc, ended]
      exact getElem?_eq_none (Nat.le_refl _)
    exact Machine.reaches_fallOff current inside (leaving 0) (leave 0)
  | ret v =>
    obtain ⟨pos', o, line, -, here, arrives, value⟩ := landed
    have current : n.top.current? = some ⟨.ret, [o], line⟩ := by
      rw [arrives.runs.current?, arrives.pc, here]
    exact Machine.reaches_does current (fun _ _ => .ret inside value (leaving v)) (leave v)
  | leaveLoop | nextRound =>
    obtain ⟨labels, -, inLoop, -⟩ := landed
    cases inLoop

/-- The caller finds its own slots again, and the globals as the function has left them. -/
theorem returned_backTo {pos : Nat} (same : inner.module = sc.module)
    (inFunc : inner.scope.isSome = true)
    (arrives : Arrives inner 0 none pos mem (m.entered f vs dest line) n)
    (locals : String → Value) : Returned sc { mem with locals } m (n.backTo m) where
  top := rfl
  below := rfl
  funcs := arrives.shape.funcs
  hidden g unnamed := arrives.hidden inFunc g (same ▸ unnamed)
  globals named := arrives.globals (same ▸ named) (Option.some_ne_none _)
  outputs := arrives.outputs

end Calls

/-- Machines follow the calls that fuel allows, if the limits allow that many calls inside each
other. -/
theorem situated_callFunc (lowers : Lowers body defs p) (fits : Fits body p) (e : Environment)
    (sc : Scene) (fuel rounds : Nat) {deepest : Nat} (module : sc.module = .ofProgram defs body)
    (funcs : sc.funcs = (e.defineAll p.funcs).funcs) (deep : sc.depth + fuel ≤ deepest) :
    Situated (fun limits => deepest ≤ limits.maxDepth) sc
      { isLocal := sc.isLocal, call := callFunc body fuel, rounds } := by
  induction fuel generalizing sc rounds with
  | zero =>
    exact ⟨rfl, keepsLocals_callFunc body 0, fun _ _ _ _ _ _ => .error rfl nofun⟩
  | succ fuel ih =>
    refine ⟨rfl, keepsLocals_callFunc body _, ?_⟩
    intro callee d dest operands vs line mem m known count current values writable mirrors
    rw [module] at known
    have member : d ∈ defs := mem_of_find?_eq_some known
    obtain ⟨f, inFuncs, made⟩ := lowers.func_of_mem member
    obtain ⟨code, lowered, shape⟩ := lowerDef_ok made
    obtain ⟨k, block⟩ := bodyCode_ok lowered
    -- The instruction finds the function under its number and enters it.
    have enters : Reaches (Machine.outcome fun limits => deepest ≤ limits.maxDepth) m
        (m.entered f vs dest line) := by
      have few : defs.length ≤ 0x100000000 := lowers.funcs.length_eq ▸ fits.funcs
      have nodup : (p.funcs.map Func.index).Nodup := by
        rw [index_of_lowerDef lowers.funcs]
        exact nodup_index lowers.collected few
      have defined : m.env.funcs.get? d.index = some (.ofFunc f) := by
        rw [mirrors.funcs, funcs, show d.index = f.index from shape ▸ rfl]
        exact Environment.get?_defineAll nodup inFuncs
      have expected := count.trans (toNat_paramCount lowers fits member made).symm
      refine Machine.reaches_does current (fun limits allowed => .call values ?_) rfl
      rw [Value.low_ofIndex]
      exact Machine.callee_eq_ok defined expected (by rw [mirrors.depth]; omega)
    -- Its body runs in a scene of its own, one call deeper.
    let inner := funcScene lowers fits member inFuncs made sc.funcs (sc.depth + 1)
    have situated := ih inner fuel rfl funcs (by change sc.depth + 1 + fuel ≤ _; omega)
    have codeEq : inner.body.code = code := congrArg Func.body shape
    have runs := (sim_block situated d.body block
      (codeEq ▸ prefix_refl code) nofun
      (stands_entered lowers fits member inFuncs made module mirrors count)).before enters
    have found : callee? callee body = some d.callee := by
      have found := find?_of_collectDefs lowers.collected callee
      rwa [show defs.find? (·.name = callee) = some d from known, eq_comm] at found
    rw [module]
    refine sim_callFunc found runs fun flow mem' n landed => ?_
    obtain ⟨_, arrives⟩ := landed.arrives
    have ended : 0 + code.length = inner.body.code.length := by rw [Nat.zero_add, codeEq]
    exact ⟨_, reaches_returned landed ended writable, _,
      returned_backTo module.symm rfl arrives mem.locals, rfl⟩

/-! ## Programs -/

/-- A run ends as an evaluation does, with the same output and the same values of named globals. -/
structure EndsAs (globals : SlotTable) (outcome : Except Stop Flow) (mem : Memory)
    (r : RunResult Unit) : Prop where
  result : match outcome with
    | .ok _ => r.result = .ok ()
    | .error stop => ∃ cause line, stop.cause? = some cause ∧ r.result = .error ⟨cause, line⟩
  outputs : r.outputs = mem.output
  globals : ∀ name n, globals.slot? name = some n → r.env.global? n = some (mem.globals name)

def started (e : Environment) (p : Program) : Machine where
  env := e.defineAll p.funcs
  top := .ofModule p.code
  gas := 0

/-- How a program's runs end, by how its first machine ends. -/
theorem run_of_ends {r : RunResult (Option Value)}
    (ends : Ends (Machine.outcome allowed) (started e p) fun _ => r) :
    ∃ gas, ∀ limits : Limits, gas ≤ limits.gas → allowed limits →
      e.run limits p = ⟨r.result.map fun _ => (), r.outputs, r.env⟩ := by
  obtain ⟨gas, ends⟩ := ends
  refine ⟨gas, fun limits enough fit => ?_⟩
  have outcome : RunResult.ofEnding id (({ started e p with gas := limits.gas } : Machine).run limits)
      = r := congrFun (ends limits.gas enough) ⟨limits, fit⟩
  rw [← outcome]
  change RunResult.ofEnding (fun _ => ()) (({ started e p with gas := limits.gas } : Machine).run limits)
    = _
  unfold RunResult.ofEnding
  cases (({ started e p with gas := limits.gas } : Machine).run limits).result <;> rfl

theorem stands_started (lowers : Lowers body defs p) (fits : Fits body p) (silent : mem.output = [])
    (named : ∀ name n, (namedGlobals body).slot? name = some n →
      e.global? n = some (mem.globals name)) :
    Stands (moduleScene lowers fits (e.defineAll p.funcs).funcs) none 0 mem (started e p) where
  runs := Activation.runs_ofModule p
  funcs := rfl
  depth := rfl
  globals {name n} known _ := by
    refine elim_eq_ok.2 ?_
    change (e.defineAll p.funcs).globals.get? n = _
    rw [Environment.globals_defineAll]
    refine named name n ?_
    rwa [namedGlobals, functionsOf_eq lowers.collected]
  locals := nofun
  outputs := silent.symm
  pc := rfl

theorem ends_module {flow : Flow} {pos : Nat} (outside : sc.scope = none)
    (landed : Landed sc none pos m flow mem n) (ended : pos = sc.body.code.length) :
    Ends (Machine.outcome allowed) n (fun _ => ⟨.ok none, mem.output, n.env.clear⟩) ∧
      ∀ name g, sc.module.globals.slot? name = some g → n.env.global? g = some (mem.globals name) := by
  cases flow with
  | next =>
    have current : n.top.current? = none := by
      rw [landed.runs.current?, landed.pc, ended]
      exact getElem?_eq_none (Nat.le_refl _)
    have entry : n.top.entry = .ofModule := by
      rw [landed.runs.entry, sc.inFunc, outside]
      rfl
    refine ⟨?_, fun name g known => elim_eq_ok.1 (landed.globals known (Option.some_ne_none _))⟩
    rw [← landed.outputs]
    exact Machine.ends_fallOff current entry
  | leaveLoop | nextRound =>
    obtain ⟨labels, -, inLoop, -⟩ := landed
    cases inLoop
  | ret v =>
    obtain ⟨-, -, -, inside, -⟩ := landed
    rw [outside] at inside
    cases inside

/-- The first machine of a program follows its evaluation. -/
theorem sim_runModule (lowers : Lowers body defs p) (fits : Fits body p) (silent : mem.output = [])
    (named : ∀ name n, (namedGlobals body).slot? name = some n →
      e.global? n = some (mem.globals name)) (fuel : Nat) :
    Sim (fun limits => 1 + fuel ≤ limits.maxDepth) (namedGlobals body) (runModule body fuel) mem
      (started e p) fun _ mem' n =>
        Ends (Machine.outcome fun limits => 1 + fuel ≤ limits.maxDepth) n
          (fun _ => ⟨.ok none, mem'.output, n.env.clear⟩) ∧
        ∀ name g, (namedGlobals body).slot? name = some g →
          n.env.global? g = some (mem'.globals name) := by
  obtain ⟨k, block⟩ := bodyCode_ok lowers.code
  let sc := moduleScene lowers fits (e.defineAll p.funcs).funcs
  have globals : namedGlobals body = sc.module.globals := by
    rw [namedGlobals, functionsOf_eq lowers.collected]
    rfl
  have situated := situated_callFunc lowers fits e sc fuel fuel rfl rfl (Nat.le_refl _)
  have placed : Placed sc.body.code 0 p.code := prefix_refl p.code
  have stands := stands_started lowers fits silent named
  rw [globals]
  exact (sim_block situated body block placed (by rintro _ ⟨⟩) stands).mono fun flow mem' n _ landed =>
    ends_module rfl landed (Nat.zero_add _)

/-- The lowered program does what the reference semantics says. Whenever an evaluation of a module
terminates, every run of the lowered program that has enough gas and depth ends the same way, prints
the same values and leaves the same values in the named globals. The last slot must not be used. -/
theorem lowered_run_follows (lowered : lower body = .ok p) (fits : Fits body p) {e : Environment}
    (silent : mem.output = [])
    (named : ∀ name n, (namedGlobals body).slot? name = some n →
      e.global? n = some (mem.globals name))
    {fuel : Nat} {outcome : Except Stop Flow}
    (evaluated : (runModule body fuel).result mem = (outcome, mem'))
    (terminates : outcome ≠ .error .unfinished) :
    ∃ gas depth, ∀ limits : Limits, gas ≤ limits.gas → depth ≤ limits.maxDepth →
      EndsAs (namedGlobals body) outcome mem' (e.run limits p) := by
  obtain ⟨defs, lowers⟩ := lower_ok lowered
  have sim := sim_runModule lowers fits silent named fuel
  unfold Sim at sim
  rw [evaluated] at sim
  cases outcome with
  | ok flow =>
    obtain ⟨n, reaches, ends, values⟩ := sim
    obtain ⟨gas, runs⟩ := run_of_ends (reaches.ends ends)
    refine ⟨gas, 1 + fuel, fun limits enough deep => ?_⟩
    rw [runs limits enough deep]
    exact ⟨rfl, rfl, values⟩
  | error stop =>
    obtain ⟨cause, known⟩ : ∃ cause, stop.cause? = some cause := by
      cases stop with
      | divisionByZero | divisionOverflow => exact ⟨_, rfl⟩
      | unfinished => exact absurd rfl terminates
    obtain ⟨line, env, ends, values⟩ := sim cause known
    obtain ⟨gas, runs⟩ := run_of_ends ends
    refine ⟨gas, 1 + fuel, fun limits enough deep => ?_⟩
    rw [runs limits enough deep]
    exact ⟨⟨cause, line, known, rfl⟩, rfl, values⟩

/-- A loop whose calls change a global between its reads, and then a division by zero. -/
def tally : List Stmt :=
  [.funcDef "bump" ["a"]
    [.global ["total"] 2, .augment "total" .add (.name "a") 3,
      .ret (some (.arith .mul (.name "total") (.int 10))) 4] 1,
    .assign "total" (.int 1) 5,
    .assign "n" (.int 3) 6,
    .whileLoop (.name "n")
      [.expr (.call "print" [.arith .add (.name "total") (.call "bump" [.name "n"])]) 8,
        .augment "n" .sub (.int 1) 9] 7,
    .expr (.call "print" [.arith .floorDiv (.name "total") (.name "n")]) 10]

/-- Each sum uses the value from before its call, and the last division stops the run. -/
theorem lowered_run_follows_tally :
    ∃ p mem', lower tally = .ok p ∧ Fits tally p ∧
      (runModule tally 5).result {} = (.error .divisionByZero, mem') ∧ mem'.output = [41, 64, 76] ∧
      ∃ gas depth, ∀ limits : Limits, gas ≤ limits.gas → depth ≤ limits.maxDepth →
        EndsAs (namedGlobals tally) (.error .divisionByZero) mem'
          (Environment.run limits ((Environment.setGlobal {} 0 0).setGlobal 1 0) p) := by
  have table : namedGlobals tally = ⟨[("total", 0), ("n", 1)], 2⟩ := by cbv
  have fails : ((runModule tally 5).result {}).1 = .error .divisionByZero := by cbv
  have printed : ((runModule tally 5).result {}).2.output = [41, 64, 76] := by cbv
  have accepted : (lower tally).toOption.any (fun p => decide (Fits tally p)) = true := by cbv
  have evaluated : (runModule tally 5).result {} =
      (.error .divisionByZero, ((runModule tally 5).result {}).2) := by rw [← fails]
  cases lowered : lower tally with
  | error e =>
    rw [lowered] at accepted
    cases accepted
  | ok p =>
    rw [lowered] at accepted
    have fits : Fits tally p := of_decide_eq_true accepted
    refine ⟨p, _, rfl, fits, evaluated, printed,
      lowered_run_follows lowered fits rfl ?_ evaluated (by rintro ⟨⟩)⟩
    intro name n known
    rw [table, SlotTable.slot?, lookup_cons_ite, lookup_cons_ite] at known
    split at known
    · cases known
      rfl
    · split at known <;> cases known
      rfl

/-- A function that uses the last local slot. -/
def lastLocal : List Stmt :=
  [.funcDef "f" [] [.assign "v4294967295" (.int 1) 2, .ret (some (.name "v4294967295")) 3] 1,
    .expr (.call "print" [.call "f" []]) 4]

/-- What `lastLocal` is lowered to. One more than its slot is zero in 32 bits. -/
def lastLocalProgram : Program where
  funcs := [{ index := 0, paramCount := 0, localCount := 0, line := 1
              body := [⟨.assign, [.var lastSlot, .lit 1], 2⟩, ⟨.ret, [.var lastSlot], 3⟩] }]
  code := [⟨.call, [.global 0, .lit 0], 4⟩, ⟨.output, [.global 0], 4⟩]
  globalCount := 1

/-- The evaluation prints one, but the frames of the lowered function lack the slot. -/
theorem lastLocal_not_in_frame :
    lower lastLocal = .ok lastLocalProgram ∧
      ((runModule lastLocal 2).result {}).1 = .ok .next ∧
      ((runModule lastLocal 2).result {}).2.output = [1] ∧
      (Environment.run {} {} lastLocalProgram).fault? = some ⟨.slotOutOfScope (.var lastSlot), 2⟩ :=
  ⟨by cbv, by cbv, by cbv, by cbv⟩

end Subset

end SlotLang
