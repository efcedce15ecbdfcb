import SlotLang.Proofs.Subset.Slots

/-!
# What lowering reports

The errors of expressions and statements, written down in the order in which lowering meets them.
Lowering stops at the first one, and makes code if there is none (`blockCode_stopsAt`).
-/

open List

namespace SlotLang.Subset

variable {α β : Type} {c : Context} {errors more : List Error}

/-! ## Work that errors stop -/

/-- Work that stops at the first of some errors, if there is one. -/
def StopsAt (errors : List Error) (work : Lowering α) : Prop :=
  ∀ k, Reports errors (work k)

theorem StopsAt.bind {work : Lowering α} {f : α → Lowering β} (first : StopsAt errors work)
    (next : ∀ a, StopsAt more (f a)) : StopsAt (errors ++ more) (work >>= f) :=
  fun k => (first k).bind fun a => next a.1 a.2

/-- Work that always goes on adds no error. -/
theorem StopsAt.before {work : Lowering α} {f : α → Lowering β} (first : StopsAt [] work)
    (next : ∀ a, StopsAt errors (f a)) : StopsAt errors (work >>= f) :=
  first.bind next

theorem StopsAt.after {work : Lowering α} {f : α → Lowering β} (first : StopsAt errors work)
    (next : ∀ a, StopsAt [] (f a)) : StopsAt errors (work >>= f) :=
  fun k => (first k).after fun a => next a.1 a.2

theorem stopsAt_pure (a : α) : StopsAt [] (pure a : Lowering α) :=
  fun k => ⟨(a, k), rfl⟩

theorem stopsAt_fresh : StopsAt [] c.fresh :=
  fun _ => ⟨_, rfl⟩

theorem stopsAt_freshLabel : StopsAt [] freshLabel :=
  fun _ => ⟨_, rfl⟩

theorem stopsAt_resetTemps : StopsAt [] resetTemps :=
  fun _ => ⟨_, rfl⟩

theorem stopsAt_lift {x : Except Error α} (reports : Reports errors x) :
    StopsAt errors (liftM x : Lowering α) := by
  intro k
  cases errors with
  | nil =>
    obtain ⟨a, rfl⟩ := reports
    exact ⟨(a, k), rfl⟩
  | cons e rest =>
    have stopped : x = .error e := reports
    rw [stopped]
    rfl

/-! ## Names and expressions -/

namespace Context

variable (c : Context)

/-- Something outside the subset on the line of the statement. -/
def outside (construct : Construct) : Error :=
  ⟨.unsupported construct, c.line⟩

/-- The error of a name that is used as a value. -/
def nameErrors (name : String) : List Error :=
  if (c.module.func? name).isSome then [c.outside (.functionAsValue name)]
  else if builtins.contains name then [c.outside (.builtinAsValue name)]
  else if (localSlot? c.scope name).isSome || (c.module.globals.slot? name).isSome then []
  else [⟨.misuse (.unknownName name), c.line⟩]

/-- The errors of a call, which are those of its arguments if their number is right. -/
def callErrors (callee : String) (count : Nat) (inside : List Error) : List Error :=
  if callee = "print" then [c.outside .printAsValue]
  else if isPassthrough callee then
    if count = 1 then inside else [c.outside (.builtinArity callee count)]
  else if callee = "_div" ∨ callee = "_rem" then
    if count = 2 then inside else [c.outside (.builtinArity callee count)]
  else match c.module.func? callee with
    | none => [c.outside (.unknownFunction callee)]
    | some d =>
      if count = d.params.length then inside
      else [c.outside (.callArity callee count d.params.length)]

end Context

mutual

/-- The errors of an expression. -/
def Expr.errors (c : Context) : Expr → List Error
  | .int _ => []
  | .name id => c.nameErrors id
  | .neg e | .not e => e.errors c
  | .arith _ a b | .compare _ a b | .connect _ a b => a.errors c ++ b.errors c
  | .call callee args => c.callErrors callee args.length (argErrors c args)

/-- The errors of arguments. -/
def argErrors (c : Context) : List Expr → List Error
  | [] => []
  | e :: es => e.errors c ++ argErrors c es

end

theorem resolve_reports (c : Context) (name : String) :
    Reports (c.nameErrors name) (c.resolve name) := by
  unfold Context.nameErrors
  by_cases func : (c.module.func? name).isSome = true
  · rw [if_pos func, Context.resolve, if_pos func]
    rfl
  by_cases builtin : builtins.contains name = true
  · rw [if_neg func, if_pos builtin, Context.resolve, if_neg func, if_pos builtin]
    rfl
  rw [if_neg func, if_neg builtin, resolve_of_value func builtin]
  cases localSlot? c.scope name with
  | some o => exact ⟨o, rfl⟩
  | none =>
    cases c.module.globals.slot? name with
    | some n => exact ⟨.global n, rfl⟩
    | none => rfl

/-! ## Plans -/

/-- A plan that stops at the first of some errors, however it is used. -/
structure Plan.StopsAt (errors : List Error) (p : Plan) : Prop where
  value : Subset.StopsAt errors p.value
  into : ∀ dest, Subset.StopsAt errors (p.into dest)

theorem held_stopsAt {operand : Except Error Operand} (reports : Reports errors operand) :
    (Plan.held c operand).StopsAt errors where
  value := (stopsAt_lift reports).after fun _ => stopsAt_pure _
  into _ := (stopsAt_lift reports).after fun _ => stopsAt_pure _

theorem computed_stopsAt {into : Operand → Lowering Code}
    (made : ∀ dest, StopsAt errors (into dest)) : (Plan.computed c into).StopsAt errors where
  value := stopsAt_fresh.before fun t => (made t).after fun _ => stopsAt_pure _
  into := made

theorem refused_stopsAt (construct : Construct) :
    (Plan.refused c construct).StopsAt [c.outside construct] :=
  computed_stopsAt fun _ _ => rfl

theorem read_stopsAt {p : Part} (plan : p.plan.StopsAt errors) (later : List Part) :
    StopsAt errors (p.read c later) := by
  refine plan.value.after fun ⟨code, value⟩ => ?_
  dsimp only
  split
  · exact stopsAt_fresh.before fun _ => stopsAt_pure _
  · exact stopsAt_pure _

theorem readBoth_stopsAt {a b : Part} (left : a.plan.StopsAt errors) (right : b.plan.StopsAt more) :
    StopsAt (errors ++ more) (readBoth c a b) :=
  (read_stopsAt left _).bind fun _ => (read_stopsAt right _).after fun _ => stopsAt_pure _

theorem readAll_stopsAt {ps : List Part} {es : List Expr}
    (plans : List.Forall₂ (fun p e => p.plan.StopsAt (e.errors c)) ps es) :
    StopsAt (argErrors c es) (readAll c ps) := by
  induction plans with
  | nil => exact stopsAt_pure _
  | cons first _ ih =>
    exact (read_stopsAt first _).bind fun _ => ih.after fun _ => stopsAt_pure _

section Operators

variable {a b : Part} (left : a.plan.StopsAt errors) (right : b.plan.StopsAt more) (dest : Operand)

include left right

theorem binaryInto_stopsAt (op : BinaryOp) : StopsAt (errors ++ more) (binaryInto c op a b dest) :=
  (readBoth_stopsAt left right).after fun _ => stopsAt_pure _

theorem negatedInto_stopsAt (op : BinaryOp) : StopsAt (errors ++ more) (negatedInto c op a b dest) :=
  (readBoth_stopsAt left right).after fun _ => stopsAt_fresh.before fun _ => stopsAt_pure _

theorem arithInto_stopsAt (op : Arith) : StopsAt (errors ++ more) (arithInto c op a b dest) := by
  cases op with
  | add | sub | mul => exact binaryInto_stopsAt left right dest _
  | floorDiv =>
    exact (readBoth_stopsAt left right).after fun _ => stopsAt_freshLabel.before fun _ =>
      stopsAt_fresh.before fun _ => stopsAt_fresh.before fun _ => stopsAt_fresh.before fun _ =>
        stopsAt_pure _
  | floorMod =>
    exact (readBoth_stopsAt left right).after fun _ => stopsAt_freshLabel.before fun _ =>
      stopsAt_fresh.before fun _ => stopsAt_fresh.before fun _ => stopsAt_pure _

theorem compareInto_stopsAt (op : Relation) : StopsAt (errors ++ more) (compareInto c op a b dest) := by
  cases op with
  | lt | gt | eq => exact binaryInto_stopsAt left right dest _
  | le | ge | ne => exact negatedInto_stopsAt left right dest _

end Operators

theorem shortCircuitInto_stopsAt {a b : Plan} (left : a.StopsAt errors) (right : b.StopsAt more)
    (op : Connective) (dest : Operand) : StopsAt (errors ++ more) (shortCircuitInto c op a b dest) := by
  refine stopsAt_freshLabel.before fun _ => (left.into dest).bind fun _ => ?_
  cases op with
  | and => exact stopsAt_fresh.before fun _ => (stopsAt_pure _).before fun _ =>
      (right.into dest).after fun _ => stopsAt_pure _
  | or => exact (stopsAt_pure _).before fun _ => (right.into dest).after fun _ => stopsAt_pure _

theorem callPlan_stopsAt (callee : String) {ps : List Part} {es : List Expr}
    (plans : List.Forall₂ (fun p e => p.plan.StopsAt (e.errors c)) ps es) :
    (callPlan c callee ps).StopsAt (c.callErrors callee es.length (argErrors c es)) := by
  unfold callPlan Context.callErrors
  by_cases print : callee = "print"
  · rw [if_pos print, if_pos print]
    exact refused_stopsAt _
  rw [if_neg print, if_neg print]
  by_cases pass : isPassthrough callee = true
  · rw [if_pos pass, if_pos pass]
    match plans with
    | .nil => exact refused_stopsAt _
    | .cons first .nil => simpa [argErrors] using first
    | .cons _ (.cons _ rest) =>
      simpa [rest.length_eq] using refused_stopsAt _
  rw [if_neg pass, if_neg pass]
  by_cases division : callee = "_div" ∨ callee = "_rem"
  · rw [if_pos division, if_pos division]
    match plans with
    | .nil | .cons _ .nil => exact refused_stopsAt _
    | .cons first (.cons second .nil) =>
      refine computed_stopsAt fun dest => ?_
      simpa [argErrors] using binaryInto_stopsAt first second dest _
    | .cons _ (.cons _ (.cons _ rest)) =>
      simpa [rest.length_eq] using refused_stopsAt _
  rw [if_neg division, if_neg division]
  cases c.module.func? callee with
  | none => exact refused_stopsAt _
  | some d =>
    dsimp only
    rw [plans.length_eq]
    split
    · exact computed_stopsAt fun dest => (readAll_stopsAt plans).after fun _ => stopsAt_pure _
    · exact refused_stopsAt _

mutual

theorem plan_stopsAt (c : Context) (e : Expr) : (plan c e).StopsAt (e.errors c) := by
  match e with
  | .int v =>
    rw [plan, Expr.errors]
    exact held_stopsAt ⟨_, rfl⟩
  | .name id =>
    rw [plan, Expr.errors]
    exact held_stopsAt (resolve_reports c id)
  | .neg e | .not e =>
    rw [plan, Expr.errors]
    exact computed_stopsAt fun _ => (plan_stopsAt c e).value.after fun _ => stopsAt_pure _
  | .arith op a b =>
    rw [plan, Expr.errors]
    exact computed_stopsAt fun dest =>
      arithInto_stopsAt (plan_stopsAt c a) (plan_stopsAt c b) dest op
  | .compare op a b =>
    rw [plan, Expr.errors]
    exact computed_stopsAt fun dest =>
      compareInto_stopsAt (plan_stopsAt c a) (plan_stopsAt c b) dest op
  | .connect op a b =>
    rw [plan, Expr.errors]
    split
    · exact computed_stopsAt fun dest =>
        binaryInto_stopsAt (plan_stopsAt c a) (plan_stopsAt c b) dest _
    · exact computed_stopsAt (shortCircuitInto_stopsAt (plan_stopsAt c a) (plan_stopsAt c b) op)
  | .call callee args =>
    rw [plan, Expr.errors]
    exact callPlan_stopsAt callee (parts_stopsAt c args)

theorem parts_stopsAt (c : Context) (es : List Expr) :
    List.Forall₂ (fun p e => p.plan.StopsAt (e.errors c)) (parts c es) es := by
  match es with
  | [] => exact .nil
  | e :: es => exact .cons (plan_stopsAt c e) (parts_stopsAt c es)

end

/-! ## Statements -/

theorem store_stopsAt (c : Context) (dest : Operand) (e : Expr) :
    StopsAt (e.errors c) (store c dest e) := by
  unfold store
  split
  · exact stopsAt_fresh.before fun t => ((plan_stopsAt c e).into t).after fun _ => stopsAt_pure _
  · exact (plan_stopsAt c e).into dest

theorem jumpOn_stopsAt (c : Context) (op : BinaryOp) (a b : Expr) (l : UInt32) :
    StopsAt (a.errors c ++ b.errors c) (jumpOn c op a b l) :=
  (readBoth_stopsAt (a := part c a) (b := part c b) (plan_stopsAt c a) (plan_stopsAt c b)).after
    fun _ => stopsAt_fresh.before fun _ => stopsAt_pure _

theorem jumpOnZero_stopsAt (c : Context) (e : Expr) (l : UInt32) :
    StopsAt (e.errors c) (jumpOnZero c e l) :=
  (plan_stopsAt c e).value.after fun _ => stopsAt_fresh.before fun _ => stopsAt_pure _

theorem errors_int (c : Context) (e : Expr) : (Expr.call "int" [e]).errors c = e.errors c := by
  rw [Expr.errors, argErrors, argErrors, append_nil]
  rfl

theorem jumpUnless_stopsAt (c : Context) (l : UInt32) (e : Expr) :
    StopsAt (e.errors c) (jumpUnless c l e) := by
  fun_induction jumpUnless c l e with
  | case1 v => exact stopsAt_pure _
  | case2 e =>
    rw [Expr.errors]
    exact (plan_stopsAt c e).value.after fun _ => stopsAt_pure _
  | case3 a b | case4 a b | case5 a b =>
    rw [Expr.errors]
    exact jumpOn_stopsAt c _ a b l
  | case6 e ih => rwa [errors_int]
  | case7 callee e _ => exact jumpOnZero_stopsAt c _ l
  | case8 e => exact jumpOnZero_stopsAt c e l

/-- The errors of an expression that stands alone, where only `print` prints. -/
def Expr.loneErrors (c : Context) : Expr → List Error
  | .call "print" [e] => e.errors c
  | .call "print" args => [c.outside (.printArity args.length)]
  | e => e.errors c

theorem exprCode_stopsAt (c : Context) (e : Expr) : StopsAt (e.loneErrors c) (exprCode c e) := by
  fun_cases exprCode c e with
  | case1 e => exact (plan_stopsAt c e).value.after fun _ => stopsAt_pure _
  | case2 args several =>
    rw [Expr.loneErrors]
    · exact fun _ => rfl
    · exact several
  | case3 e once several =>
    rw [Expr.loneErrors]
    · exact (plan_stopsAt c e).value.after fun _ => stopsAt_pure _
    · exact once
    · exact several

/-- The errors of a return, which stands in a function. -/
def returnErrors (c : Context) (value : Option Expr) : List Error :=
  (if c.scope.isNone then [⟨.misuse .returnOutside, c.line⟩] else []) ++
    value.elim [] (Expr.errors c)

theorem returnCode_stopsAt (c : Context) (value : Option Expr) :
    StopsAt (returnErrors c value) (returnCode c value) := by
  unfold returnErrors returnCode
  split
  · exact fun _ => rfl
  · cases value with
    | none => exact stopsAt_pure _
    | some e => exact (plan_stopsAt c e).value.after fun _ => stopsAt_pure _

mutual

def Stmt.errors (m : ModuleScope) (scope : Option FuncScope) (looped : Bool) : Stmt → List Error
  | .assign target value line =>
    Context.nameErrors ⟨m, scope, line⟩ target ++ value.errors ⟨m, scope, line⟩
  | .augment target _ value line =>
    Context.nameErrors ⟨m, scope, line⟩ target ++
      (Context.nameErrors ⟨m, scope, line⟩ target ++ value.errors ⟨m, scope, line⟩)
  | .expr value line => value.loneErrors ⟨m, scope, line⟩
  | .ret value line => returnErrors ⟨m, scope, line⟩ value
  | .cond test body otherwise line =>
    test.errors ⟨m, scope, line⟩ ++ (errorsOf m scope looped body ++ errorsOf m scope looped otherwise)
  | .whileLoop test body line => test.errors ⟨m, scope, line⟩ ++ errorsOf m scope true body
  | .breakLoop line => if looped then [] else [⟨.misuse .breakOutside, line⟩]
  | .continueLoop line => if looped then [] else [⟨.misuse .continueOutside, line⟩]
  | .global _ _ | .pass _ | .funcDef .. => []

def errorsOf (m : ModuleScope) (scope : Option FuncScope) (looped : Bool) : List Stmt → List Error
  | [] => []
  | s :: rest => s.errors m scope looped ++ errorsOf m scope looped rest

end

section Statements

variable {m : ModuleScope} {scope : Option FuncScope}

mutual

theorem stmtCode_stopsAt (s : Stmt) (loop : Option LoopLabels) :
    StopsAt (s.errors m scope loop.isSome) (stmtCode m scope loop s) := by
  match s with
  | .assign target value line =>
    rw [stmtCode, Stmt.errors]
    exact stopsAt_resetTemps.before fun _ => (stopsAt_lift (resolve_reports _ target)).bind fun dest =>
      store_stopsAt _ dest value
  | .augment target op value line =>
    rw [stmtCode, Stmt.errors]
    refine stopsAt_resetTemps.before fun _ =>
      (stopsAt_lift (resolve_reports _ target)).bind fun dest => ?_
    have stored := store_stopsAt ⟨m, scope, line⟩ dest (.arith op (.name target) value)
    rwa [Expr.errors, Expr.errors] at stored
  | .expr value line =>
    rw [stmtCode, Stmt.errors]
    exact stopsAt_resetTemps.before fun _ => exprCode_stopsAt _ value
  | .ret value line =>
    rw [stmtCode, Stmt.errors]
    exact stopsAt_resetTemps.before fun _ => returnCode_stopsAt _ value
  | .cond test body otherwise line =>
    rw [stmtCode, Stmt.errors]
    refine stopsAt_resetTemps.before fun _ => stopsAt_freshLabel.before fun _ =>
      (jumpUnless_stopsAt _ _ test).bind fun _ => (blockCode_stopsAt body loop).bind fun _ => ?_
    cases otherwise with
    | nil => exact stopsAt_pure _
    | cons s rest =>
      exact stopsAt_freshLabel.before fun _ => (blockCode_stopsAt (s :: rest) loop).after fun _ =>
        stopsAt_pure _
  | .whileLoop test body line =>
    rw [stmtCode, Stmt.errors]
    exact stopsAt_resetTemps.before fun _ => stopsAt_freshLabel.before fun _ =>
      stopsAt_freshLabel.before fun _ => (jumpUnless_stopsAt _ _ test).bind fun _ =>
        (blockCode_stopsAt body (some _)).after fun _ => stopsAt_pure _
  | .breakLoop line | .continueLoop line =>
    rw [stmtCode.eq_def, Stmt.errors]
    cases loop with
    | none => exact fun _ => rfl
    | some labels => exact stopsAt_pure _
  | .global _ _ | .pass _ | .funcDef .. =>
    rw [stmtCode, Stmt.errors]
    exact stopsAt_pure _

theorem blockCode_stopsAt (body : List Stmt) (loop : Option LoopLabels) :
    StopsAt (errorsOf m scope loop.isSome body) (blockCode m scope loop body) := by
  match body with
  | [] => exact stopsAt_pure _
  | s :: rest =>
    rw [blockCode, errorsOf]
    exact (stmtCode_stopsAt s loop).bind fun _ => (blockCode_stopsAt rest loop).after fun _ =>
      stopsAt_pure _

end

end Statements

/-! ## Programs -/

section Programs

variable {defs : List Def} {body : List Stmt}

theorem bodyCode_reports (m : ModuleScope) (scope : Option FuncScope) (body : List Stmt) :
    Reports (errorsOf m scope false body) (bodyCode m scope body) :=
  (blockCode_stopsAt body none {}).after fun result => ⟨result.1, rfl⟩

def Def.bodyErrors (m : ModuleScope) (d : Def) : List Error :=
  errorsOf m (some (.ofBody d.params d.body)) false d.body

theorem lowerDef_reports (m : ModuleScope) (d : Def) :
    Reports (d.bodyErrors m) (lowerDef m d (.ofBody d.params d.body)) :=
  (bodyCode_reports m _ d.body).after fun _ => ⟨_, rfl⟩

/-- Lowering meets the errors of functions in the order of the functions, then those of the module
code. -/
theorem lower_reports (collected : collectDefs [] body = .ok defs)
    (fine : ∀ d ∈ defs, d.scope = .ok (.ofBody d.params d.body)) :
    Reports (defs.flatMap (Def.bodyErrors (.ofProgram defs body)) ++
      errorsOf (.ofProgram defs body) none false body) (lower body) := by
  have scopes : defs.mapM Def.scope = .ok (defs.map fun d => .ofBody d.params d.body) :=
    mapM_eq_ok.2 (forall₂_map_right_iff.2 (forall₂_same.2 fine))
  have pairs : defs.zip (defs.map fun d => FuncScope.ofBody d.params d.body) =
      defs.map fun d => (d, .ofBody d.params d.body) := by
    simpa using zip_map' (l := defs) (f := id) (g := fun d => FuncScope.ofBody d.params d.body)
  have funcs : Reports (defs.flatMap (Def.bodyErrors (.ofProgram defs body)))
      ((defs.map fun d => (d, FuncScope.ofBody d.params d.body)).mapM
        fun pair => lowerDef (.ofProgram defs body) pair.1 pair.2) := by
    rw [← flatMap_map (fun d : Def => (d, FuncScope.ofBody d.params d.body))
      fun pair => pair.1.bodyErrors (.ofProgram defs body)]
    refine Reports.mapM fun pair member => ?_
    obtain ⟨d, -, rfl⟩ := mem_map.1 member
    exact lowerDef_reports _ d
  rw [lower, collected]
  change Reports _ (defs.mapM Def.scope >>= _)
  rw [scopes]
  change Reports _ ((defs.zip (defs.map fun d => FuncScope.ofBody d.params d.body)).mapM _ >>= _)
  rw [pairs]
  exact funcs.bind fun _ => (bodyCode_reports _ none body).after fun _ => ⟨_, rfl⟩

/-! ## Names with a value -/

variable {name : String}

/-- Global names are those that some statement mentions, unless they are reserved. -/
theorem isSome_global : ((ModuleScope.ofProgram defs body).globals.slot? name).isSome = true ↔
    name ∈ body.flatMap ModuleScope.moduleNames ∧ (∀ d ∈ defs, d.name ≠ name) ∧
      name ∉ builtins := by
  change ((SlotTable.ofNames 'g' _).slot? name).isSome = true ↔ _
  rw [SlotTable.isSome_slot?_ofNames, mem_eraseDups, mem_filter]
  simp

variable (value : ∀ d ∈ defs, d.name ≠ name) (own : name ∉ builtins) (line : Nat)

include value own

theorem nameErrors_eq_nil {scope : Option FuncScope}
    (there : (localSlot? scope name).isSome = true ∨ name ∈ body.flatMap ModuleScope.moduleNames) :
    Context.nameErrors ⟨.ofProgram defs body, scope, line⟩ name = [] := by
  have noFunc : ¬ ((ModuleScope.ofProgram defs body).func? name).isSome = true := by
    simpa [ModuleScope.func?, ModuleScope.ofProgram] using value
  have noBuiltin : ¬ builtins.contains name = true := by simpa using own
  unfold Context.nameErrors
  rw [if_neg noFunc, if_neg noBuiltin, if_pos]
  rw [Bool.or_eq_true, isSome_global]
  exact there.imp_right fun mentioned => ⟨mentioned, value, own⟩

/-- A name that a function mentions has a value there: if it is not the function's own it is
global. -/
theorem nameErrors_eq_nil_of_func {f : String} {params : List String} {inner : List Stmt}
    {start : Nat} (member : .funcDef f params inner start ∈ body) (mentioned : name ∈ namesOf inner) :
    Context.nameErrors ⟨.ofProgram defs body, some (.ofBody params inner), line⟩ name = [] := by
  refine nameErrors_eq_nil value own line ?_
  cases slot : (localSlot? (some (.ofBody params inner)) name).isSome with
  | true => exact .inl rfl
  | false =>
    right
    refine mem_flatMap.2 ⟨_, member, mem_append.2 ?_⟩
    by_cases declared : name ∈ (FuncScope.ofBody params inner).declared
    · exact .inl (mem_mergeSort.2 declared)
    · right
      refine mem_filter.2 ⟨mentioned, ?_⟩
      change ((FuncScope.ofBody params inner).slot? name).isSome = false at slot
      unfold FuncScope.slot? at slot
      cases position : (FuncScope.ofBody params inner).params.idxOf? name with
      | some i => simp [position] at slot
      | none =>
        have noParam := idxOf?_eq_none_iff.1 position
        simp only [position, contains_iff_mem, declared, if_false, Option.isSome_map] at slot
        simp [FuncScope.binds, noParam, slot]

end Programs

end SlotLang.Subset
