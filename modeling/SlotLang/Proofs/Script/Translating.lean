import SlotLang.Proofs.Assembly.Emission
import SlotLang.Proofs.Script.Agreement
import SlotLang.Proofs.Script.Definitions

/-!
# Translating scripts back

Lowering meets one kind of error in the script of a parsed program: a call that does not pass as many
arguments as its function takes. So the text of a script can be translated back if every call fits,
and otherwise the first call that does not is reported.
-/

open List

namespace SlotLang

/-- What the subset refuses in a call: another number of arguments than the function takes. -/
def Program.misfit? (p : Program) (call : UInt32 × List Operand) : Option Subset.Problem :=
  (p.func? call.1).bind fun f =>
    if call.2.length = f.paramCount.toNat then none
    else some (.unsupported (.callArity (Script.funcName call.1) call.2.length f.paramCount.toNat))

theorem Program.misfit?_eq_some {p : Program} {index : UInt32} {args : List Operand}
    {problem : Subset.Problem} (misfit : p.misfit? (index, args) = some problem) :
    ∃ f, p.func? index = some f ∧ args.length ≠ f.paramCount.toNat ∧ problem =
      .unsupported (.callArity (Script.funcName index) args.length f.paramCount.toNat) := by
  obtain ⟨f, found, differs⟩ := Option.bind_eq_some_iff.1 misfit
  by_cases count : args.length = f.paramCount.toNat
  · simp [count] at differs
  · rw [if_neg count] at differs
    exact ⟨f, found, count, (Option.some.inj differs).symm⟩

namespace Script

variable {line : Nat} {m : ModuleScope} {scope : Option FuncScope}

open Subset (Context ModuleScope FuncScope errorsOf namesOf)

/-! ## Calls -/

def Term.calls : Term → List (UInt32 × List Operand)
  | call f args => [(f, args)]
  | _ => []

mutual

/-- The calls of a statement, in order. -/
def Stmt.calls : Stmt → List (UInt32 × List Operand)
  | .assign _ t => t.calls
  | .whenNonzero _ body | .whenPc _ body | .forever body => blockCalls body
  | .print _ | .ret _ | .raise _ | .note _ | .setPc _ | .again | .leave => []

/-- The calls of statements, in order. -/
def blockCalls : List Stmt → List (UInt32 × List Operand)
  | [] => []
  | s :: rest => s.calls ++ blockCalls rest

end

theorem blockCalls_append (xs ys : List Stmt) :
    blockCalls (xs ++ ys) = blockCalls xs ++ blockCalls ys := by
  induction xs with
  | nil => rfl
  | cons s xs ih => rw [cons_append, blockCalls, blockCalls, ih, append_assoc]

section Bodies

variable {table : List (UInt32 × Nat)} {inFunc : Bool} {i : Instruction} {code : List Instruction}

theorem blockCalls_jumpStmts : blockCalls (jumpStmts table i) = [] := by
  unfold jumpStmts
  cases found : table.lookup (i.label?.getD 0) <;> simp [found, blockCalls, Stmt.calls]

theorem calls_ofBinary (op : BinaryOp) (a b : Operand) : (Term.ofBinary op a b).calls = [] := by
  cases op <;> rfl

theorem blockCalls_instructionStmts (shaped : i.Shaped) :
    blockCalls (instructionStmts table inFunc i) = i.callTarget?.toList := by
  cases shaped with
  | assign | not | label | call | output => rfl
  | binary =>
    change (Term.ofBinary _ _ _).calls ++ [] = []
    rw [calls_ofBinary]
    rfl
  | jump => exact blockCalls_jumpStmts
  | jumpIf =>
    change blockCalls (jumpStmts table _) ++ [] = []
    rw [blockCalls_jumpStmts]
    rfl
  | ret => cases inFunc <;> rfl

theorem blockCalls_sequenceStmts (shaped : ∀ i ∈ code, i.Shaped) :
    blockCalls (sequenceStmts table inFunc code) = code.filterMap Instruction.callTarget? := by
  induction code with
  | nil => rfl
  | cons i rest ih =>
    rw [forall_mem_cons] at shaped
    rw [sequenceStmts, flatMap_cons, blockCalls_append, blockCalls_instructionStmts shaped.1,
      ← sequenceStmts, ih shaped.2, filterMap_cons]
    cases i.callTarget? <;> rfl

theorem blockCalls_branchesFrom {count k : Nat} {parts : List (List Stmt)} :
    blockCalls (branchesFrom count k parts) = parts.flatMap blockCalls := by
  induction parts generalizing k with
  | nil => rfl
  | cons part rest ih =>
    have last : blockCalls [handOver count k] = [] := by
      unfold handOver
      split <;> rfl
    rw [branchesFrom_cons, blockCalls, Stmt.calls, blockCalls_append, last, ih, append_nil,
      flatMap_cons]

theorem blockCalls_bodyStmts (shaped : ∀ i ∈ code, i.Shaped) :
    blockCalls (bodyStmts inFunc code) = code.filterMap Instruction.callTarget? := by
  cases steered : hasControl code with
  | false =>
    rw [bodyStmts_of_straight steered]
    exact blockCalls_sequenceStmts shaped
  | true =>
    have cuts : ∀ cut ∈ segments code, blockCalls (sequenceStmts (segmentOfLabel code) inFunc cut) =
        cut.filterMap Instruction.callTarget? := fun cut member =>
      blockCalls_sequenceStmts fun i inCut => shaped i (mem_of_mem_segments member inCut)
    rw [bodyStmts_of_control steered]
    change [] ++ (blockCalls (loopBody inFunc code) ++ []) = _
    rw [nil_append, append_nil, loopBody, blockCalls_branchesFrom, parts,
      flatMap_map, flatMap_congr cuts, flatMap_def,
      ← filterMap_flatten, flatten_segments]

end Bodies

theorem Def.blockCalls_stmts (d : Def) : blockCalls d.stmts = blockCalls d.body := by
  have inits (ns : List Nat) : blockCalls
      (ns.map fun n => .assign (.var (.ofNat n)) (.operand (.lit 0))) = [] := by
    induction ns with
    | nil => rfl
    | cons n ns ih => exact ih
  rw [Def.stmts, blockCalls_append, blockCalls_append, inits]
  exact append_nil _

/-! ## Errors of statements -/

section Errors

variable {p : Program} {c : Context}

theorem errors_operand {o : Operand}
    (values : ∀ name ∈ (operandExpr o).names, c.nameErrors name = []) :
    (operandExpr o).errors c = [] := by
  cases o with
  | lit v => rfl
  | global n | var n | arg n => exact values _ (mem_singleton_self _)

theorem errors_operands {args : List Operand}
    (values : ∀ name ∈ Subset.namesOfArgs (args.map operandExpr), c.nameErrors name = []) :
    Subset.argErrors c (args.map operandExpr) = [] := by
  induction args with
  | nil => rfl
  | cons o args ih =>
    rw [map_cons, Subset.namesOfArgs, forall_mem_append] at values
    rw [map_cons, Subset.argErrors, errors_operand values.1, ih values.2]
    rfl

/-- The functions of a program under their names. -/
def Lists (m : ModuleScope) (p : Program) : Prop :=
  ∀ f g, p.func? f = some g →
    ∃ d, m.func? (funcName f) = some d ∧ d.params.length = g.paramCount.toNat

/-- A call has an error if it does not fit. -/
theorem callErrors_funcName (lists : Lists c.module p) {f : UInt32} {g : Func}
    (found : p.func? f = some g) (args : List Operand) :
    (c.callErrors (funcName f) args.length []).map Subset.Error.problem =
      (p.misfit? (f, args)).toList := by
  obtain ⟨d, listed, count⟩ := lists f g found
  have own := funcName_not_mem_builtins f
  simp only [Subset.builtins, mem_cons, not_mem_nil, or_false, not_or] at own
  obtain ⟨print, int, wrap, div, rem⟩ := own
  have pass : Subset.isPassthrough (funcName f) = false := by simp [Subset.isPassthrough, int, wrap]
  unfold Context.callErrors Program.misfit?
  rw [if_neg print, pass, if_neg Bool.false_ne_true, if_neg (not_or_intro div rem), listed, found]
  dsimp only [Option.bind_some]
  rw [count]
  split <;> rfl

theorem errors_term (lists : Lists c.module p) {t : Term}
    (values : ∀ name ∈ t.expr.names, c.nameErrors name = [])
    (known : ∀ call ∈ t.calls, (p.func? call.1).isSome = true) :
    (t.expr.errors c).map Subset.Error.problem = t.calls.filterMap p.misfit? := by
  cases t with
  | operand o =>
    rw [Term.expr, errors_operand values]
    rfl
  | call f args =>
    obtain ⟨g, found⟩ := Option.isSome_iff_exists.1 (known _ (mem_singleton_self _))
    rw [Term.expr, Subset.Expr.errors, errors_operands values, length_map,
      callErrors_funcName lists found]
    cases fits : p.misfit? (f, args) <;> simp [Term.calls, fits]
  | negation a =>
    simp only [Term.expr, Subset.Expr.names, Subset.namesOfArgs, append_nil] at values
    rw [Term.expr, Subset.errors_int, Subset.Expr.errors, errors_operand values]
    rfl
  | wrapped _ a b | quotient a b | remainder a b | comparison _ a b | both a b | either a b =>
    simp only [Term.expr, nonzeroExpr, Subset.Expr.names, Subset.namesOfArgs, append_nil,
      forall_mem_append] at values
    simp [Term.expr, nonzeroExpr, Subset.Expr.errors, Subset.argErrors, Context.callErrors,
      Subset.isPassthrough, errors_operand values.1, errors_operand values.2, Term.calls]

theorem errorsOf_append (looped : Bool) (xs ys : List Subset.Stmt) :
    errorsOf m scope looped (xs ++ ys) = errorsOf m scope looped xs ++ errorsOf m scope looped ys := by
  induction xs with
  | nil => rfl
  | cons s xs ih => rw [cons_append, errorsOf, errorsOf, ih, append_assoc]

/-- Every name in some statements has a value. -/
def HaveValues (m : ModuleScope) (scope : Option FuncScope) (stmts : List Subset.Stmt) : Prop :=
  ∀ name ∈ namesOf stmts, ∀ line, Context.nameErrors ⟨m, scope, line⟩ name = []

variable {inFunc : Bool} {count : Nat}

mutual

/-- The errors of a statement in its place are those of its calls. -/
theorem Stmt.problems_narrowed (lists : Lists m p) (inside : inFunc = true → scope.isSome = true)
    {s : Stmt} {looped : Bool} {line : Nat} (placed : s.IsPlaced inFunc looped count)
    (values : HaveValues m scope (s.narrowed line))
    (known : ∀ call ∈ s.calls, (p.func? call.1).isSome = true) :
    (errorsOf m scope looped (s.narrowed line)).map Subset.Error.problem =
      s.calls.filterMap p.misfit? := by
  cases s <;> rw [Stmt.narrowed] at values ⊢
  case assign dest t =>
    simp only [HaveValues, namesOf, Subset.Stmt.names, append_nil, forall_mem_cons] at values
    rw [errorsOf, errorsOf, Subset.Stmt.errors, values.1, nil_append, append_nil, Stmt.calls]
    exact errors_term lists (fun name member => values.2 name member line) known
  case print o =>
    simp only [HaveValues, namesOf, Subset.Stmt.names, Subset.Expr.names, Subset.namesOfArgs,
      append_nil] at values
    rw [errorsOf, errorsOf, Subset.Stmt.errors, Subset.Expr.loneErrors,
      errors_operand fun name member => values name member line]
    rfl
  case ret o =>
    obtain ⟨f, rfl⟩ := Option.isSome_iff_exists.1 (inside placed)
    simp only [HaveValues, namesOf, Subset.Stmt.names, Option.elim_some, append_nil] at values
    rw [errorsOf, errorsOf, Subset.Stmt.errors, Subset.returnErrors, Option.elim_some,
      errors_operand fun name member => values name member line]
    rfl
  case raise message => cases placed
  case note label => rfl
  case setPc k =>
    rw [errorsOf, errorsOf, Subset.Stmt.errors, values pcName (mem_singleton_self _) line]
    rfl
  case again | leave =>
    obtain rfl : looped = true := placed
    rfl
  case whenNonzero o body =>
    simp only [HaveValues, namesOf, Subset.Stmt.names, nonzeroExpr, Subset.Expr.names, append_nil,
      forall_mem_append] at values
    rw [Stmt.calls] at known ⊢
    have test : (nonzeroExpr o).errors ⟨m, scope, line⟩ = [] := by
      rw [nonzeroExpr, Subset.Expr.errors, errors_operand fun name member => values.1 name member line]
      rfl
    rw [errorsOf, errorsOf, Subset.Stmt.errors, test, errorsOf, nil_append, append_nil, append_nil]
    exact problems_blockNarrowed lists inside placed.2 values.2 known
  case whenPc k body =>
    simp only [HaveValues, namesOf, Subset.Stmt.names, Subset.Expr.names, append_nil,
      forall_mem_append] at values
    rw [Stmt.calls] at known ⊢
    have test : (Subset.Expr.compare .eq (.name pcName) (.int (segmentValue k))).errors
        ⟨m, scope, line⟩ = [] := by
      rw [Subset.Expr.errors, Subset.Expr.errors, Subset.Expr.errors,
        values.1 pcName (mem_singleton_self _) line]
      rfl
    rw [errorsOf, errorsOf, Subset.Stmt.errors, test, errorsOf, nil_append, append_nil, append_nil]
    exact problems_blockNarrowed lists inside placed.2.2 values.2 known
  case forever body =>
    simp only [HaveValues, namesOf, Subset.Stmt.names, Subset.Expr.names, nil_append,
      append_nil] at values
    rw [Stmt.calls] at known ⊢
    rw [errorsOf, errorsOf, Subset.Stmt.errors, append_nil]
    exact problems_blockNarrowed lists inside placed.2 values known

theorem problems_blockNarrowed (lists : Lists m p) (inside : inFunc = true → scope.isSome = true)
    {body : List Stmt} {looped : Bool} {line : Nat} (placed : AllPlaced inFunc looped count body)
    (values : HaveValues m scope (blockNarrowed line body))
    (known : ∀ call ∈ blockCalls body, (p.func? call.1).isSome = true) :
    (errorsOf m scope looped (blockNarrowed line body)).map Subset.Error.problem =
      (blockCalls body).filterMap p.misfit? := by
  cases body with
  | nil => rfl
  | cons s rest =>
    rw [blockNarrowed] at values ⊢
    rw [HaveValues, namesOf_append, forall_mem_append] at values
    rw [blockCalls, forall_mem_append] at known
    rw [errorsOf_append, map_append, blockCalls, filterMap_append,
      Stmt.problems_narrowed lists inside placed.1 values.1 known.1,
      problems_blockNarrowed lists inside placed.2 values.2 known.2]

end

end Errors

theorem flatMap_of_partners {α β γ : Type} {R : α → β → Prop} {xs : List α} {ys : List β}
    {g : β → List γ} {h : α → List γ} (partners : List.Forall₂ R xs ys)
    (each : ∀ x ∈ xs, ∀ y ∈ ys, R x y → g y = h x) : ys.flatMap g = xs.flatMap h := by
  induction partners with
  | nil => rfl
  | @cons x y xs ys first rest ih =>
    rw [flatMap_cons, flatMap_cons, each x mem_cons_self y mem_cons_self first,
      ih fun x' inXs y' inYs => each x' (mem_cons_of_mem _ inXs) y' (mem_cons_of_mem _ inYs)]

theorem Def.errorsOf_narrowedBody (d : Def) : errorsOf m scope false (d.narrowedBody line) =
      errorsOf m scope false (blockNarrowed (line + 1 + d.declaration.length) d.stmts) := by
  have declared : errorsOf m scope false (d.declared (line + 1)) = [] := by
    unfold Def.declared
    split <;> rfl
  rw [Def.narrowedBody, errorsOf_append, declared, nil_append]

theorem errorsOf_defsNarrowed (ds : List Def) :
    errorsOf m scope false (defsNarrowed line ds) = [] := by
  induction ds generalizing line with
  | nil => rfl
  | cons d ds ih => exact ih

/-! ## Errors of scripts -/

section Programs

variable {p : Program} (sound : p.Sound 0)

/-- The functions of a program's script as the subset collects them. -/
def collected (p : Program) : List Subset.Def :=
  defsCollected 0 27 (ofProgram p).defs

/-- What names stand for in a program's script. -/
def moduleScope (p : Program) : ModuleScope :=
  .ofProgram (collected p) (ofProgram p).statements

theorem name_of_mem_collected {d : Subset.Def} (member : d ∈ collected p) :
    ∃ f, d.name = funcName f := by
  obtain ⟨e, -, start, line, rfl⟩ := exists_partner (forall₂_defsCollected 0 27 _) member
  exact ⟨_, rfl⟩

/-- No function has the name of a slot. -/
theorem free_of_isVariable {name : String} (isVariable : IsVariable name) :
    ∀ d ∈ collected p, d.name ≠ name := by
  intro d member
  obtain ⟨f, named⟩ := name_of_mem_collected member
  rw [named]
  exact isVariable.ne_funcName f

theorem lists_moduleScope (p : Program) : Lists (moduleScope p) p := by
  intro f g found
  have params := find?_defsCollected 0 27 (ofProgram p).defs f
  have here : (ofProgram p).defs.find? (·.index == f) = some (Def.ofFunc g) := by
    change (p.funcs.map Def.ofFunc).find? _ = _
    rw [find?_map]
    exact congrArg (Option.map Def.ofFunc) found
  rw [here, Option.map_some] at params
  obtain ⟨d, listed, same⟩ := Option.map_eq_some_iff.1 params
  refine ⟨d, listed, ?_⟩
  rw [same]
  simp [Def.params, slotNames, Def.ofFunc]

include sound

theorem plain_main (line : Nat) : Plain ((ofProgram p).bodyNarrowed line) := by
  unfold bodyNarrowed
  split
  · exact plain_blockNarrowed (readable_ofProgram sound).body _
  · exact plain_nil

theorem collectDefs_statements :
    Subset.collectDefs [] (ofProgram p).statements = .ok (collected p) := by
  have nodup : ((ofProgram p).defs.map Def.index).Nodup := by
    change ((p.funcs.map Def.ofFunc).map Def.index).Nodup
    rw [map_map]
    exact sound.numbered.nodup
  have known : ∀ d ∈ (ofProgram p).defs, AllKnown d.body := fun d member =>
    ((readable_ofProgram sound).defs d member).1
  rw [statements, collectDefs_defs known nodup fun _ member => absurd member not_mem_nil,
    collectDefs_of_noDef (plain_main sound _).noDef]
  rfl

theorem known_calls {b : Body} (body : b ∈ p.bodies) :
    ∀ call ∈ b.code.filterMap Instruction.callTarget?, (p.func? call.1).isSome = true := by
  intro call member
  obtain ⟨i, inCode, target⟩ := mem_filterMap.1 member
  obtain ⟨f, -, found, -⟩ := sound.func?_call (Program.mem_allCode body inCode) target
  rw [found]
  rfl

theorem problems_func {f : Func} (inFuncs : f ∈ p.funcs) {start line : Nat}
    (member : (Def.ofFunc f).collected start line ∈ collected p) :
    (((Def.ofFunc f).collected start line).bodyErrors (moduleScope p)).map Subset.Error.problem =
      (f.body.filterMap Instruction.callTarget?).filterMap p.misfit? := by
  have body := Program.toBody_mem inFuncs
  have placed := Def.placed_stmts (d := .ofFunc f) (placed_bodyStmts sound body)
  have defined := (Subset.mem_of_collectDefs (collectDefs_statements sound) member).resolve_left
    not_mem_nil
  have calls : blockCalls (Def.ofFunc f).stmts = f.body.filterMap Instruction.callTarget? :=
    (Def.ofFunc f).blockCalls_stmts.trans (blockCalls_bodyStmts (sound.funcs f inFuncs).shaped)
  rw [Subset.Def.bodyErrors, Def.collected, Def.errorsOf_narrowedBody, ← calls]
  refine problems_blockNarrowed (lists_moduleScope p) (fun _ => rfl) placed ?_
    (calls ▸ known_calls sound body)
  intro name mentioned here
  have isVariable := (plain_blockNarrowed placed.known.1 _).names name mentioned
  refine Subset.nameErrors_eq_nil_of_func (free_of_isVariable isVariable) isVariable.not_mem_builtins
    here defined ?_
  change name ∈ namesOf ((Def.ofFunc f).narrowedBody line)
  rw [Def.narrowedBody, namesOf_append]
  exact mem_append_right _ mentioned

theorem problems_main :
    (errorsOf (moduleScope p) none false (ofProgram p).statements).map Subset.Error.problem =
      (p.code.filterMap Instruction.callTarget?).filterMap p.misfit? := by
  have placed : AllPlaced false false (segments p.code).length (ofProgram p).body :=
    placed_bodyStmts sound p.mainBody_mem
  have calls : blockCalls (ofProgram p).body = p.code.filterMap Instruction.callTarget? :=
    blockCalls_bodyStmts sound.code
  rw [statements, errorsOf_append, errorsOf_defsNarrowed, nil_append, bodyNarrowed]
  split
  · next filled =>
    rw [← calls]
    refine problems_blockNarrowed (lists_moduleScope p) (absurd · Bool.false_ne_true) placed ?_
      (calls ▸ known_calls sound p.mainBody_mem)
    intro name mentioned here
    have plain := plain_blockNarrowed placed.known.1
      (27 + (defsSource (ofProgram p).defs).length + 2)
    have isVariable := plain.names name mentioned
    refine Subset.nameErrors_eq_nil (free_of_isVariable isVariable) isVariable.not_mem_builtins here
      (.inr ?_)
    rw [statements, flatMap_append, bodyNarrowed, if_pos filled, ← namesOf_of_noDef plain.noDef]
    exact mem_append_right _ mentioned
  · next empty =>
    have noCode : p.code = [] := by simpa [ofProgram] using empty
    rw [noCode]
    rfl

/-- The text is read as the statements of a script that follows every run of the program. -/
theorem text_follows_run (limits : Limits) :
    Subset.parse (Subset.withoutHelpers (ofProgram p).text) = .ok (ofProgram p).statements ∧
      (ofProgram p).FollowsRun (Environment.run limits {} p) :=
  ⟨parse_text (readable_ofProgram sound) (hasSmallSegments_ofProgram sound),
    followsRun_of_sound sound limits⟩

theorem ofPython_text : Program.ofPython (ofProgram p).text = Subset.lower (ofProgram p).statements := by
  rw [Program.ofPython, (text_follows_run sound {}).1]
  rfl

theorem problems_funcs :
    ((collected p).flatMap (Subset.Def.bodyErrors (moduleScope p))).map Subset.Error.problem =
      ((p.funcs.flatMap Func.body).filterMap Instruction.callTarget?).filterMap p.misfit? := by
  have partners := forall₂_map_left_iff.1 (forall₂_defsCollected 0 27 (p.funcs.map Def.ofFunc))
  rw [map_flatMap, filterMap_flatMap, filterMap_flatMap]
  refine flatMap_of_partners partners fun f inFuncs d member there => ?_
  obtain ⟨start, line, rfl⟩ := there
  exact problems_func sound inFuncs member

theorem problems_ofPython : ∃ errors : List Subset.Error,
    Reports errors (Program.ofPython (ofProgram p).text) ∧
      errors.map Subset.Error.problem =
        p.allCode.filterMap fun i => i.callTarget?.bind p.misfit? := by
  have fine : ∀ d ∈ collected p, d.scope = .ok (.ofBody d.params d.body) := by
    intro d member
    obtain ⟨e, inDefs, start, line, rfl⟩ := exists_partner (forall₂_defsCollected 0 27 _) member
    exact Def.scope_collected ((readable_ofProgram sound).defs e inDefs).1 start line
  have reports := Subset.lower_reports (collectDefs_statements sound) fine
  rw [← ofPython_text sound] at reports
  refine ⟨_, reports, ?_⟩
  have both := congrArg₂ (· ++ ·) (problems_funcs sound) (problems_main sound)
  rwa [← filterMap_filterMap, Program.allCode, filterMap_append, filterMap_append, map_append]

end Programs

/-! ## Translating back -/

section Translation

variable {p : Program} (sound : p.Sound 0)

include sound

/-- A call fits if the subset finds nothing wrong with it. -/
theorem callFits_iff {i : Instruction} (member : i ∈ p.allCode) :
    i.CallFits p ↔ i.callTarget?.bind p.misfit? = none := by
  unfold Instruction.CallFits
  cases target : i.callTarget? with
  | none => simp
  | some call =>
    obtain ⟨index, args⟩ := call
    obtain ⟨f, -, found, -⟩ := sound.func?_call member target
    constructor
    · intro fits
      obtain ⟨g, found', count⟩ := fits index args rfl
      simp [Program.misfit?, found', count]
    · intro none index' args' same
      cases same
      refine ⟨f, found, ?_⟩
      by_contra differs
      simp [Program.misfit?, found, Ne.symm differs] at none

end Translation

/-- The script of a parsed program can be translated back if every call passes as many arguments as
its function takes. Otherwise the first call that does not is reported. -/
theorem script_translates_back_iff {source : Source} {p : Program}
    (parsed : Program.parse source 0 = .ok p) :
    ((∃ q, Program.ofPython (ofProgram p).text = .ok q) ↔ ∀ i ∈ p.allCode, i.CallFits p) ∧
    ∀ e, Program.ofPython (ofProgram p).text = .error e →
      ∃ before i after index args f, p.allCode = before ++ i :: after ∧
        (∀ j ∈ before, j.CallFits p) ∧ i.callTarget? = some (index, args) ∧
        p.func? index = some f ∧ args.length ≠ f.paramCount.toNat ∧
        e.problem = .unsupported (.callArity (funcName index) args.length f.paramCount.toNat) := by
  have sound := sound_of_parse parsed
  obtain ⟨errors, reports, problems⟩ := problems_ofPython sound
  cases errors with
  | nil =>
    obtain ⟨q, translated⟩ := reports
    have fits : ∀ i ∈ p.allCode, i.CallFits p := fun i member =>
      (callFits_iff sound member).2 (List.filterMap_eq_nil_iff.1 problems.symm i member)
    refine ⟨⟨fun _ => fits, fun _ => ⟨q, translated⟩⟩, fun e failed => ?_⟩
    cases translated.symm.trans failed
  | cons first rest =>
    have failed : Program.ofPython (ofProgram p).text = .error first := reports
    obtain ⟨before, i, after, split, fits, misfit, -⟩ := List.filterMap_eq_cons_iff.1 problems.symm
    have member : i ∈ p.allCode := by simp [split]
    have earlier : ∀ j ∈ before, j.CallFits p := fun j inBefore =>
      (callFits_iff sound (by simp [split, inBefore])).2 (fits j inBefore)
    obtain ⟨⟨index, args⟩, target, refused⟩ := Option.bind_eq_some_iff.1 misfit
    obtain ⟨f, found, differs, problem⟩ := Program.misfit?_eq_some refused
    refine ⟨⟨fun ⟨q, translated⟩ => ?_, fun fits => ?_⟩, fun e failed' => ?_⟩
    · cases failed.symm.trans translated
    · cases misfit.symm.trans ((callFits_iff sound member).1 (fits i member))
    · obtain rfl : first = e := Except.error.inj (failed.symm.trans failed')
      exact ⟨before, i, after, index, args, f, split, earlier, target, found, differs, problem⟩

/-- A call without the argument that its function takes. -/
def shortCall : Source where
  name := "short"
  text := "# 0 1 \x7b\n^ a0\n\x7d\n$ g0 0\n"

/-- What `shortCall` is parsed to. -/
def shortCallProgram : Program where
  code := [⟨.call, [.global 0, .lit 0], 4⟩]
  funcs := [{ index := 0, paramCount := 1, localCount := 0, line := 1, body := [⟨.ret, [.arg 0], 2⟩] }]
  globalCount := 1

theorem parse_shortCall : Program.parse shortCall 0 = .ok shortCallProgram := by
  cbv

/-- The script of `shortCall` cannot be translated back. -/
theorem script_of_shortCall_refused :
    Program.parse shortCall 0 = .ok shortCallProgram ∧
    Program.ofPython (ofProgram shortCallProgram).text =
      .error ⟨.unsupported (.callArity "f0" 0 1), 34⟩ := by
  refine ⟨parse_shortCall, ?_⟩
  rw [ofPython_text (sound_of_parse parse_shortCall)]
  cbv

/-- What the statement above says about `shortCall`. -/
theorem script_translates_back_iff_shortCall :
    Program.parse shortCall 0 = .ok shortCallProgram ∧
    ∃ e, Program.ofPython (ofProgram shortCallProgram).text = .error e ∧
      e.problem = .unsupported (.callArity "f0" 0 1) := by
  obtain ⟨iff, first⟩ := script_translates_back_iff parse_shortCall
  refine ⟨parse_shortCall, ?_⟩
  cases result : Program.ofPython (ofProgram shortCallProgram).text with
  | ok q =>
    obtain ⟨f, found, count⟩ := iff.1 ⟨q, result⟩ ⟨.call, [.global 0, .lit 0], 4⟩ (by decide) 0 [] rfl
    cases found
    cases count
  | error e =>
    obtain ⟨before, i, after, index, args, f, split, -, target, found, -, problem⟩ := first e result
    have member : i ∈ shortCallProgram.allCode := by simp [split]
    refine ⟨e, rfl, problem.trans ?_⟩
    rcases List.mem_cons.1 member with rfl | member
    · cases target
    · obtain rfl := List.mem_singleton.1 member
      cases target
      cases found
      rfl

end Script

end SlotLang
