import SlotLang.Proofs.Script.Source

/-!
# Scripts in the subset

The trees of a script belong to the subset: `narrowAll` gives the statements that are written out
here, as long as the numbers of segments are values.
-/

open List

namespace SlotLang.Script

open Subset (narrow narrowList narrowStmt narrowAll)

/-! ## Expressions -/

/-- An operand as an expression. -/
def operandExpr : Operand → Subset.Expr
  | .lit v => .int v
  | o => .name o.text

/-- The test of an operand for zero. -/
def nonzeroExpr (o : Operand) : Subset.Expr :=
  .compare .ne (operandExpr o) (.int 0)

/-- The operation of a sum, difference or product. -/
def arithOf (sign : Char) : Subset.Arith :=
  if sign = '+' then .add else if sign = '-' then .sub else .mul

/-- The relation of a comparison. -/
def relationOf (sign : String) : Subset.Relation :=
  if sign = "<" then .lt else if sign = ">" then .gt else .eq

/-- A term as an expression. -/
def Term.expr : Term → Subset.Expr
  | operand o => operandExpr o
  | wrapped sign a b => .call "_wrap" [.arith (arithOf sign) (operandExpr a) (operandExpr b)]
  | quotient a b => .call "_div" [operandExpr a, operandExpr b]
  | remainder a b => .call "_rem" [operandExpr a, operandExpr b]
  | comparison sign a b => .call "int" [.compare (relationOf sign) (operandExpr a) (operandExpr b)]
  | both a b => .call "int" [.connect .and (nonzeroExpr a) (nonzeroExpr b)]
  | either a b => .call "int" [.connect .or (nonzeroExpr a) (nonzeroExpr b)]
  | negation a => .call "int" [.not (operandExpr a)]
  | call f args => .call (funcName f) (args.map operandExpr)

variable {line : Nat}

theorem narrow_operand (o : Operand) : narrow (operandTree line o) = .ok (operandExpr o) := by
  cases o with
  | lit v =>
    by_cases negative : v.toInt < 0
    · have value : -(v.toInt.natAbs : Int) = v.toInt := by omega
      rw [operandTree, if_pos negative]
      change Subset.narrowInt (-(v.toInt.natAbs : Int)) line = _
      rw [value, Subset.narrowInt, toValue?_toInt]
      rfl
    · have value : (v.toInt.natAbs : Int) = v.toInt := by omega
      rw [operandTree, if_neg negative]
      change Subset.narrowInt (v.toInt.natAbs : Int) line = _
      rw [value, Subset.narrowInt, toValue?_toInt]
      rfl
  | global n | var n | arg n => rfl

theorem narrowList_operands (args : List Operand) :
    narrowList (args.map (operandTree line)) = .ok (args.map operandExpr) := by
  induction args with
  | nil => rfl
  | cons o args ih =>
    rw [map_cons, narrowList, narrow_operand, ih]
    rfl

theorem narrow_nonzero (o : Operand) : narrow (nonzeroTree line o) = .ok (nonzeroExpr o) := by
  rw [nonzeroTree, narrow, narrow_operand, narrow_operand]
  rfl

theorem narrow_call {name : String} {args : List Reader.Expr} {es : List Subset.Expr}
    (narrowed : narrowList args = .ok es) : narrow (callTree line name args) = .ok (.call name es) := by
  rw [callTree, narrow, narrowed]
  rfl

theorem narrowList_singleton {e : Reader.Expr} {e' : Subset.Expr} (narrowed : narrow e = .ok e') :
    narrowList [e] = .ok [e'] := by
  rw [narrowList, narrowed]
  rfl

theorem narrow_term {t : Term} (known : t.IsKnown) : narrow (t.tree line) = .ok t.expr := by
  cases t with
  | operand o => exact narrow_operand o
  | wrapped sign a b | comparison sign a b =>
    refine narrow_call (narrowList_singleton ?_)
    rw [narrow, narrow_operand, narrow_operand]
    rcases known with rfl | rfl | rfl <;> rfl
  | quotient a b | remainder a b => exact narrow_call (narrowList_operands [a, b])
  | both a b | either a b =>
    refine narrow_call (narrowList_singleton ?_)
    rw [narrow, narrowList, narrow_nonzero, narrowList_singleton (narrow_nonzero b)]
    rfl
  | negation a =>
    refine narrow_call (narrowList_singleton ?_)
    rw [narrow, narrow_operand]
    rfl
  | call f args => exact narrow_call (narrowList_operands args)

/-! ## Statements -/

def segmentValue (k : Nat) : Value :=
  Int64.ofInt k

mutual

/-- A statement in the subset; a comment is none. -/
def Stmt.narrowed (line : Nat) : Stmt → List Subset.Stmt
  | .assign dest t => [.assign dest.text t.expr line]
  | .print o => [.expr (.call "print" [operandExpr o]) line]
  | .ret o => [.ret (some (operandExpr o)) line]
  | .raise _ | .note _ => []
  | .whenNonzero o body => [.cond (nonzeroExpr o) (blockNarrowed (line + 1) body) [] line]
  | .setPc k => [.assign pcName (.int (segmentValue k)) line]
  | .again => [.continueLoop line]
  | .leave => [.breakLoop line]
  | .whenPc k body => [.cond (.compare .eq (.name pcName) (.int (segmentValue k)))
      (blockNarrowed (line + 1) body) [] line]
  | .forever body => [.whileLoop (.int 1) (blockNarrowed (line + 1) body) line]

def blockNarrowed (line : Nat) : List Stmt → List Subset.Stmt
  | [] => []
  | s :: rest => s.narrowed line ++ blockNarrowed (line + s.height) rest

end

mutual

def Stmt.segments : Stmt → List Nat
  | .setPc k => [k]
  | .whenPc k body => k :: blockSegments body
  | .whenNonzero _ body | .forever body => blockSegments body
  | .assign .. | .print _ | .ret _ | .raise _ | .note _ | .again | .leave => []

/-- The numbers of the segments that some statements mention. -/
def blockSegments : List Stmt → List Nat
  | [] => []
  | s :: rest => s.segments ++ blockSegments rest

end

theorem narrow_segment {k : Nat} (small : k < 0x8000000000000000) :
    narrow (.constant (.int k) line) = .ok (.int (segmentValue k)) := by
  have fits : Text.toValue? (k : Int) = some (segmentValue k) := by
    rw [Text.toValue?, if_pos (by omega), segmentValue]
  rw [narrow, Subset.narrowConstant, if_neg Bool.false_ne_true, Subset.narrowInt, fits]

theorem narrowAll_append {xs ys : List Reader.Stmt} {xs' ys' : List Subset.Stmt}
    (first : narrowAll xs = .ok xs') (second : narrowAll ys = .ok ys') :
    narrowAll (xs ++ ys) = .ok (xs' ++ ys') := by
  induction xs generalizing xs' with
  | nil =>
    cases first
    exact second
  | cons s xs ih =>
    rw [narrowAll] at first
    obtain ⟨s', here, first⟩ := bind_eq_ok.1 first
    obtain ⟨rest, later, first⟩ := bind_eq_ok.1 first
    cases first
    rw [cons_append, narrowAll, here, ih later]
    rfl

theorem narrowAll_singleton {s : Reader.Stmt} {s' : Subset.Stmt} (narrowed : narrowStmt s = .ok s') :
    narrowAll [s] = .ok [s'] := by
  rw [narrowAll, narrowed]
  rfl

theorem narrowTarget_slot {o : Operand} (slot : o.isSlot = true) :
    Subset.narrowTarget (operandTree line o) line = .ok o.text := by
  cases o with
  | lit v => cases slot
  | global n | var n | arg n => rfl

mutual

/-- The tree of a statement is the statement in the subset. -/
theorem Stmt.narrowAll_trees {s : Stmt} {line : Nat} (known : s.IsKnown)
    (small : ∀ k ∈ s.segments, k < 0x8000000000000000) :
    narrowAll (s.trees line) = .ok (s.narrowed line) := by
  cases s <;> rw [Stmt.trees, Stmt.narrowed]
  case assign dest t =>
    refine narrowAll_singleton ?_
    rw [narrowStmt, narrowTarget_slot known.1, narrow_term known.2]
    rfl
  case print o =>
    refine narrowAll_singleton ?_
    rw [narrowStmt, narrow_call (narrowList_singleton (narrow_operand o))]
    rfl
  case ret o =>
    refine narrowAll_singleton ?_
    rw [narrowStmt, narrow_operand]
    rfl
  case raise message => cases known
  case note label => rfl
  case setPc k =>
    refine narrowAll_singleton ?_
    rw [narrowStmt, narrow_segment (small k (by simp [Stmt.segments]))]
    rfl
  case again | leave => rfl
  case whenNonzero o body =>
    rw [Stmt.segments] at small
    refine narrowAll_singleton ?_
    rw [narrowStmt, narrow_nonzero, narrowAll_blockTrees known.2 small]
    rfl
  case whenPc k body =>
    rw [Stmt.segments, forall_mem_cons] at small
    refine narrowAll_singleton ?_
    have test : narrow (pcTree line k) =
        .ok (.compare .eq (.name pcName) (.int (segmentValue k))) := by
      rw [pcTree, narrow, narrow_segment small.1]
      rfl
    rw [narrowStmt, test, narrowAll_blockTrees known.2 small.2]
    rfl
  case forever body =>
    rw [Stmt.segments] at small
    refine narrowAll_singleton ?_
    rw [narrowStmt, narrowAll_blockTrees known.2 small]
    rfl

theorem narrowAll_blockTrees {body : List Stmt} {line : Nat} (known : AllKnown body)
    (small : ∀ k ∈ blockSegments body, k < 0x8000000000000000) :
    narrowAll (blockTrees line body) = .ok (blockNarrowed line body) := by
  cases body with
  | nil => rfl
  | cons s rest =>
    rw [blockSegments, forall_mem_append] at small
    exact narrowAll_append (s.narrowAll_trees known.1 small.1) (narrowAll_blockTrees known.2 small.2)

end

/-! ## Functions and scripts -/

namespace Def

def declared (line : Nat) (d : Def) : List Subset.Stmt :=
  if d.globals.isEmpty then [] else [.global (d.globals.map fun n => (Operand.global n).text) line]

/-- The statements of a function in the subset. -/
def narrowedBody (line : Nat) (d : Def) : List Subset.Stmt :=
  d.declared (line + 1) ++ blockNarrowed (line + 1 + d.declaration.length) d.stmts

/-- A function in the subset. -/
def narrowed (line : Nat) (d : Def) : Subset.Stmt :=
  .funcDef (funcName d.index) d.params (d.narrowedBody line) line

end Def

theorem narrowParams_plain (names : List String) :
    Subset.narrowParams (Reader.plainParams names) line = .ok names := by
  have each : (names.map fun name => (⟨name, false, false⟩ : Reader.Param)).mapM
      (Subset.narrowParam line) = .ok names := by
    induction names with
    | nil => rfl
    | cons name names ih =>
      rw [map_cons, mapM_cons, ih]
      rfl
  exact each

theorem blockSegments_append (xs ys : List Stmt) :
    blockSegments (xs ++ ys) = blockSegments xs ++ blockSegments ys := by
  induction xs with
  | nil => rfl
  | cons s xs ih => rw [cons_append, blockSegments, blockSegments, ih, append_assoc]

/-- Only the body of a function mentions segments. -/
theorem Def.blockSegments_stmts (d : Def) : blockSegments d.stmts = blockSegments d.body := by
  have inits (ns : List Nat) : blockSegments
      (ns.map fun n => .assign (.var (.ofNat n)) (.operand (.lit 0))) = [] := by
    induction ns with
    | nil => rfl
    | cons n ns ih => exact ih
  rw [Def.stmts, blockSegments_append, blockSegments_append, inits]
  exact append_nil _

theorem Def.narrowStmt_tree {d : Def} (known : AllKnown d.body)
    (small : ∀ k ∈ blockSegments d.body, k < 0x8000000000000000) :
    narrowStmt (d.tree line) = .ok (d.narrowed line) := by
  have declared : narrowAll (d.declarationTrees (line + 1)) = .ok (d.declared (line + 1)) := by
    unfold Def.declarationTrees Def.declared
    split <;> rfl
  have block : narrowAll (d.declarationTrees (line + 1) ++
      blockTrees (line + 1 + d.declaration.length) d.stmts) = .ok (d.narrowedBody line) :=
    narrowAll_append declared (narrowAll_blockTrees (Def.allKnown_stmts known)
      (d.blockSegments_stmts ▸ small))
  rw [Def.tree, narrowStmt, narrowParams_plain, block]
  rfl

/-- Functions in the subset behind a line, each with two empty lines in front of it. -/
def defsNarrowed (line : Nat) : List Def → List Subset.Stmt
  | [] => []
  | d :: rest => d.narrowed (line + 2) :: defsNarrowed (line + 2 + d.source.length) rest

/-- The module code in the subset behind a line. -/
def bodyNarrowed (line : Nat) (s : Script) : List Subset.Stmt :=
  if s.hasBody then blockNarrowed (line + 2) s.body else []

def statements (s : Script) : List Subset.Stmt :=
  defsNarrowed 27 s.defs ++ s.bodyNarrowed (27 + (defsSource s.defs).length)

/-- The numbers of segments in a script are values. -/
def HasSmallSegments (s : Script) : Prop :=
  (∀ d ∈ s.defs, ∀ k ∈ blockSegments d.body, k < 0x8000000000000000) ∧
    ∀ k ∈ blockSegments s.body, k < 0x8000000000000000

theorem narrowAll_defsTrees {defs : List Def} (known : ∀ d ∈ defs, AllKnown d.body)
    (small : ∀ d ∈ defs, ∀ k ∈ blockSegments d.body, k < 0x8000000000000000) :
    narrowAll (defsTrees line defs) = .ok (defsNarrowed line defs) := by
  induction defs generalizing line with
  | nil => rfl
  | cons d rest ih =>
    rw [forall_mem_cons] at known small
    exact narrowAll_append (narrowAll_singleton (Def.narrowStmt_tree known.1 small.1))
      (ih known.2 small.2)

theorem parse_of_module {source : String} {body : List Reader.Stmt} {stmts : List Subset.Stmt}
    (read : Reader.parseModule source = .ok body) (narrowed : narrowAll body = .ok stmts) :
    Subset.parse source = .ok stmts := by
  unfold Subset.parse
  split
  · next same =>
    cases same.symm.trans read
    exact narrowed
  · next same => cases same.symm.trans read

theorem parse_text {s : Script} (readable : s.Readable) (small : s.HasSmallSegments) :
    Subset.parse (Subset.withoutHelpers s.text) = .ok s.statements := by
  have body (line : Nat) : narrowAll (s.bodyTrees line) = .ok (s.bodyNarrowed line) := by
    unfold bodyTrees bodyNarrowed
    split
    · exact narrowAll_blockTrees readable.body small.2
    · rfl
  exact parse_of_module (parseModule_text readable) (narrowAll_append
    (narrowAll_defsTrees (fun d member => (readable.defs d member).1) small.1) (body _))

end SlotLang.Script
