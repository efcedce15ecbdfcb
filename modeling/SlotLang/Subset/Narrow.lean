import SlotLang.Subset.Problem
import SlotLang.Subset.Tree

/-!
# From Python to the subset

`narrowAll` turns the trees of a source into trees of the subset, or stops at the first form outside
of it. What a form needs is checked before its parts, and parts are taken in the order they stand.
-/

namespace SlotLang.Subset

/-! ## Expressions -/

/-- An integer, if it fits in 64 bits. -/
def narrowInt (i : Int) (line : Nat) : Except Error Expr :=
  match Text.toValue? i with
  | some v => .ok (.int v)
  | none => unsupported (.wideInteger i) line

/-- A literal, perhaps with a minus sign in front of it. -/
def narrowConstant (c : Reader.Constant) (negated : Bool) (line : Nat) : Except Error Expr :=
  match c with
  | .int n => narrowInt (if negated then -n else n) line
  | .bool b => .ok (.int (if negated then -Value.ofBool b else Value.ofBool b))
  | c => unsupported (.expression (constantNoun c)) line

def narrowOperator (op : Reader.Operator) (line : Nat) : Except Error Arith :=
  match op with
  | .add => .ok .add
  | .sub => .ok .sub
  | .mul => .ok .mul
  | .floorDiv => .ok .floorDiv
  | .mod => .ok .floorMod
  | op => unsupported (.operator op) line

def narrowComparator (op : Reader.Comparator) (line : Nat) : Except Error Relation :=
  match op with
  | .lt => .ok .lt
  | .gt => .ok .gt
  | .le => .ok .le
  | .ge => .ok .ge
  | .eq => .ok .eq
  | .ne => .ok .ne
  | .membership => unsupported .membership line
  | .identity => unsupported .identity line

def narrowConnective : Reader.Connective → Connective
  | .and => .and
  | .or => .or

mutual

/-- An expression. A minus sign in front of a literal is part of the literal, so that the lowest
value can be written. -/
def narrow : Reader.Expr → Except Error Expr
  | .constant c line => narrowConstant c false line
  | .name id _ => .ok (.name id)
  | .unary .minus (.constant c _) line => narrowConstant c true line
  | .unary .minus e _ => return .neg (← narrow e)
  | .unary .plus e _ => narrow e
  | .unary .not e _ => return .not (← narrow e)
  | .unary .invert _ line => unsupported .invert line
  | .binary op a b line => do
    let op ← narrowOperator op line
    return .arith op (← narrow a) (← narrow b)
  | .bool op values line => do
    match ← narrowList values with
    | [] => unsupported (.expression "expression") line
    | first :: rest => return rest.foldl (.connect (narrowConnective op)) first
  | .compare a [(op, b)] line => do
    let op ← narrowComparator op line
    return .compare op (← narrow a) (← narrow b)
  | .compare _ _ line => unsupported .chainedComparison line
  | .call (.name callee _) args hasKeywords line => do
    if hasKeywords then unsupported .keywordArgument line
    return .call callee (← narrowList args)
  | .call callee _ _ line => unsupported (.callOf (exprNoun callee)) line
  | .other form line => unsupported (.expression (formNoun form)) line

/-- Expressions, the first one first. -/
def narrowList : List Reader.Expr → Except Error (List Expr)
  | [] => .ok []
  | e :: es => return (← narrow e) :: (← narrowList es)

end

/-! ## Statements -/

def narrowTarget (target : Reader.Expr) (line : Nat) : Except Error String :=
  match target with
  | .name id _ => .ok id
  | .other .tuple _ | .other .list _ => unsupported .tupleAssignment line
  | e => unsupported (.assignmentTo (exprNoun e)) line

def narrowParam (line : Nat) (p : Reader.Param) : Except Error String := do
  if p.hasDefault then unsupported .defaultArgument line
  if p.hasType then unsupported .typedParam line
  return p.name

def narrowParams (params : Reader.Params) (line : Nat) : Except Error (List String) := do
  if params.hasPositionalOnly then unsupported .positionalOnly line
  if params.isVariadic then unsupported .variadic line
  if params.hasKeywordOnly then unsupported .keywordOnly line
  params.plain.mapM (narrowParam line)

mutual

def narrowStmt : Reader.Stmt → Except Error Stmt
  | .funcDef name params isDecorated hasReturn body line => do
    if isDecorated then unsupported .decorator line
    if hasReturn then unsupported .returnHint line
    return .funcDef name (← narrowParams params line) (← narrowAll body) line
  | .assign [target] value line => return .assign (← narrowTarget target line) (← narrow value) line
  | .assign _ _ line => unsupported .chainedAssignment line
  | .augment target op value line => do
    let target ← narrowTarget target line
    return .augment target (← narrowOperator op line) (← narrow value) line
  | .expr value line => return .expr (← narrow value) line
  | .ret none line => .ok (.ret none line)
  | .ret (some value) line => return .ret (some (← narrow value)) line
  | .global names line => .ok (.global names line)
  | .cond test body otherwise line =>
    return .cond (← narrow test) (← narrowAll body) (← narrowAll otherwise) line
  | .whileLoop test body otherwise line => do
    if !otherwise.isEmpty then unsupported .whileElse line
    return .whileLoop (← narrow test) (← narrowAll body) line
  | .breakLoop line => .ok (.breakLoop line)
  | .continueLoop line => .ok (.continueLoop line)
  | .pass line => .ok (.pass line)
  | .other form line => unsupported (.statement form) line

/-- Statements, the first one first. -/
def narrowAll : List Reader.Stmt → Except Error (List Stmt)
  | [] => .ok []
  | s :: rest => return (← narrowStmt s) :: (← narrowAll rest)

end

end SlotLang.Subset
