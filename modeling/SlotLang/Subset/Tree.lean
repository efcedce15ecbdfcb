import SlotLang.Text.Numeral

/-!
# The Python subset

Programs of the subset compute with integers: variables, arithmetic, comparisons, conditionals,
loops, functions and `print`. The trees here hold exactly the supported programs; statements know
the line they start on.
-/

namespace SlotLang.Subset

/-- Arithmetic operators. Division and remainder round toward negative infinity. -/
inductive Arith where
  | add
  | sub
  | mul
  | floorDiv
  | floorMod
  deriving DecidableEq, Repr, Inhabited

inductive Relation where
  | lt
  | gt
  | le
  | ge
  | eq
  | ne
  deriving DecidableEq, Repr, Inhabited

/-- Connectives that skip their second operand once the first one decides. -/
inductive Connective where
  | and
  | or
  deriving DecidableEq, Repr, Inhabited

inductive Expr where
  | int (v : Value)
  | name (id : String)
  | neg (e : Expr)
  | not (e : Expr)
  | arith (op : Arith) (a b : Expr)
  | compare (op : Relation) (a b : Expr)
  | connect (op : Connective) (a b : Expr)
  | call (callee : String) (args : List Expr)
  deriving Inhabited

inductive Stmt where
  | assign (target : String) (value : Expr) (line : Nat)
  /-- Combines the target's value with another one. -/
  | augment (target : String) (op : Arith) (value : Expr) (line : Nat)
  | expr (value : Expr) (line : Nat)
  | ret (value : Option Expr) (line : Nat)
  /-- Makes names of a function refer to globals. -/
  | global (names : List String) (line : Nat)
  | cond (test : Expr) (body otherwise : List Stmt) (line : Nat)
  | whileLoop (test : Expr) (body : List Stmt) (line : Nat)
  | breakLoop (line : Nat)
  | continueLoop (line : Nat)
  | pass (line : Nat)
  | funcDef (name : String) (params : List String) (body : List Stmt) (line : Nat)
  deriving Inhabited

def Stmt.line : Stmt → Nat
  | assign _ _ line | augment _ _ _ line | expr _ line | ret _ line | global _ line
  | cond _ _ _ line | whileLoop _ _ line | breakLoop line | continueLoop line | pass line
  | funcDef _ _ _ line => line

/-! ## Names -/

mutual

/-- The names that an expression reads, in order. -/
def Expr.names : Expr → List String
  | .int _ => []
  | .name id => [id]
  | .neg e | .not e => e.names
  | .arith _ a b | .compare _ a b | .connect _ a b => a.names ++ b.names
  | .call _ args => namesOfArgs args

def namesOfArgs : List Expr → List String
  | [] => []
  | e :: es => e.names ++ namesOfArgs es

end

mutual

/-- Every name in a statement, in order. -/
def Stmt.names : Stmt → List String
  | .assign target value _ | .augment target _ value _ => target :: value.names
  | .expr value _ => value.names
  | .ret value _ => value.elim [] Expr.names
  | .global names _ => names
  | .cond test body otherwise _ => test.names ++ namesOf body ++ namesOf otherwise
  | .whileLoop test body _ => test.names ++ namesOf body
  | .funcDef _ params body _ => params ++ namesOf body
  | .breakLoop _ | .continueLoop _ | .pass _ => []

def namesOf : List Stmt → List String
  | [] => []
  | s :: rest => s.names ++ namesOf rest

end

mutual

def Stmt.declared : Stmt → List String
  | .global names _ => names
  | .cond _ body otherwise _ => declaredIn body ++ declaredIn otherwise
  | .whileLoop _ body _ => declaredIn body
  | _ => []

def declaredIn : List Stmt → List String
  | [] => []
  | s :: rest => s.declared ++ declaredIn rest

end

mutual

/-- The names that a statement assigns, in order. -/
def Stmt.assigned : Stmt → List String
  | .assign target _ _ | .augment target _ _ _ => [target]
  | .cond _ body otherwise _ => assignedIn body ++ assignedIn otherwise
  | .whileLoop _ body _ => assignedIn body
  | _ => []

def assignedIn : List Stmt → List String
  | [] => []
  | s :: rest => s.assigned ++ assignedIn rest

end

mutual

/-- The line of the first function defined in a statement. -/
def Stmt.firstDef? : Stmt → Option Nat
  | .funcDef _ _ _ line => some line
  | .cond _ body otherwise _ => (firstDefIn? body).or (firstDefIn? otherwise)
  | .whileLoop _ body _ => firstDefIn? body
  | _ => none

/-- The line of the first function defined in some statements. -/
def firstDefIn? : List Stmt → Option Nat
  | [] => none
  | s :: rest => s.firstDef?.or (firstDefIn? rest)

end

end SlotLang.Subset
