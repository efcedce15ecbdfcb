/-!
# Syntax trees of Python source

The trees keep what it takes to tell the supported subset from the rest of the language: supported
forms with their parts, and for every other form its kind. Every node knows the line it starts on.
-/

namespace SlotLang.Reader

inductive Operator where
  | add
  | sub
  | mul
  | div
  | floorDiv
  | mod
  | pow
  | matMul
  | shift
  | bitwise
  deriving DecidableEq, Repr, Inhabited

inductive Comparator where
  | lt
  | gt
  | le
  | ge
  | eq
  | ne
  | membership
  | identity
  deriving DecidableEq, Repr, Inhabited

inductive UnaryOperator where
  | minus
  | plus
  | not
  | invert
  deriving DecidableEq, Repr, Inhabited

inductive Connective where
  | and
  | or
  deriving DecidableEq, Repr, Inhabited

inductive Constant where
  | int (n : Nat)
  | bool (b : Bool)
  | none
  | string
  | bytes
  | float
  | complex
  | ellipsis
  deriving DecidableEq, Repr, Inhabited

/-- Expressions outside the subset. -/
inductive ExprForm where
  | conditional
  | lambda
  | comprehension
  | list
  | tuple
  | dict
  | set
  | subscript
  | attribute
  | generator
  | awaiting
  | assignment
  | formatted
  | starred
  | slice
  deriving DecidableEq, Repr, Inhabited

inductive Expr where
  | constant (c : Constant) (line : Nat)
  | name (id : String) (line : Nat)
  | unary (op : UnaryOperator) (operand : Expr) (line : Nat)
  | binary (op : Operator) (left right : Expr) (line : Nat)
  | bool (op : Connective) (values : List Expr) (line : Nat)
  | compare (left : Expr) (rest : List (Comparator × Expr)) (line : Nat)
  | call (callee : Expr) (args : List Expr) (hasKeywords : Bool) (line : Nat)
  | other (form : ExprForm) (line : Nat)
  deriving Inhabited

def Expr.line : Expr → Nat
  | constant _ line | name _ line | unary _ _ line | binary _ _ _ line | bool _ _ line
  | compare _ _ line | call _ _ _ line | other _ line => line

/-- A parameter that is neither variadic nor restricted to positions or keywords. -/
structure Param where
  name : String
  hasDefault : Bool
  hasType : Bool
  deriving DecidableEq, Repr, Inhabited

structure Params where
  plain : List Param := []
  /-- Whether some parameters take positional arguments only. -/
  hasPositionalOnly : Bool := false
  /-- Whether a parameter collects further arguments. -/
  isVariadic : Bool := false
  /-- Whether some parameters take keyword arguments only. -/
  hasKeywordOnly : Bool := false
  deriving DecidableEq, Repr, Inhabited

/-- Statements outside the subset. -/
inductive StmtForm where
  | asyncCode
  | classDef
  | delete
  | typedAssign
  | forLoop
  | withBlock
  | matchBlock
  | raise
  | tryBlock
  | assertion
  | importing
  | nonlocal
  /-- Statements without a name of their own in messages. -/
  | unnamed
  deriving DecidableEq, Repr, Inhabited

inductive Stmt where
  | funcDef (name : String) (params : Params) (isDecorated hasReturn : Bool) (body : List Stmt)
    (line : Nat)
  | assign (targets : List Expr) (value : Expr) (line : Nat)
  | augment (target : Expr) (op : Operator) (value : Expr) (line : Nat)
  | expr (value : Expr) (line : Nat)
  | ret (value : Option Expr) (line : Nat)
  | global (names : List String) (line : Nat)
  | cond (test : Expr) (body orelse : List Stmt) (line : Nat)
  | whileLoop (test : Expr) (body orelse : List Stmt) (line : Nat)
  | breakLoop (line : Nat)
  | continueLoop (line : Nat)
  | pass (line : Nat)
  | other (form : StmtForm) (line : Nat)
  deriving Inhabited

end SlotLang.Reader
