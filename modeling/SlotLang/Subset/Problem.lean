import SlotLang.Reader.Tree

/-!
# Why a source is not taken

A source either is no Python, or uses something outside the subset, or uses names and statements
where they have no meaning. An error says which and names a line.
-/

namespace SlotLang.Subset

/-- What the subset leaves out. -/
inductive Construct where
  | statement (form : Reader.StmtForm)
  /-- An expression, by the noun for its form. -/
  | expression (noun : String)
  | operator (op : Reader.Operator)
  | invert
  | membership
  | identity
  | chainedComparison
  | chainedAssignment
  | tupleAssignment
  | assignmentTo (noun : String)
  | callOf (noun : String)
  | keywordArgument
  | wideInteger (i : Int)
  | whileElse
  | decorator
  | returnHint
  | positionalOnly
  | variadic
  | keywordOnly
  | defaultArgument
  | typedParam
  | builtinRedefined (name : String)
  | functionRedefined (name : String)
  | nestedFunction
  | functionInBlock
  | functionAsValue (name : String)
  | builtinAsValue (name : String)
  | printArity (count : Nat)
  | printAsValue
  | builtinArity (name : String) (count : Nat)
  | unknownFunction (name : String)
  | callArity (name : String) (count params : Nat)
  deriving DecidableEq, Repr

/-- Python that means nothing where it stands. -/
inductive Misuse where
  | paramAndGlobal (name : String)
  | unknownName (name : String)
  | returnOutside
  | breakOutside
  | continueOutside
  deriving DecidableEq, Repr

/-- What is wrong with a source. -/
inductive Problem where
  | unsupported (c : Construct)
  | misuse (m : Misuse)
  /-- The source does not follow the grammar. -/
  | grammar
  deriving DecidableEq, Repr

/-- A problem and its line. -/
structure Error where
  problem : Problem
  line : Nat
  deriving DecidableEq, Repr

/-! ## Wording -/

def statementNoun : Reader.StmtForm → String
  | .asyncCode => "async code"
  | .classDef => "class definition"
  | .delete => "'del' statement"
  | .typedAssign => "annotated assignment"
  | .forLoop => "'for' loop"
  | .withBlock => "'with' statement"
  | .matchBlock => "'match' statement"
  | .raise => "'raise' statement"
  | .tryBlock => "'try' statement"
  | .assertion => "'assert' statement"
  | .importing => "import statement"
  | .nonlocal => "nonlocal declaration"
  | .unnamed => "statement"

def formNoun : Reader.ExprForm → String
  | .conditional => "conditional expression"
  | .lambda => "lambda expression"
  | .comprehension => "comprehension"
  | .list => "list display"
  | .tuple => "tuple"
  | .dict => "dict display"
  | .set => "set display"
  | .subscript => "subscript"
  | .attribute => "attribute access"
  | .generator => "generator"
  | .awaiting => "async code"
  | .assignment => "assignment expression"
  | .formatted => "f-string"
  | .starred => "argument unpacking"
  | .slice => "slice"

def constantNoun : Reader.Constant → String
  | .none => "None"
  | .string => "string literal"
  | .bytes => "bytes literal"
  | .float => "float literal"
  | .complex => "complex literal"
  | .ellipsis => "'...'"
  | .int _ | .bool _ => "literal"

def exprNoun : Reader.Expr → String
  | .other form _ => formNoun form
  | .call .. => "call result"
  | .constant c _ => constantNoun c
  | _ => "expression"

def operatorText : Reader.Operator → String
  | .div => "true division '/'"
  | .pow => "exponentiation '**'"
  | .matMul => "matrix multiplication '@'"
  | .shift => "bit shift"
  | _ => "bitwise operator"

def Construct.text : Construct → String
  | statement form => statementNoun form
  | expression noun => noun
  | operator op => operatorText op
  | invert => "bitwise '~'"
  | membership => "'in' operator"
  | identity => "'is' operator"
  | chainedComparison => "chained comparison"
  | chainedAssignment => "chained assignment"
  | tupleAssignment => "tuple assignment"
  | assignmentTo noun => "assignment to " ++ noun
  | callOf noun => "call of " ++ noun
  | keywordArgument => "keyword argument"
  | wideInteger i => "integer literal " ++ toString i ++ " outside the 64-bit range"
  | whileElse => "'while ... else'"
  | decorator => "decorator"
  | returnHint => "return annotation"
  | positionalOnly => "positional-only parameter"
  | variadic => "variadic parameter"
  | keywordOnly => "keyword-only parameter"
  | defaultArgument => "default argument"
  | typedParam => "parameter annotation"
  | builtinRedefined name => "redefinition of builtin '" ++ name ++ "'"
  | functionRedefined name => "redefinition of function '" ++ name ++ "'"
  | nestedFunction => "nested function definition"
  | functionInBlock => "function definition inside a block"
  | functionAsValue name => "function '" ++ name ++ "' used as a value"
  | builtinAsValue name => "builtin '" ++ name ++ "' used as a value"
  | printArity count => "print with " ++ toString count ++ " arguments"
  | printAsValue => "print used as a value"
  | builtinArity name count => name ++ "() with " ++ toString count ++ " arguments"
  | unknownFunction name => "call to unknown function '" ++ name ++ "'"
  | callArity name count params =>
    "call to '" ++ name ++ "' with " ++ toString count ++ " arguments (takes " ++
      toString params ++ ")"

def Misuse.text : Misuse → String
  | paramAndGlobal name => "name '" ++ name ++ "' is parameter and global"
  | unknownName name => "unknown name '" ++ name ++ "'"
  | returnOutside => "'return' outside function"
  | breakOutside => "'break' outside loop"
  | continueOutside => "'continue' outside loop"

def Problem.text : Problem → String
  | unsupported c => "unsupported Python construct: " ++ c.text
  | misuse m => "syntax error: " ++ m.text
  | grammar => "syntax error"

def Error.message (e : Error) : String :=
  "line " ++ toString e.line ++ ": " ++ e.problem.text

def unsupported {α : Type} (c : Construct) (line : Nat) : Except Error α :=
  .error ⟨.unsupported c, line⟩

def misuse {α : Type} (m : Misuse) (line : Nat) : Except Error α :=
  .error ⟨.misuse m, line⟩

end SlotLang.Subset
