import SlotLang.Machine.Fault
import SlotLang.Subset.Scope

/-!
# What programs of the subset mean

The reference semantics of the subset, said on the trees alone. Arithmetic wraps to 64 bits, division
and remainder round down, a connective gives the operand that decides it, and operands are evaluated
from left to right, each name at its own moment. Names that a function assigns without declaring them
global are local to the call and start at zero; every other name is global. Calls refer to the
functions of the module, wherever they stand.

Evaluation is bounded by `fuel`: so many rounds of each loop, so many calls inside each other. An
evaluation that runs out of it is unfinished, and a program terminates if some amount is enough.
-/

namespace SlotLang.Subset

/-- Why an evaluation stops. -/
inductive Stop where
  | divisionByZero
  | divisionOverflow
  /-- There was not enough fuel, or a call names no function. -/
  | unfinished
  deriving DecidableEq, Repr, Inhabited

/-- The variables and what has been printed. -/
structure Memory where
  locals : String → Value := fun _ => 0
  globals : String → Value := fun _ => 0
  output : List Value := []

namespace Memory

def value (memory : Memory) (isLocal : Bool) (name : String) : Value :=
  if isLocal then memory.locals name else memory.globals name

def assign (memory : Memory) (isLocal : Bool) (name : String) (v : Value) : Memory :=
  if isLocal then { memory with locals := fun n => if n = name then v else memory.locals n }
  else { memory with globals := fun n => if n = name then v else memory.globals n }

end Memory

/-- An evaluation changes the memory, and keeps the changes when it stops. -/
abbrev Eval := ExceptT Stop (StateM Memory)

/-- A result that leaves the memory alone. -/
def Eval.ofExcept {α : Type} (x : Except Stop α) : Eval α :=
  ExceptT.mk (pure x)

/-! ## Operators -/

/-- Arithmetic on values. -/
def Arith.apply (op : Arith) (a b : Value) : Except Stop Value :=
  match op with
  | .add => .ok (a + b)
  | .sub => .ok (a - b)
  | .mul => .ok (a * b)
  | .floorDiv =>
    if b = 0 then .error .divisionByZero
    else if a = Int64.minValue ∧ b = -1 then .error .divisionOverflow
    else .ok (Int64.ofInt (a.toInt.fdiv b.toInt))
  | .floorMod =>
    if b = 0 then .error .divisionByZero else .ok (Int64.ofInt (a.toInt.fmod b.toInt))

/-- Comparison of values. -/
def Relation.holds (op : Relation) (a b : Value) : Bool :=
  match op with
  | .lt => a < b
  | .gt => a > b
  | .le => a ≤ b
  | .ge => a ≥ b
  | .eq => a = b
  | .ne => a ≠ b

/-- Whether a first operand decides a connective. -/
def Connective.decides (op : Connective) (a : Value) : Bool :=
  match op with
  | .and => a = 0
  | .or => a ≠ 0

/-- Division toward zero, by its quotient or its remainder. -/
def truncating (isQuotient : Bool) (a b : Value) : Except Stop Value :=
  if b = 0 then .error .divisionByZero
  else if isQuotient then
    if a = Int64.minValue ∧ b = -1 then .error .divisionOverflow else .ok (a / b)
  else .ok (a % b)

/-! ## Expressions -/

/-- What an evaluation depends on besides the memory. -/
structure Setting where
  isLocal : String → Bool := fun _ => false
  call : String → List Value → Eval Value
  /-- How many rounds a loop may take. -/
  rounds : Nat

namespace Setting

variable (s : Setting)

def read (name : String) : Eval Value := do
  return (← get).value (s.isLocal name) name

/-- Assigns to a name. -/
def write (name : String) (v : Value) : Eval Unit :=
  modify fun memory => memory.assign (s.isLocal name) name v

/-- The result of a call whose arguments have been evaluated. -/
def apply (callee : String) (args : List Value) : Eval Value :=
  if callee = "int" ∨ callee = "_wrap" then
    match args with
    | [v] => return v
    | args => s.call callee args
  else if callee = "_div" ∨ callee = "_rem" then
    match args with
    | [a, b] => .ofExcept (truncating (callee = "_div") a b)
    | args => s.call callee args
  else s.call callee args

end Setting

mutual

/-- The value of an expression. -/
def Expr.eval (s : Setting) : Expr → Eval Value
  | .int v => return v
  | .name id => s.read id
  | .neg e => return -(← e.eval s)
  | .not e => return .ofBool ((← e.eval s) = 0)
  | .arith op a b => do
    let x ← a.eval s
    let y ← b.eval s
    .ofExcept (op.apply x y)
  | .compare op a b => do
    let x ← a.eval s
    let y ← b.eval s
    return .ofBool (op.holds x y)
  | .connect op a b => do
    let x ← a.eval s
    if op.decides x then return x else b.eval s
  | .call callee args => do
    let vs ← evalAll s args
    s.apply callee vs

/-- The values of expressions from left to right. -/
def evalAll (s : Setting) : List Expr → Eval (List Value)
  | [] => return []
  | e :: es => do
    let v ← e.eval s
    let vs ← evalAll s es
    return v :: vs

end

/-! ## Statements -/

/-- How a statement ends. -/
inductive Flow where
  | next
  | leaveLoop
  | nextRound
  | ret (v : Value)
  deriving DecidableEq, Repr, Inhabited

/-- Repeats a body as long as a test gives a value other than zero. -/
def repeatWhile (test : Eval Value) (body : Eval Flow) : Nat → Eval Flow
  | 0 => .ofExcept (.error .unfinished)
  | rounds + 1 => do
    if (← test) = 0 then return .next
    match ← body with
    | .next | .nextRound => repeatWhile test body rounds
    | .leaveLoop => return .next
    | .ret v => return .ret v

/-- Prints a value. -/
def output (v : Value) : Eval Unit :=
  modify fun memory => { memory with output := memory.output ++ [v] }

def printed? : Expr → Option Expr
  | .call callee [e] => if callee = "print" then some e else none
  | _ => none

mutual

/-- Runs a statement. -/
def Stmt.exec (s : Setting) : Stmt → Eval Flow
  | .assign target value _ => do
    s.write target (← value.eval s)
    return .next
  | .augment target op value _ => do
    let x ← s.read target
    let y ← value.eval s
    s.write target (← .ofExcept (op.apply x y))
    return .next
  | .expr value _ =>
    match printed? value with
    | some e => do
      output (← e.eval s)
      return .next
    | none => do
      let _ ← value.eval s
      return .next
  | .ret none _ => return .ret 0
  | .ret (some value) _ => return .ret (← value.eval s)
  | .cond test body otherwise _ => do
    if (← test.eval s) = 0 then execAll s otherwise else execAll s body
  | .whileLoop test body _ => repeatWhile (test.eval s) (execAll s body) s.rounds
  | .breakLoop _ => return .leaveLoop
  | .continueLoop _ => return .nextRound
  | .global _ _ | .pass _ | .funcDef .. => return .next

/-- Runs statements until one of them does not go on to the next. -/
def execAll (s : Setting) : List Stmt → Eval Flow
  | [] => return .next
  | stmt :: rest => do
    match ← stmt.exec s with
    | .next => execAll s rest
    | flow => return flow

end

/-! ## Programs -/

/-- A function as it stands in a module. -/
structure Callee where
  params : List String
  body : List Stmt

/-- The function that statements of a module define under a name. -/
def callee? (name : String) : List Stmt → Option Callee
  | [] => none
  | .funcDef n params body _ :: rest => if n = name then some ⟨params, body⟩ else callee? name rest
  | _ :: rest => callee? name rest

namespace Callee

/-- Whether a name is local: a parameter, or assigned and not declared global. -/
def isLocal (f : Callee) (name : String) : Bool :=
  f.params.contains name || (assignedIn f.body).contains name && !(declaredIn f.body).contains name

/-- The locals of a call: parameters have their arguments, and everything else is zero. -/
def bind (f : Callee) (args : List Value) (name : String) : Value :=
  ((f.params.zip args).lookup name).getD 0

end Callee

/-- The result of a function that ended in some way. -/
def Flow.value : Flow → Value
  | .ret v => v
  | _ => 0

def callFunc (module : List Stmt) : Nat → String → List Value → Eval Value
  | 0, _, _ => .ofExcept (.error .unfinished)
  | fuel + 1, name, args =>
    match callee? name module with
    | none => .ofExcept (.error .unfinished)
    | some f => do
      let caller ← get
      set { caller with locals := f.bind args }
      let s : Setting := { isLocal := f.isLocal, call := callFunc module fuel, rounds := fuel }
      let flow ← execAll s f.body
      modify fun memory => { memory with locals := caller.locals }
      return flow.value

def runModule (module : List Stmt) (fuel : Nat) : Eval Flow :=
  execAll { call := callFunc module fuel, rounds := fuel } module

end SlotLang.Subset
