import SlotLang.Program
import SlotLang.Subset.Scope

/-!
# From the subset to instructions

Every expression has a plan: how to get its value as an operand, and how to compute it into a given
slot. Plans are put together from the plans of the parts, and produce code while they draw labels and
temporary slots from counters.

* Division and remainder round down: the truncating instruction is followed by a correction that
  depends on the signs.
* A connective skips its second operand by a jump, unless both operands are plain truth values that
  cannot fail: then a single instruction does.
* A global that is read before a later operand calls a function is copied first, since the call may
  change it.
-/

namespace SlotLang.Subset

/-! ## Counters -/

/-- How many labels a body has drawn, and how many temporaries a statement has. -/
structure Counters where
  labels : Nat := 0
  temps : Nat := 0
  deriving DecidableEq, Repr, Inhabited

/-- Work that draws labels and temporaries, and that an error can stop. -/
abbrev Lowering := StateT Counters (Except Error)

/-- Instructions in order. -/
abbrev Code := List Instruction

/-- Where code is made: the names in force and the line of the statement. -/
structure Context where
  module : ModuleScope
  /-- The function's scope, or nothing at module level. -/
  scope : Option FuncScope
  line : Nat
  deriving Inhabited

/-- A fresh label. Labels are 32 bits wide and wrap. -/
def freshLabel : Lowering UInt32 := do
  let counters ← get
  set { counters with labels := counters.labels + 1 }
  return UInt32.ofNat counters.labels

namespace Context

variable (c : Context)

/-- The slot of a temporary: a local one in functions, a global one at module level. -/
def temp (n : Nat) : Operand :=
  match c.scope with
  | some scope => .var (scope.locals.next + UInt32.ofNat n)
  | none => .global (c.module.globals.next + UInt32.ofNat n)

def fresh : Lowering Operand := do
  let counters ← get
  set { counters with temps := counters.temps + 1 }
  return c.temp counters.temps

def refuse {α : Type} (construct : Construct) : Lowering α :=
  throw ⟨.unsupported construct, c.line⟩

def resolve (name : String) : Except Error Operand := do
  if (c.module.func? name).isSome then unsupported (.functionAsValue name) c.line
  if builtins.contains name then unsupported (.builtinAsValue name) c.line
  if let some scope := c.scope then
    if let some i := scope.params.idxOf? name then return .arg (UInt32.ofNat i)
    if !scope.declared.contains name then
      if let some n := scope.locals.slot? name then return .var n
  match c.module.globals.slot? name with
  | some n => return .global n
  | none => misuse (.unknownName name) c.line

def isNamedGlobal : Operand → Bool
  | .global n => n < c.module.globals.next
  | _ => false

/-! ## Instructions -/

def ins (op : Opcode) (operands : List Operand) : Instruction :=
  { opcode := op, operands, line := c.line }

def copy (dest value : Operand) : Instruction :=
  c.ins .assign [dest, value]

def label (l : UInt32) : Instruction :=
  c.ins .label [.ofIndex l]

def jump (l : UInt32) : Instruction :=
  c.ins .jump [.ofIndex l]

/-- Jumps to a label if a value is not zero. -/
def jumpIf (value : Operand) (l : UInt32) : Instruction :=
  c.ins .jumpIf [value, .ofIndex l]

/-! ## Rounding down -/

/-- Skips to a label unless a remainder is not zero and has a sign unlike the divisor's. -/
def signCheck (remainder divisor t u : Operand) (done : UInt32) : Code :=
  [c.ins (.binary .eq) [t, remainder, .lit 0],
    c.jumpIf t done,
    c.ins (.binary .lt) [t, remainder, .lit 0],
    c.ins (.binary .lt) [u, divisor, .lit 0],
    c.ins (.binary .eq) [t, t, u],
    c.jumpIf t done]

/-- The quotient rounded down: the truncating quotient, less one where the signs ask for it. -/
def floorDiv (dest a b r t u : Operand) (done : UInt32) : Code :=
  [c.ins (.binary .div) [dest, a, b], c.ins (.binary .rem) [r, a, b]] ++
    c.signCheck r b t u done ++
    [c.ins (.binary .sub) [dest, dest, .lit 1], c.label done]

/-- The remainder of the quotient rounded down: the truncating remainder, plus the divisor where the
signs ask for it. -/
def floorMod (dest a b t u : Operand) (done : UInt32) : Code :=
  [c.ins (.binary .rem) [dest, a, b]] ++
    c.signCheck dest b t u done ++
    [c.ins (.binary .add) [dest, dest, b], c.label done]

end Context

/-! ## Shapes of expressions -/

/-- Builtins that give back their only argument. -/
def isPassthrough (callee : String) : Bool :=
  callee == "int" || callee == "_wrap"

def Expr.isEffectFree : Expr → Bool
  | .int _ | .name _ => true
  | .neg e | .not e => e.isEffectFree
  | .arith .floorDiv _ _ | .arith .floorMod _ _ => false
  | .arith _ a b | .compare _ a b | .connect _ a b => a.isEffectFree && b.isEffectFree
  | .call callee [e] => isPassthrough callee && e.isEffectFree
  | .call _ _ => false

/-- Whether an expression is always a truth value. -/
def Expr.isFlag : Expr → Bool
  | .int v => v == 0 || v == 1
  | .compare .. | .not _ => true
  | .connect _ a b => (a.isFlag && a.isEffectFree) && (b.isFlag && b.isEffectFree)
  | .call callee [e] => callee == "int" && (e.isFlag && e.isEffectFree)
  | _ => false

/-- Whether an expression is always a truth value, and safe to evaluate where it is not needed. -/
def Expr.isPlainFlag (e : Expr) : Bool :=
  e.isFlag && e.isEffectFree

/-- Whether code for an expression writes the destination before it has read every operand. -/
def Expr.writesEarly : Expr → Bool
  | .arith .floorDiv _ _ | .arith .floorMod _ _ => true
  | .connect _ a b => !(a.isPlainFlag && b.isPlainFlag)
  | .call callee [e] => isPassthrough callee && e.writesEarly
  | _ => false

/-! ## Plans -/

/-- How to evaluate an expression. -/
structure Plan where
  /-- The code and the operand that holds the value behind it. -/
  value : Lowering (Code × Operand)
  /-- The code that leaves the value in a slot. -/
  into : Operand → Lowering Code

namespace Plan

variable (c : Context)

def held (operand : Except Error Operand) : Plan where
  value := do return ([], ← operand)
  into dest := do return [c.copy dest (← operand)]

/-- The value has to be computed into a slot, a temporary one if need be. -/
def computed (into : Operand → Lowering Code) : Plan where
  value := do
    let t ← c.fresh
    return (← into t, t)
  into := into

/-- The expression cannot be evaluated. -/
def refused (construct : Construct) : Plan :=
  computed c fun _ => c.refuse construct

end Plan

/-- The plan of an operand, and whether evaluating it is free of effects. -/
structure Part where
  plan : Plan
  isEffectFree : Bool

section Operands

variable (c : Context)

def Part.read (p : Part) (later : List Part) : Lowering (Code × Operand) := do
  let (code, value) ← p.plan.value
  if c.isNamedGlobal value && later.any (!·.isEffectFree) then
    let t ← c.fresh
    return (code ++ [c.copy t value], t)
  return (code, value)

/-- The values of operands from left to right. -/
def readAll : List Part → Lowering (Code × List Operand)
  | [] => return ([], [])
  | p :: later => do
    let (first, value) ← p.read c later
    let (rest, values) ← readAll later
    return (first ++ rest, value :: values)

def readBoth (a b : Part) : Lowering (Code × Operand × Operand) := do
  let (first, x) ← a.read c [b]
  let (second, y) ← b.read c []
  return (first ++ second, x, y)

/-! ## Operators -/

def binaryInto (op : BinaryOp) (a b : Part) (dest : Operand) : Lowering Code := do
  let (code, x, y) ← readBoth c a b
  return code ++ [c.ins (.binary op) [dest, x, y]]

def negatedInto (op : BinaryOp) (a b : Part) (dest : Operand) : Lowering Code := do
  let (code, x, y) ← readBoth c a b
  let t ← c.fresh
  return code ++ [c.ins (.binary op) [t, x, y], c.ins .not [dest, t]]

def arithInto (op : Arith) (a b : Part) (dest : Operand) : Lowering Code :=
  match op with
  | .add => binaryInto c .add a b dest
  | .sub => binaryInto c .sub a b dest
  | .mul => binaryInto c .mul a b dest
  | .floorDiv => do
    let (code, x, y) ← readBoth c a b
    let done ← freshLabel
    let r ← c.fresh
    let t ← c.fresh
    let u ← c.fresh
    return code ++ c.floorDiv dest x y r t u done
  | .floorMod => do
    let (code, x, y) ← readBoth c a b
    let done ← freshLabel
    let t ← c.fresh
    let u ← c.fresh
    return code ++ c.floorMod dest x y t u done

def compareInto (op : Relation) (a b : Part) (dest : Operand) : Lowering Code :=
  match op with
  | .lt => binaryInto c .lt a b dest
  | .gt => binaryInto c .gt a b dest
  | .eq => binaryInto c .eq a b dest
  | .le => negatedInto c .gt a b dest
  | .ge => negatedInto c .lt a b dest
  | .ne => negatedInto c .eq a b dest

def Connective.instruction : Connective → BinaryOp
  | .and => .and
  | .or => .or

/-- A connective that jumps over its second operand when the first one decides. -/
def shortCircuitInto (op : Connective) (a b : Plan) (dest : Operand) : Lowering Code := do
  let done ← freshLabel
  let first ← a.into dest
  let skip : Code ← match op with
    | .and => do
      let t ← c.fresh
      pure [c.ins .not [t, dest], c.jumpIf t done]
    | .or => pure [c.jumpIf dest done]
  let second ← b.into dest
  return first ++ skip ++ second ++ [c.label done]

def callInto (d : Def) (args : List Part) (dest : Operand) : Lowering Code := do
  let (code, values) ← readAll c args
  return code ++ [c.ins .call (dest :: .ofIndex d.index :: values)]

def callPlan (callee : String) (args : List Part) : Plan :=
  if callee = "print" then .refused c .printAsValue
  else if isPassthrough callee then
    match args with
    | [a] => a.plan
    | _ => .refused c (.builtinArity callee args.length)
  else if callee = "_div" ∨ callee = "_rem" then
    match args with
    | [a, b] => .computed c (binaryInto c (if callee = "_div" then .div else .rem) a b)
    | _ => .refused c (.builtinArity callee args.length)
  else match c.module.func? callee with
    | none => .refused c (.unknownFunction callee)
    | some d =>
      if args.length = d.params.length then .computed c (callInto c d args)
      else .refused c (.callArity callee args.length d.params.length)

end Operands

mutual

def plan (c : Context) : Expr → Plan
  | .int v => .held c (.ok (.lit v))
  | .name id => .held c (c.resolve id)
  | .neg e => .computed c fun dest => do
    let (code, value) ← (plan c e).value
    return code ++ [c.ins (.binary .sub) [dest, .lit 0, value]]
  | .not e => .computed c fun dest => do
    let (code, value) ← (plan c e).value
    return code ++ [c.ins .not [dest, value]]
  | .arith op a b =>
    .computed c (arithInto c op ⟨plan c a, a.isEffectFree⟩ ⟨plan c b, b.isEffectFree⟩)
  | .compare op a b =>
    .computed c (compareInto c op ⟨plan c a, a.isEffectFree⟩ ⟨plan c b, b.isEffectFree⟩)
  | .connect op a b =>
    if a.isPlainFlag && b.isPlainFlag then
      .computed c (binaryInto c op.instruction ⟨plan c a, true⟩ ⟨plan c b, true⟩)
    else .computed c (shortCircuitInto c op (plan c a) (plan c b))
  | .call callee args => callPlan c callee (parts c args)

def parts (c : Context) : List Expr → List Part
  | [] => []
  | e :: es => ⟨plan c e, e.isEffectFree⟩ :: parts c es

end

def part (c : Context) (e : Expr) : Part :=
  ⟨plan c e, e.isEffectFree⟩

/-! ## Statements -/

/-- Stores the value of an expression in a slot that the expression may read. -/
def store (c : Context) (dest : Operand) (e : Expr) : Lowering Code := do
  if e.writesEarly then
    let t ← c.fresh
    return (← (plan c e).into t) ++ [c.copy dest t]
  (plan c e).into dest

/-- Jumps to a label if an instruction on two operands gives a value other than zero. -/
def jumpOn (c : Context) (op : BinaryOp) (a b : Expr) (l : UInt32) : Lowering Code := do
  let (code, x, y) ← readBoth c (part c a) (part c b)
  let t ← c.fresh
  return code ++ [c.ins (.binary op) [t, x, y], c.jumpIf t l]

/-- Jumps to a label if the value of an expression is zero. -/
def jumpOnZero (c : Context) (e : Expr) (l : UInt32) : Lowering Code := do
  let (code, value) ← (plan c e).value
  let t ← c.fresh
  return code ++ [c.ins .not [t, value], c.jumpIf t l]

/-- Jumps to a label unless a condition holds. -/
def jumpUnless (c : Context) (l : UInt32) : Expr → Lowering Code
  | .int v => return if v = 0 then [c.jump l] else []
  | .not e => do
    let (code, value) ← (plan c e).value
    return code ++ [c.jumpIf value l]
  | .compare .le a b => jumpOn c .gt a b l
  | .compare .ge a b => jumpOn c .lt a b l
  | .compare .ne a b => jumpOn c .eq a b l
  | .call callee [e] =>
    if callee = "int" then jumpUnless c l e else jumpOnZero c (.call callee [e]) l
  | e => jumpOnZero c e l

/-- Where the next round of a loop starts and where the loop ends. -/
structure LoopLabels where
  top : UInt32
  done : UInt32
  deriving DecidableEq, Repr, Inhabited

/-- Starts a statement: every temporary is free again. -/
def resetTemps : Lowering Unit :=
  modify fun counters => { counters with temps := 0 }

/-- The code of a statement without statements inside. -/
def exprCode (c : Context) : Expr → Lowering Code
  | .call "print" [e] => do
    let (code, value) ← (plan c e).value
    return code ++ [c.ins .output [value]]
  | .call "print" args => c.refuse (.printArity args.length)
  | e => return (← (plan c e).value).1

def returnCode (c : Context) (value : Option Expr) : Lowering Code := do
  if c.scope.isNone then misuse .returnOutside c.line
  match value with
  | none => return [c.ins .ret [.lit 0]]
  | some e =>
    let (code, value) ← (plan c e).value
    return code ++ [c.ins .ret [value]]

mutual

def stmtCode (m : ModuleScope) (scope : Option FuncScope) (loop : Option LoopLabels) :
    Stmt → Lowering Code
  | .assign target value line => do
    resetTemps
    let c : Context := ⟨m, scope, line⟩
    store c (← c.resolve target) value
  | .augment target op value line => do
    resetTemps
    let c : Context := ⟨m, scope, line⟩
    store c (← c.resolve target) (.arith op (.name target) value)
  | .expr value line => do
    resetTemps
    exprCode ⟨m, scope, line⟩ value
  | .ret value line => do
    resetTemps
    returnCode ⟨m, scope, line⟩ value
  | .cond test body otherwise line => do
    resetTemps
    let c : Context := ⟨m, scope, line⟩
    let toElse ← freshLabel
    let check ← jumpUnless c toElse test
    let taken ← blockCode m scope loop body
    if otherwise.isEmpty then return check ++ taken ++ [c.label toElse]
    let done ← freshLabel
    let skipped ← blockCode m scope loop otherwise
    return check ++ taken ++ [c.jump done, c.label toElse] ++ skipped ++ [c.label done]
  | .whileLoop test body line => do
    resetTemps
    let c : Context := ⟨m, scope, line⟩
    let top ← freshLabel
    let done ← freshLabel
    let check ← jumpUnless c done test
    let repeated ← blockCode m scope (some ⟨top, done⟩) body
    return [c.label top] ++ check ++ repeated ++ [c.jump top, c.label done]
  | .breakLoop line =>
    match loop with
    | some labels => return [Context.jump ⟨m, scope, line⟩ labels.done]
    | none => misuse .breakOutside line
  | .continueLoop line =>
    match loop with
    | some labels => return [Context.jump ⟨m, scope, line⟩ labels.top]
    | none => misuse .continueOutside line
  | .global _ _ | .pass _ | .funcDef .. => return []

def blockCode (m : ModuleScope) (scope : Option FuncScope) (loop : Option LoopLabels) :
    List Stmt → Lowering Code
  | [] => return []
  | s :: rest => do
    let first ← stmtCode m scope loop s
    return first ++ (← blockCode m scope loop rest)

end

/-! ## Programs -/

def bodyCode (m : ModuleScope) (scope : Option FuncScope) (body : List Stmt) : Except Error Code :=
  (blockCode m scope none body).run' {}

def lowerDef (m : ModuleScope) (d : Def) (scope : FuncScope) : Except Error Func := do
  let body ← bodyCode m (some scope) d.body
  return {
    index := d.index
    paramCount := UInt32.ofNat d.params.length
    localCount := slotCount Operand.varIndex? body
    body
    line := d.line }

def lower (body : List Stmt) : Except Error Program := do
  let defs ← collectDefs [] body
  let scopes ← defs.mapM Def.scope
  let m := ModuleScope.ofProgram defs body
  let funcs ← (defs.zip scopes).mapM fun (d, scope) => lowerDef m d scope
  let code ← bodyCode m none body
  let p : Program := { code, funcs }
  return { p with globalCount := slotCount Operand.globalIndex? p.allCode }

end SlotLang.Subset
