import SlotLang.Assembly.Module

/-!
# Validation of modules

A module is valid if every name it uses is declared, no function is declared twice, every 32-bit
constant fits, and every instruction finds operands of its types on the stack. After an instruction
that never falls through, the stack is of any shape until the end of the enclosing block.
-/

namespace SlotLang.Assembly

/-- The types of values on the stack. -/
inductive ValueType where
  | i32
  | i64
  deriving DecidableEq, Repr, Inhabited

/-- The known top of the stack. -/
structure StackType where
  known : List ValueType := []
  /-- Whether anything may lie below, because the place is never reached. -/
  unreachable : Bool := false
  deriving DecidableEq, Repr, Inhabited

namespace StackType

def push (t : ValueType) (s : StackType) : StackType :=
  { s with known := t :: s.known }

/-- The stack without its top value, if that can be of the type. -/
def pop (t : ValueType) (s : StackType) : Option StackType :=
  match s.known with
  | top :: rest => if top = t then some { s with known := rest } else none
  | [] => if s.unreachable then some s else none

/-- The stack without a value of any type. -/
def popAny (s : StackType) : Option StackType :=
  match s.known with
  | _ :: rest => some { s with known := rest }
  | [] => if s.unreachable then some s else none

def popMany (t : ValueType) : Nat → StackType → Option StackType
  | 0, s => some s
  | n + 1, s => (s.pop t).bind (popMany t n)

/-- The stack after an instruction that never falls through. -/
def never : StackType :=
  { unreachable := true }

def isDone (s : StackType) : Bool :=
  s.known.isEmpty

end StackType

/-- What the code of a body may refer to. -/
structure Declared where
  globalCount : Nat := 0
  funcs : List (UInt32 × UInt32) := []
  varCount : Nat := 0
  argCount : Nat := 0
  hasPc : Bool := false
  hasResult : Bool := false
  marks : List Mark := []
  deriving DecidableEq, Repr, Inhabited

namespace Declared

def registerType? (d : Declared) : Register → Option ValueType
  | .var n => if n.toNat < d.varCount then some .i64 else none
  | .arg n => if n.toNat < d.argCount then some .i64 else none
  | .pc => if d.hasPc then some .i32 else none

def inside (d : Declared) (m : Mark) : Declared :=
  { d with marks := m :: d.marks }

end Declared

mutual

/-- The stack after an instruction, if the instruction is valid there. -/
def Instr.check (d : Declared) (s : StackType) : Instr → Option StackType
  | .const _ => some (s.push .i64)
  | .index k => if k < 0x100000000 then some (s.push .i32) else none
  | .get r => (d.registerType? r).map s.push
  | .set r => (d.registerType? r).bind s.pop
  | .globalGet n => if n.toNat < d.globalCount then some (s.push .i64) else none
  | .globalSet n => if n.toNat < d.globalCount then s.pop .i64 else none
  | .drop => s.popAny
  | .arith _ => do return (← (← s.pop .i64).pop .i64).push .i64
  | .compare _ => do return (← (← s.pop .i64).pop .i64).push .i32
  | .isZero => do return (← s.pop .i64).push .i32
  | .widen => do return (← s.pop .i32).push .i64
  | .both | .either => do return (← (← s.pop .i32).pop .i32).push .i32
  | .call f => do
    let paramCount ← d.funcs.lookup f
    return (← s.popMany .i64 paramCount.toNat).push .i64
  | .print => s.pop .i64
  | .ret => if d.hasResult then (s.pop .i64).map fun _ => .never else some .never
  | .br m => if d.marks.contains m then some .never else none
  | .brTable ms otherwise =>
    if (otherwise :: ms).all d.marks.contains then (s.pop .i32).map fun _ => .never else none
  | .block m body | .loop m body =>
    match checkCode (d.inside m) {} body with
    | some inner => if inner.isDone then some s else none
    | none => none
  | .ifThen body =>
    match checkCode d {} body with
    | some inner => if inner.isDone then s.pop .i32 else none
    | none => none
  | .note _ => some s

def checkCode (d : Declared) (s : StackType) : List Instr → Option StackType
  | [] => some s
  | i :: rest =>
    match i.check d s with
    | some s => checkCode d s rest
    | none => none

end

namespace Module

def declared (m : Module) : Declared where
  globalCount := m.globalCount.toNat
  funcs := m.funcs.map fun f => (f.index, f.paramCount)

def funcIsValid (m : Module) (f : FuncDef) : Bool :=
  let d := { m.declared with
    varCount := f.localCount.toNat, argCount := f.paramCount.toNat, hasPc := f.hasPc,
    hasResult := true }
  match (checkCode d {} f.body).bind (·.pop .i64) with
  | some s => s.isDone
  | none => false

def entryIsValid (m : Module) (e : MainDef) : Bool :=
  match checkCode { m.declared with hasPc := e.hasPc } {} e.body with
  | some s => s.isDone
  | none => false

def isValid (m : Module) : Bool :=
  decide ((m.funcs.map FuncDef.index).Nodup) && m.funcs.all m.funcIsValid &&
    m.entry.toList.all m.entryIsValid

/-- The sizes that engines accept: parameters, registers of a function, and globals. -/
def isWithinLimits (m : Module) : Bool :=
  m.globalCount.toNat ≤ 1000000 && m.funcs.all fun f =>
    f.paramCount.toNat ≤ 1000 &&
      f.paramCount.toNat + f.localCount.toNat + (if f.hasPc then 1 else 0) ≤ 50000

end Module

end SlotLang.Assembly
