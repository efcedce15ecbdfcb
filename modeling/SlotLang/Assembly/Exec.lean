import SlotLang.Assembly.Module
import SlotLang.Program

/-!
# Running modules

Execution goes by small steps over an explicit stack of frames, so that a step is a function on
plain data. A frame holds the code still to run in the innermost block and, for each enclosing
block, what runs after a branch to it and what runs after its end. `State.step` answers with the next
state, a result, a trap, or that the code is stuck, which valid code never is.
-/

namespace SlotLang.Assembly

/-- A value on the stack. -/
inductive Cell where
  | i64 (v : Value)
  | i32 (n : UInt32)
  deriving DecidableEq, Repr, Inhabited

/-- Why an execution stops early. -/
inductive Trap where
  | divideByZero
  | overflow
  | stackExhausted
  deriving DecidableEq, Repr, Inhabited

def Trap.message : Trap → String
  | divideByZero => "integer divide by zero"
  | overflow => "integer overflow"
  | stackExhausted => "call stack exhausted"

/-- Arithmetic: sums, differences and products wrap, division truncates. -/
def Arith.apply (op : Arith) (a b : Value) : Except Trap Value :=
  match op with
  | add => .ok (a + b)
  | sub => .ok (a - b)
  | mul => .ok (a * b)
  | div =>
    if b = 0 then .error .divideByZero
    else if a = Int64.minValue ∧ b = -1 then .error .overflow
    else .ok (a / b)
  | rem => if b = 0 then .error .divideByZero else .ok (a % b)

def Comparison.holds (op : Comparison) (a b : Value) : Bool :=
  match op with
  | lt => a < b
  | gt => a > b
  | eq => a = b
  | ne => a ≠ b

def Cell.ofBool (b : Bool) : Cell :=
  .i32 (if b then 1 else 0)

/-- An enclosing block. -/
structure Control where
  /-- The name to branch to; the branches of a condition have none. -/
  mark : Option Mark
  /-- What runs after a branch. -/
  onBranch : List Instr
  /-- What runs after the end. -/
  onEnd : List Instr
  /-- The height of the stack at the start. -/
  height : Nat
  deriving Inhabited

/-- A running function. -/
structure Frame where
  vars : Array Value := #[]
  args : Array Value := #[]
  /-- The dispatch register. -/
  pc : UInt32 := 0
  stack : List Cell := []
  code : List Instr := []
  controls : List Control := []
  hasResult : Bool := false
  deriving Inhabited

namespace Frame

def ofFunc (f : FuncDef) (args : List Value) : Frame where
  vars := Array.replicate f.localCount.toNat 0
  args := args.toArray
  code := f.body
  hasResult := true

def ofMain (d : MainDef) : Frame where
  code := d.body

def get? (f : Frame) : Register → Option Cell
  | .var n => f.vars[n.toNat]?.map .i64
  | .arg n => f.args[n.toNat]?.map .i64
  | .pc => some (.i32 f.pc)

def set? (f : Frame) : Register → Cell → Option Frame
  | .var n, .i64 v =>
    if n.toNat < f.vars.size then some { f with vars := f.vars.setIfInBounds n.toNat v } else none
  | .arg n, .i64 v =>
    if n.toNat < f.args.size then some { f with args := f.args.setIfInBounds n.toNat v } else none
  | .pc, .i32 n => some { f with pc := n }
  | _, _ => none

def resume (f : Frame) (code : List Instr) (stack : List Cell) : Frame :=
  { f with code, stack }

def enter (f : Frame) (mark : Option Mark) (body onBranch onEnd : List Instr)
    (stack : List Cell) : Frame :=
  { f with
    code := body
    stack := stack
    controls := { mark, onBranch, onEnd, height := stack.length } :: f.controls }

def findMark (m : Mark) : List Control → Option (Control × List Control)
  | [] => none
  | c :: rest => if c.mark = some m then some (c, rest) else findMark m rest

/-- Branches to a mark: the stack falls back to its height at the start of the block. -/
def branch? (f : Frame) (m : Mark) (stack : List Cell) : Option Frame :=
  (findMark m f.controls).map fun (c, rest) =>
    { f with
      code := c.onBranch
      controls := rest
      stack := stack.drop (stack.length - c.height) }

end Frame

/-- The globals and the output of a module in use. -/
structure Store where
  globals : Array Value := #[]
  output : Array Value := #[]
  deriving DecidableEq, Repr, Inhabited

/-- An execution in progress. -/
structure State where
  store : Store
  frame : Frame
  /-- The frames that wait for a result, the nearest caller first. -/
  callers : List Frame := []
  deriving Inhabited

/-- Where an execution stands after a step. -/
inductive Progress where
  | running (s : State)
  | finished (result : Option Value) (store : Store)
  | trapped (t : Trap) (store : Store)
  | stuck

namespace State

def withFrame (s : State) (f : Frame) : State :=
  { s with frame := f }

def proceed (s : State) (rest : List Instr) (stack : List Cell) : Progress :=
  .running (s.withFrame (s.frame.resume rest stack))

def proceedWith (s : State) : Option Frame → Progress
  | some f => .running (s.withFrame f)
  | none => .stuck

def leave (s : State) (result : Option Value) : Progress :=
  match s.callers with
  | [] => .finished result s.store
  | caller :: rest =>
    let stack := (result.toList.map Cell.i64) ++ caller.stack
    .running { s with frame := { caller with stack }, callers := rest }

/-- Returns with the value on top of the stack, if the function has a result. -/
def ret (s : State) : Progress :=
  if s.frame.hasResult then
    match s.frame.stack with
    | .i64 v :: _ => s.leave (some v)
    | _ => .stuck
  else s.leave none

/-- The 64-bit integers among some values, if all are. -/
def integers? (cells : List Cell) : Option (List Value) :=
  cells.mapM fun
    | .i64 v => some v
    | .i32 _ => none

def call (m : Module) (s : State) (index : UInt32) (rest : List Instr) : Progress :=
  match m.func? index with
  | none => .stuck
  | some f =>
    let count := f.paramCount.toNat
    match integers? (s.frame.stack.take count).reverse with
    | none => .stuck
    | some args =>
      if args.length ≠ count then .stuck
      else if maxCallFrames ≤ s.callers.length + 1 then .trapped .stackExhausted s.store
      else
        let caller := s.frame.resume rest (s.frame.stack.drop count)
        .running { s with frame := Frame.ofFunc f args, callers := caller :: s.callers }

/-- Runs an instruction that is followed by `rest`. -/
def exec (m : Module) (s : State) (i : Instr) (rest : List Instr) : Progress :=
  let f := s.frame
  match i, f.stack with
  | .const v, stack => s.proceed rest (.i64 v :: stack)
  | .index k, stack => s.proceed rest (.i32 (UInt32.ofNat k) :: stack)
  | .get r, stack => s.proceedWith ((f.get? r).map fun c => f.resume rest (c :: stack))
  | .set r, c :: stack => s.proceedWith ((f.set? r c).map fun f => f.resume rest stack)
  | .globalGet n, stack =>
    s.proceedWith (s.store.globals[n.toNat]?.map fun v => f.resume rest (.i64 v :: stack))
  | .globalSet n, .i64 v :: stack =>
    if n.toNat < s.store.globals.size then
      let globals := s.store.globals.setIfInBounds n.toNat v
      .running { s with store := { s.store with globals }, frame := f.resume rest stack }
    else .stuck
  | .drop, _ :: stack => s.proceed rest stack
  | .arith op, .i64 b :: .i64 a :: stack =>
    match op.apply a b with
    | .ok v => s.proceed rest (.i64 v :: stack)
    | .error t => .trapped t s.store
  | .compare op, .i64 b :: .i64 a :: stack => s.proceed rest (.ofBool (op.holds a b) :: stack)
  | .isZero, .i64 a :: stack => s.proceed rest (.ofBool (a = 0) :: stack)
  | .widen, .i32 n :: stack => s.proceed rest (.i64 (Value.ofIndex n) :: stack)
  | .both, .i32 b :: .i32 a :: stack => s.proceed rest (.i32 (a &&& b) :: stack)
  | .either, .i32 b :: .i32 a :: stack => s.proceed rest (.i32 (a ||| b) :: stack)
  | .call index, _ => s.call m index rest
  | .print, .i64 v :: stack =>
    let store := { s.store with output := s.store.output.push v }
    .running { s with store, frame := f.resume rest stack }
  | .ret, _ => s.ret
  | .br mark, stack => s.proceedWith (f.branch? mark stack)
  | .brTable marks otherwise, .i32 n :: stack =>
    s.proceedWith (f.branch? (marks[n.toNat]?.getD otherwise) stack)
  | .block mark body, stack => .running (s.withFrame (f.enter (some mark) body rest rest stack))
  | .loop mark body, stack =>
    .running (s.withFrame (f.enter (some mark) body (.loop mark body :: rest) rest stack))
  | .ifThen body, .i32 n :: stack =>
    if n ≠ 0 then .running (s.withFrame (f.enter none body rest rest stack))
    else s.proceed rest stack
  | .note _, stack => s.proceed rest stack
  | _, _ => .stuck

/-- One step: an instruction, the end of a block, or the end of a function. -/
def step (m : Module) (s : State) : Progress :=
  match s.frame.code, s.frame.controls with
  | i :: rest, _ => s.exec m i rest
  | [], c :: controls => .running (s.withFrame { s.frame with code := c.onEnd, controls })
  | [], [] => s.ret

end State

/-- How an execution ended. -/
inductive Outcome where
  | finished (result : Option Value)
  | trapped (t : Trap)
  | stuck
  /-- The given number of steps was not enough. -/
  | outOfFuel
  deriving DecidableEq, Repr, Inhabited

/-- Runs at most `fuel` steps. -/
def State.run (m : Module) : Nat → State → Outcome × Store
  | 0, s => (.outOfFuel, s.store)
  | fuel + 1, s =>
    match s.step m with
    | .running s => s.run m fuel
    | .finished result store => (.finished result, store)
    | .trapped t store => (.trapped t, store)
    | .stuck => (.stuck, s.store)

end SlotLang.Assembly
