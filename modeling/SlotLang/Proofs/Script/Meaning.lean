import SlotLang.Script.Text

/-!
# What a script means

Scripts are read as Python: integers of any size, helper functions with the bodies that the text
gives them, `and` and `or` that look at their second operand only if they have to, and names that are
local to a function if the function assigns them without declaring them global. There is no limit on
recursion. Execution goes by small steps over an explicit stack of frames. A frame holds the
statements still to run in the innermost loop and, for each enclosing loop, its body and what
follows it; a branch just puts its statements in front.
-/

namespace SlotLang.Script

/-- The exceptions that a script can raise. -/
inductive Exception where
  | zeroDivision
  | overflow
  /-- A name without a value. -/
  | name (n : String)
  /-- A call with a wrong number of arguments. -/
  | type
  | runtime (message : String)
  deriving DecidableEq, Repr, Inhabited

/-! ## Helper functions -/

/-- `_wrap`: the low 64 bits of an integer, read as a signed integer. -/
def wrap (x : Int) : Int :=
  let x := x % 0x10000000000000000
  if x ≥ 0x8000000000000000 then x - 0x10000000000000000 else x

/-- `_div`: the quotient, rounded toward zero. -/
def divide (a b : Int) : Except Exception Int :=
  if b = 0 then .error .zeroDivision
  else
    let q : Int := a.natAbs / b.natAbs
    let q := if a < 0 ↔ b < 0 then q else -q
    if q > 0x7FFFFFFFFFFFFFFF then .error .overflow else .ok q

/-- `_rem`: the remainder, with the sign of the dividend. -/
def rest (a b : Int) : Except Exception Int :=
  if b = 0 then .error .zeroDivision
  else
    let r : Int := a.natAbs % b.natAbs
    .ok (if a < 0 then -r else r)

/-! ## Variables -/

/-- The values of some variables. -/
abbrev Variables := String → Option Int

/-- Gives a variable a value. -/
def Variables.set (vars : Variables) (name : String) (v : Int) : Variables :=
  fun n => if n = name then some v else vars n

/-- The variable that steers a body with labels. -/
def pcName : String := "_pc"

/-- Running statements. -/
structure Frame where
  locals : Variables := fun _ => none
  isLocal : String → Bool := fun _ => false
  code : List Stmt := []
  /-- The bodies of the enclosing loops and what follows them, the innermost first. -/
  loops : List (List Stmt × List Stmt) := []

/-- A script in progress. -/
structure State where
  globals : Variables := fun _ => none
  frame : Frame
  /-- The frames that wait for a result with the slots that it goes to, the nearest caller first. -/
  callers : List (Operand × Frame) := []
  output : List Int := []

namespace State

/-- The value of a name. -/
def lookup (s : State) (name : String) : Except Exception Int :=
  match if s.frame.isLocal name then s.frame.locals name else s.globals name with
  | some v => .ok v
  | none => .error (.name name)

def assign (s : State) (name : String) (v : Int) : State :=
  if s.frame.isLocal name then
    { s with frame := { s.frame with locals := s.frame.locals.set name v } }
  else { s with globals := s.globals.set name v }

/-- The value of an operand. -/
def operand (s : State) : Operand → Except Exception Int
  | .lit v => .ok v.toInt
  | o => s.lookup o.text

end State

/-- A sum, difference or product. -/
def combine (sign : Char) (x y : Int) : Int :=
  if sign = '+' then x + y else if sign = '-' then x - y else x * y

def compare (sign : String) (x y : Int) : Bool :=
  if sign = "<" then x < y else if sign = ">" then x > y else x = y

/-- A truth value turned into an integer. -/
def ofBool (b : Bool) : Int :=
  if b then 1 else 0

/-- The value of a term. Calls are statements of their own. -/
def State.term (s : State) : Term → Except Exception Int
  | .operand o => s.operand o
  | .wrapped sign a b => do return wrap (combine sign (← s.operand a) (← s.operand b))
  | .quotient a b => do divide (← s.operand a) (← s.operand b)
  | .remainder a b => do rest (← s.operand a) (← s.operand b)
  | .comparison sign a b => do return ofBool (compare sign (← s.operand a) (← s.operand b))
  | .both a b => do
    if (← s.operand a) ≠ 0 then return ofBool ((← s.operand b) ≠ 0) else return 0
  | .either a b => do
    if (← s.operand a) ≠ 0 then return 1 else return ofBool ((← s.operand b) ≠ 0)
  | .negation a => do return ofBool ((← s.operand a) = 0)
  | .call _ _ => .error .type

/-! ## Functions -/

mutual

def Stmt.assigned : Stmt → List String
  | .assign dest _ => [dest.text]
  | .setPc _ => [pcName]
  | .whenNonzero _ body | .whenPc _ body | .forever body => assignedIn body
  | .print _ | .ret _ | .raise _ | .note _ | .again | .leave => []

def assignedIn : List Stmt → List String
  | [] => []
  | s :: rest => s.assigned ++ assignedIn rest

end

namespace Def

/-- The statements of a function: locals are set to zero first, and zero is returned at the end. -/
def stmts (d : Def) : List Stmt :=
  (List.range d.localCount.toNat).map (fun n => .assign (.var (.ofNat n)) (.operand (.lit 0))) ++
    (d.body ++ [.ret (.lit 0)])

/-- The names of the parameters. -/
def params (d : Def) : List String :=
  slotNames "a" d.paramCount

/-- Whether a name is local: a parameter or assigned, and not declared global. -/
def isLocal (d : Def) (name : String) : Bool :=
  (d.params ++ assignedIn d.stmts).contains name &&
    !(d.globals.map fun n => (Operand.global n).text).contains name

/-- The frame of a call. -/
def frame (d : Def) (args : List Int) : Frame where
  locals := fun name => (d.params.zip args).lookup name
  isLocal := d.isLocal
  code := d.stmts

end Def

/-- The function with an index. -/
def def? (script : Script) (index : UInt32) : Option Def :=
  script.defs.find? fun d => d.index == index

/-! ## Steps -/

/-- Where a script stands after a step. -/
inductive Progress where
  | running (s : State)
  | finished (s : State)
  | raised (e : Exception) (s : State)
  /-- No statement of a complete script does this. -/
  | stuck

namespace State

/-- Goes on with other statements. -/
def goOn (s : State) (code : List Stmt) : State :=
  { s with frame := { s.frame with code } }

/-- Goes on with a value, or raises the exception instead. -/
def withValue (s : State) (v : Except Exception Int) (next : Int → Progress) : Progress :=
  match v with
  | .ok v => next v
  | .error e => .raised e s

/-- Calls a function whose result goes to a slot. -/
def call (script : Script) (s : State) (dest : Operand) (f : UInt32) (args : List Operand)
    (rest : List Stmt) : Progress :=
  match script.def? f with
  | none => .raised (.name ("f" ++ toString f.toNat)) s
  | some d =>
    match args.mapM s.operand with
    | .error e => .raised e s
    | .ok vs =>
      if vs.length ≠ d.paramCount.toNat then .raised .type s
      else .running { s with frame := d.frame vs, callers := (dest, (s.goOn rest).frame) :: s.callers }

/-- Returns a value to the caller. -/
def ret (s : State) (v : Int) : Progress :=
  match s.callers with
  | [] => .stuck
  | (dest, caller) :: callers =>
    .running (({ s with frame := caller, callers } : State).assign dest.text v)

/-- Runs a statement that is followed by `rest`. -/
def exec (script : Script) (s : State) (stmt : Stmt) (rest : List Stmt) : Progress :=
  match stmt with
  | .assign dest (.call f args) => s.call script dest f args rest
  | .assign dest t => s.withValue (s.term t) fun v => .running ((s.assign dest.text v).goOn rest)
  | .print o => s.withValue (s.operand o) fun v =>
      .running { s.goOn rest with output := s.output ++ [v] }
  | .ret o => s.withValue (s.operand o) s.ret
  | .raise message => .raised (.runtime message) s
  | .note _ => .running (s.goOn rest)
  | .whenNonzero o body => s.withValue (s.operand o) fun v =>
      .running (s.goOn (if v ≠ 0 then body ++ rest else rest))
  | .setPc k => .running ((s.assign pcName k).goOn rest)
  | .again =>
    match s.frame.loops with
    | (body, _) :: _ => .running (s.goOn body)
    | [] => .stuck
  | .leave =>
    match s.frame.loops with
    | (_, after) :: loops => .running { s with frame := { s.frame with code := after, loops } }
    | [] => .stuck
  | .whenPc k body => s.withValue (s.lookup pcName) fun v =>
      .running (s.goOn (if v = k then body ++ rest else rest))
  | .forever body =>
    .running { s with frame := { s.frame with code := body, loops := (body, rest) :: s.frame.loops } }

/-- One step: a statement, the next round of a loop, or the end of the script. -/
def step (script : Script) (s : State) : Progress :=
  match s.frame.code, s.frame.loops, s.callers with
  | stmt :: rest, _, _ => s.exec script stmt rest
  | [], (body, _) :: _, _ => .running (s.goOn body)
  | [], [], [] => .finished s
  | [], [], _ :: _ => .stuck

end State

/-- How an execution ended. -/
inductive Outcome where
  | finished
  | raised (e : Exception)
  | stuck
  /-- The given number of steps was not enough. -/
  | outOfFuel
  deriving DecidableEq, Repr, Inhabited

/-- Runs at most `fuel` steps. -/
def State.run (script : Script) : Nat → State → Outcome × State
  | 0, s => (.outOfFuel, s)
  | fuel + 1, s =>
    match s.step script with
    | .running s => s.run script fuel
    | .finished s => (.finished, s)
    | .raised e s => (.raised e, s)
    | .stuck => (.stuck, s)

/-- A script about to run. -/
def start (script : Script) : State where
  frame := { code := script.body }

end SlotLang.Script
