import SlotLang.Assembly.Module
import SlotLang.Program

/-!
# From programs to modules

Straight code becomes straight code. Code with labels is cut into segments, one before the first
label and one from each label on, and becomes a loop around nested blocks: the register selects how
many blocks to leave at once, and so the segment where the round starts; falling out of a segment
goes on with the next. A jump sets the register and starts the next round.
-/

namespace SlotLang.Assembly

/-- Why a program has no module. -/
inductive EmitCause where
  | argumentCount (index expected : UInt32) (found : Nat)
  | undefinedFunc (index : UInt32)
  | malformed (op : Opcode)
  | malformedCall
  | returnOutside
  /-- A block opcode inside a program. -/
  | misplaced (op : Opcode)
  | undefinedLabel (label : UInt32)
  deriving DecidableEq, Repr, Inhabited

/-- A cause and the line of the instruction. -/
structure EmitError where
  cause : EmitCause
  line : Nat
  deriving DecidableEq, Repr, Inhabited

/-- Whether a cause can only come from a program that no source builds. -/
def EmitCause.isInternal : EmitCause → Bool
  | argumentCount .. | undefinedFunc _ => false
  | _ => true

def EmitCause.message : EmitCause → String
  | argumentCount index expected found =>
    "function " ++ toString index.toNat ++ " expects " ++ toString expected.toNat ++
      " argument(s), got " ++ toString found
  | undefinedFunc index => "call to undefined function " ++ toString index.toNat
  | malformed op => "malformed '" ++ op.sigil ++ "' instruction"
  | malformedCall => "malformed call"
  | returnOutside => "'^' outside a function"
  | misplaced op => "unexpected '" ++ op.sigil ++ "' in a built program"
  | undefinedLabel label => "jump to undefined label " ++ toString label.toNat

def EmitError.message (e : EmitError) : String :=
  (if e.cause.isInternal then "internal codegen error: " else "") ++
    "line " ++ toString e.line ++ ": " ++ e.cause.message

/-- The code before the first label, and the code from each label up to the next. -/
def cutSegments (code : List Instruction) : List Instruction × List (List Instruction) :=
  code.foldr (fun i acc => if i.isLabel then ([], (i :: acc.1) :: acc.2) else (i :: acc.1, acc.2))
    ([], [])

/-- The segments of some code; there is always at least one. -/
def segments (code : List Instruction) : List (List Instruction) :=
  (cutSegments code).1 :: (cutSegments code).2

/-- The segment that each label starts, in order. -/
def segmentTable (code : List Instruction) : List (UInt32 × Nat) :=
  ((code.filter Instruction.isLabel).zipIdx 1).filterMap fun (i, k) => i.label?.map (·, k)

/-- What the code of a body may refer to. -/
structure BodyContext where
  program : Program
  inFunc : Bool
  table : List (UInt32 × Nat)

def readCode : Operand → Instr
  | .global n => .globalGet n
  | .var n => .get (.var n)
  | .arg n => .get (.arg n)
  | .lit v => .const v

/-- Pushes whether an operand is not zero. -/
def truthCode (o : Operand) : List Instr :=
  [readCode o, .const 0, .compare .ne]

def writeCode : Operand → Instr
  | .global n => .globalSet n
  | .var n => .set (.var n)
  | .arg n => .set (.arg n)
  | .lit _ => .drop

def binaryCode (op : BinaryOp) (a b : Operand) : List Instr :=
  let arith (op : Arith) := [readCode a, readCode b, .arith op]
  let compare (op : Comparison) := [readCode a, readCode b, .compare op, .widen]
  match op with
  | .add => arith .add
  | .sub => arith .sub
  | .mul => arith .mul
  | .div => arith .div
  | .rem => arith .rem
  | .lt => compare .lt
  | .gt => compare .gt
  | .eq => compare .eq
  | .and => truthCode a ++ truthCode b ++ [.both, .widen]
  | .or => truthCode a ++ truthCode b ++ [.either, .widen]

/-- Starts a new round of the dispatch loop at the segment of a label. A jump without a label counts
as a jump to label zero. -/
def jumpCode (c : BodyContext) (i : Instruction) : Except EmitError (List Instr) :=
  let label := i.label?.getD 0
  match c.table.lookup label with
  | some k => .ok [.index k, .set .pc, .br .dispatch]
  | none => .error ⟨.undefinedLabel label, i.line⟩

def callCode (c : BodyContext) (i : Instruction) (dest : Operand) : Except EmitError (List Instr) :=
  match i.callTarget? with
  | none => .error ⟨.malformedCall, i.line⟩
  | some (index, args) =>
    match c.program.func? index with
    | none => .error ⟨.undefinedFunc index, i.line⟩
    | some callee =>
      if callee.paramCount.toNat ≠ args.length then
        .error ⟨.argumentCount index callee.paramCount args.length, i.line⟩
      else .ok (args.map readCode ++ [.call index, writeCode dest])

def instructionCode (c : BodyContext) (i : Instruction) : Except EmitError (List Instr) :=
  match i.opcode, i.operands with
  | .assign, dest :: a :: _ => .ok [readCode a, writeCode dest]
  | .binary op, dest :: a :: b :: _ => .ok (binaryCode op a b ++ [writeCode dest])
  | .not, dest :: a :: _ => .ok [readCode a, .isZero, .widen, writeCode dest]
  | .label, _ :: _ => .ok (i.label?.toList.map .note)
  | .jump, _ :: _ => jumpCode c i
  | .jumpIf, a :: _ :: _ => do return truthCode a ++ [.ifThen (← jumpCode c i)]
  | .call, dest :: _ :: _ => callCode c i dest
  | .ret, a :: _ =>
    if c.inFunc then .ok [readCode a, .ret] else .error ⟨.returnOutside, i.line⟩
  | .output, a :: _ => .ok [readCode a, .print]
  | .defineFunc, _ => .error ⟨.misplaced .defineFunc, i.line⟩
  | .blockClose, _ => .error ⟨.misplaced .blockClose, i.line⟩
  | op, _ => .error ⟨.malformed op, i.line⟩

def sequenceCode (c : BodyContext) (code : List Instruction) : Except EmitError (List Instr) := do
  return (← code.mapM (instructionCode c)).flatten

/-- The innermost block, which leaves as many blocks as the register says. -/
def selector (count : Nat) : List Instr :=
  [.get .pc, .brTable ((List.range count).map .segment) (.segment 0)]

/-- Puts blocks around some code: the block of segment `k` holds what comes before that segment. -/
def nestSegments : Nat → List Instr → List (List Instr) → List Instr
  | _, inner, [] => inner
  | k, inner, segment :: rest => nestSegments (k + 1) (.block (.segment k) inner :: segment) rest

def dispatchLoop (segments : List (List Instr)) : List Instr :=
  [.loop .dispatch (nestSegments 0 (selector segments.length) segments)]

def bodyCode (p : Program) (inFunc : Bool) (code : List Instruction) :
    Except EmitError (List Instr) := do
  if hasControl code then
    let c : BodyContext := { program := p, inFunc, table := segmentTable code }
    return dispatchLoop (← (segments code).mapM (sequenceCode c))
  else sequenceCode { program := p, inFunc, table := [] } code

/-- The definition of a function, which returns zero at its end. -/
def funcDef (p : Program) (f : Func) : Except EmitError FuncDef := do
  let body ← bodyCode p true f.body
  return { index := f.index, paramCount := f.paramCount, localCount := f.localCount,
           hasPc := f.hasControl, body := body ++ [.const 0] }

def Module.ofProgram (p : Program) : Except EmitError Module := do
  let funcs ← p.funcs.mapM (funcDef p)
  let body ← bodyCode p false p.code
  return { globalCount := p.globalCount, funcs,
           entry := some { hasPc := hasControl p.code, body } }

end SlotLang.Assembly
