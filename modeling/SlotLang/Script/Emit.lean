import SlotLang.Program
import SlotLang.Script.Tree
import SlotLang.SlotMap

/-!
# From programs to scripts

Each instruction becomes one statement. Code with labels becomes a loop over its segments: in each
round the segments whose number is `_pc` run, a segment hands over to the next by raising `_pc`, and
a jump sets `_pc` and starts the next round. Instructions that cannot run become statements that
raise an error, so every program has a script.
-/

namespace SlotLang.Script

/-- Where segments start: at zero and at every label. The end of the code comes last. -/
def segmentBounds (code : List Instruction) : List Nat :=
  let labels := code.zipIdx.filterMap fun (i, position) => if i.isLabel then some position else none
  0 :: (labels ++ [code.length])

def slice (code : List Instruction) (start stop : Nat) : List Instruction :=
  (code.drop start).take (stop - start)

def segments (code : List Instruction) : List (List Instruction) :=
  let bounds := segmentBounds code
  List.zipWith (slice code) bounds bounds.tail

/-- The labels so far with their segments, and the number of labels so far. -/
structure LabelScan where
  found : Array (UInt32 × Nat) := #[]
  count : Nat := 0

/-- Takes in one instruction; a label that is known keeps its segment. -/
def LabelScan.step (s : LabelScan) (i : Instruction) : LabelScan :=
  if i.isLabel then
    let count := s.count + 1
    match i.label? with
    | some label =>
      if s.found.any fun entry => entry.1 == label then { s with count }
      else { found := s.found.push (label, count), count }
    | none => { s with count }
  else s

def segmentOfLabel (code : List Instruction) : List (UInt32 × Nat) :=
  (code.foldl LabelScan.step {}).found.toList

def Term.ofBinary (op : BinaryOp) (a b : Operand) : Term :=
  match op with
  | .add => wrapped '+' a b
  | .sub => wrapped '-' a b
  | .mul => wrapped '*' a b
  | .div => quotient a b
  | .rem => remainder a b
  | .lt => comparison "<" a b
  | .gt => comparison ">" a b
  | .eq => comparison "==" a b
  | .and => both a b
  | .or => either a b

/-- The statements of a jump. A jump without a label counts as a jump to label zero. -/
def jumpStmts (table : List (UInt32 × Nat)) (i : Instruction) : List Stmt :=
  let label := i.label?.getD 0
  match table.lookup label with
  | some k => [.setPc k, .again]
  | none => [.raise ("jump to undefined label " ++ toString label.toNat)]

def instructionStmts (table : List (UInt32 × Nat)) (inFunc : Bool) (i : Instruction) : List Stmt :=
  match i.opcode, i.operands with
  | .assign, dest :: a :: _ => [.assign dest (.operand a)]
  | .binary op, dest :: a :: b :: _ => [.assign dest (.ofBinary op a b)]
  | .not, dest :: a :: _ => [.assign dest (.negation a)]
  | .label, _ :: _ => i.label?.toList.map .note
  | .jump, _ :: _ => jumpStmts table i
  | .jumpIf, a :: _ :: _ => [.whenNonzero a (jumpStmts table i)]
  | .call, dest :: _ :: _ =>
    i.callTarget?.toList.map fun (index, args) => .assign dest (.call index args)
  | .ret, a :: _ => if inFunc then [.ret a] else [.raise "'^' outside a function"]
  | .output, a :: _ => [.print a]
  | .defineFunc, _ | .blockClose, _ => []
  | op, _ => [.raise ("line " ++ toString i.line ++ ": malformed '" ++ op.sigil ++ "' instruction")]

/-- The statements of some code without control flow of its own. -/
def sequenceStmts (table : List (UInt32 × Nat)) (inFunc : Bool) (code : List Instruction) :
    List Stmt :=
  code.flatMap (instructionStmts table inFunc)

/-- The branches of the loop: segment `k` of `count` goes on with the next one, and the last one
leaves the loop. -/
def branches (count : Nat) (segments : List (List Stmt)) : List Stmt :=
  segments.zipIdx.map fun (body, k) =>
    .whenPc k (body ++ [if k + 1 < count then .setPc (k + 1) else .leave])

def bodyStmts (inFunc : Bool) (code : List Instruction) : List Stmt :=
  if hasControl code then
    let parts := (segments code).map (sequenceStmts (segmentOfLabel code) inFunc)
    [.setPc 0, .forever (branches parts.length parts)]
  else sequenceStmts [] inFunc code

def writtenGlobal? (i : Instruction) : Option UInt32 :=
  i.dest?.bind Operand.globalIndex?

def writtenGlobals (code : List Instruction) : List UInt32 :=
  let written : SlotMap Unit :=
    (code.filterMap writtenGlobal?).foldl (fun found n => found.insert n ()) .empty
  written.toList.map Prod.fst

def Def.ofFunc (f : Func) : Def where
  index := f.index
  paramCount := f.paramCount
  globals := writtenGlobals f.body
  localCount := f.localCount
  body := bodyStmts true f.body

def ofProgram (p : Program) : Script where
  defs := p.funcs.map Def.ofFunc
  body := bodyStmts false p.code
  hasBody := !p.code.isEmpty

end SlotLang.Script
