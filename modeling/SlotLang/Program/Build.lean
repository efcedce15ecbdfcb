import SlotLang.Block
import SlotLang.Line
import SlotLang.Program
import SlotLang.Report

/-!
# Building a program from source

Lines are checked one by one and gathered into a `Draft`: closed functions, module code, and the
function that is still open. Afterwards the whole unit is checked: what stands at module level, the
labels of each scope, and the calls. A program comes out only if nothing at all was found.

A unit may be read in the context of functions defined earlier. It may call and redefine those, and
numbers its own functions densely after them.
-/

namespace SlotLang

/-- Where labels are looked up. -/
inductive Scope where
  | ofFunc (index : UInt32)
  | ofModule
  deriving DecidableEq, Repr, Inhabited

def Scope.text : Scope → String
  | ofFunc index => "function " ++ toString index.toNat
  | ofModule => "module scope"

/-- What can be wrong with a unit. -/
inductive Problem where
  | ofLine (fault : LineFault)
  | unclosed (index : UInt32)
  | unmatchedClose
  | nested
  | outOfOrder (index expected : UInt32)
  | undefinedFunc (index : UInt32)
  | argumentOutOfRange (arg index paramCount : UInt32)
  | slotOutside (slot : Operand)
  | returnOutside
  | undefinedLabel (label : UInt32) (scope : Scope)
  | duplicateLabel (label : UInt32) (previous : Nat) (scope : Scope)
  | duplicateFunc (index : UInt32)
  deriving DecidableEq, Repr, Inhabited

namespace Problem

def code : Problem → Nat
  | ofLine fault => fault.code
  | unclosed _ => 200
  | unmatchedClose => 201
  | nested => 202
  | outOfOrder .. => 203
  | undefinedFunc _ => 204
  | argumentOutOfRange .. => 205
  | slotOutside _ => 206
  | returnOutside => 207
  | undefinedLabel .. => 208
  | duplicateLabel .. => 209
  | duplicateFunc _ => 210

def message : Problem → String
  | ofLine fault => fault.message
  | unclosed index => "Function " ++ toString index.toNat ++ " is never closed with '\x7d'"
  | unmatchedClose => "'\x7d' without a matching function definition"
  | nested => "Function definitions cannot be nested"
  | outOfOrder index expected =>
    "Function index " ++ toString index.toNat ++ " is out of order, expected " ++
      toString expected.toNat
  | undefinedFunc index => "Call to undefined function " ++ toString index.toNat
  | argumentOutOfRange arg index paramCount =>
    "Argument a" ++ toString arg.toNat ++ " is out of range: function " ++ toString index.toNat ++
      " takes " ++ toString paramCount.toNat ++ " parameter(s)"
  | slotOutside slot => "Slot '" ++ slot.text ++ "' is only available inside a function"
  | returnOutside => "'^' is only allowed inside a function"
  | undefinedLabel label scope =>
    "Jump to undefined label " ++ toString label.toNat ++ " in " ++ scope.text
  | duplicateLabel label previous scope =>
    "Label " ++ toString label.toNat ++ " is already defined on line " ++ toString previous ++
      " in " ++ scope.text
  | duplicateFunc index => "Function " ++ toString index.toNat ++ " is defined more than once"

def suggestion? : Problem → Option String
  | outOfOrder _ expected =>
    some ("number functions densely: '# " ++ toString expected.toNat ++ " ...'")
  | _ => none

end Problem

/-- A problem and where it was found. -/
structure Finding where
  problem : Problem
  span : Span
  deriving DecidableEq, Repr, Inhabited

def Finding.onLine (problem : Problem) (line : Nat) : Finding :=
  ⟨problem, Span.wholeLine line⟩

def Finding.diagnostic (source : Source) (f : Finding) : Diagnostic where
  file := source.name
  code := f.problem.code
  message := f.problem.message
  span := f.span
  sourceLine := (source.line? f.span.line).getD ""
  suggestion := f.problem.suggestion?

/-- A function whose end has not been seen. -/
structure OpenFunc where
  index : UInt32
  paramCount : UInt32
  line : Nat
  body : Array Instruction := #[]
  /-- The opener itself was malformed, so the function will be dropped. -/
  dropped : Bool := false
  deriving DecidableEq, Repr, Inhabited

/-- What the lines so far amount to. -/
structure Draft where
  code : Array Instruction := #[]
  funcs : Array Func := #[]
  current : Option OpenFunc := none
  findings : Array Finding := #[]
  deriving DecidableEq, Repr, Inhabited

namespace Draft

def note (d : Draft) (f : Finding) : Draft :=
  { d with findings := d.findings.push f }

def noteAll (d : Draft) (fs : List Finding) : Draft :=
  fs.foldl note d

def nextIndex (known : UInt32) (d : Draft) : UInt32 :=
  known + UInt32.ofNat (d.funcs.toList.filter fun f => known ≤ f.index).length

def indexProblem? (known : UInt32) (d : Draft) (index : UInt32) : Option Problem :=
  let next := d.nextIndex known
  if d.funcs.any fun f => f.index == index then some (.duplicateFunc index)
  else if index ≠ next ∧ known ≤ index then some (.outOfOrder index next)
  else none

/-- Opens a function. Inside another one the opener is only reported. -/
def openFunc (known : UInt32) (d : Draft) (index paramCount : UInt32) (line : Nat) : Draft :=
  if d.current.isSome then d.note (.onLine .nested line)
  else
    let problems := (d.indexProblem? known index).toList
    { d.noteAll (problems.map (Finding.onLine · line)) with
      current := some { index, paramCount, line } }

/-- Opens a function whose opener is malformed, to keep the block structure. -/
def openDropped (d : Draft) (line : Nat) : Draft :=
  if d.current.isSome then d.note (.onLine .nested line)
  else { d with current := some { index := 0xffffffff, paramCount := 0, line, dropped := true } }

/-- The arguments that a function uses and does not have. -/
def argumentFindings (index paramCount : UInt32) (body : List Instruction) : List Finding :=
  body.flatMap fun i => i.operands.filterMap fun
    | .arg n =>
      if paramCount ≤ n then some (.onLine (.argumentOutOfRange n index paramCount) i.line) else none
    | _ => none

def finish (o : OpenFunc) : Func where
  index := o.index
  paramCount := o.paramCount
  localCount := slotCount Operand.varIndex? o.body.toList
  body := o.body.toList
  line := o.line

def closeFunc (d : Draft) (line : Nat) : Draft :=
  match d.current with
  | none => d.note (.onLine .unmatchedClose line)
  | some o =>
    let d := { d with current := none }
    if o.dropped then d
    else
      let d := d.noteAll (argumentFindings o.index o.paramCount o.body.toList)
      { d with funcs := d.funcs.push (finish o) }

def addInstruction (d : Draft) (i : Instruction) : Draft :=
  match d.current with
  | some o => { d with current := some { o with body := o.body.push i } }
  | none => { d with code := d.code.push i }

/-- Takes in one line. A malformed line still opens or closes a block by its role. -/
def feed (known : UInt32) (d : Draft) (l : SourceLine) : Draft :=
  match LineForm.ofTokens l.number l.tokens with
  | .ok .empty => d
  | .ok (.opener index paramCount) => d.openFunc known index paramCount l.number
  | .ok .closer => d.closeFunc l.number
  | .ok (.instruction i) => d.addInstruction i
  | .error e =>
    let d := d.note ⟨.ofLine e.fault, e.span⟩
    match LineRole.ofTokens l.tokens with
    | .opener => d.openDropped l.number
    | .closer => d.closeFunc l.number
    | .skip | .plain => d

def ofLines (known : UInt32) (lines : List SourceLine) : Draft :=
  lines.foldl (feed known) {}

/-! ## Checks of the whole unit -/

def unclosedFindings (d : Draft) : List Finding :=
  d.current.toList.map fun o => .onLine (.unclosed o.index) o.line

/-- What only a function may hold, found in module code. -/
def moduleFindings (code : List Instruction) : List Finding :=
  code.flatMap fun i =>
    (if i.opcode = .ret then [.onLine .returnOutside i.line] else []) ++
      i.operands.filterMap fun
        | .var n => some (.onLine (.slotOutside (.var n)) i.line)
        | .arg n => some (.onLine (.slotOutside (.arg n)) i.line)
        | _ => none

/-- Labels that were defined before. `seen` holds the definitions so far, the latest first. -/
def duplicateFindings (scope : Scope) : List (UInt32 × Nat) → List Instruction → List Finding
  | _, [] => []
  | seen, i :: rest =>
    match i.definedLabel? with
    | none => duplicateFindings scope seen rest
    | some label =>
      ((seen.lookup label).toList.map fun previous =>
          .onLine (.duplicateLabel label previous scope) i.line) ++
        duplicateFindings scope ((label, i.line) :: seen) rest

/-- Jumps to labels that the scope does not define. -/
def undefinedFindings (scope : Scope) (code : List Instruction) : List Finding :=
  let defined := code.filterMap Instruction.definedLabel?
  code.filterMap fun i =>
    if i.opcode = .jump ∨ i.opcode = .jumpIf then
      match i.label? with
      | some label =>
        if defined.contains label then none else some (.onLine (.undefinedLabel label scope) i.line)
      | none => none
    else none

def labelFindings (scope : Scope) (code : List Instruction) : List Finding :=
  duplicateFindings scope [] code ++ undefinedFindings scope code

/-- Calls of functions that neither the unit nor its context defines. -/
def callFindings (known : UInt32) (funcs : List Func) (code : List Instruction) : List Finding :=
  (funcs.flatMap Func.body ++ code).filterMap fun i =>
    i.callTarget?.bind fun (index, _) =>
      if index < known || funcs.any fun f => f.index == index then none
      else some (.onLine (.undefinedFunc index) i.line)

/-- Everything that was found, lines first. -/
def allFindings (known : UInt32) (d : Draft) : List Finding :=
  let funcs := d.funcs.toList
  let code := d.code.toList
  d.findings.toList ++ d.unclosedFindings ++ moduleFindings code ++
    (funcs.flatMap fun f => labelFindings (.ofFunc f.index) f.body) ++
    labelFindings .ofModule code ++ callFindings known funcs code

/-- The program that a draft without findings stands for. -/
def toProgram (d : Draft) : Program where
  code := d.code.toList
  funcs := d.funcs.toList
  globalCount :=
    slotCount Operand.globalIndex? (d.funcs.toList.flatMap Func.body ++ d.code.toList)

end Draft

/-- Builds the program of a source unit in the context of `known` earlier functions, or reports what
was found. -/
def Program.parse (source : Source) (known : UInt32) : Except Report Program :=
  let draft := Draft.ofLines known source.significantLines
  match draft.allFindings known with
  | [] => .ok draft.toProgram
  | findings => .error (Report.ofList (findings.map (Finding.diagnostic source)))

end SlotLang
