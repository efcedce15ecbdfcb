import SlotLang.Assembly.Assembler
import SlotLang.Digest
import SlotLang.Script.Emit
import SlotLang.Script.Text
import SlotLang.Session
import SlotLang.Text.Json

/-!
# Outcomes

A source goes through one of three backends: it is run, assembled or written as a script. Whatever
happens on the way, the outcome is one value: an artifact, a report of what is wrong with the source,
or the message of a later failure, together with a digest of the source.
-/

namespace SlotLang

/-- Where a program goes. -/
inductive Backend where
  | interpret
  | wasm
  | python
  deriving DecidableEq, Repr, Inhabited

def Backend.name : Backend → String
  | interpret => "interpret"
  | wasm => "wasm"
  | python => "python"

def Backend.extension? : Backend → Option String
  | interpret => none
  | wasm => some "wasm"
  | python => some "py"

/-- What a backend produces. -/
inductive Artifact where
  | output (values : List Value)
  | image (i : Assembly.Image)
  | script (text : String)
  deriving Inhabited

/-- Why there is no artifact. -/
inductive OutcomeError where
  | rejected (r : Report)
  | faulted (f : Fault)
  | unbuilt (e : Assembly.BuildError)
  deriving Inhabited

def OutcomeError.message? : OutcomeError → Option String
  | rejected _ => none
  | faulted f => some f.message
  | unbuilt e => some e.message

def OutcomeError.report : OutcomeError → Report
  | rejected r => r
  | _ => {}

def Source.program (source : Source) : Except OutcomeError Program :=
  (Program.parse source 0).mapError .rejected

/-- The report on a source, which is empty if the source can be parsed. -/
def Source.check (source : Source) : Report :=
  match source.program with
  | .ok _ => {}
  | .error e => e.report

def Backend.produce (b : Backend) (a : Assembly.Assembler) (source : Source) :
    Except OutcomeError Artifact := do
  let p ← source.program
  match b with
  | interpret =>
    let r := Environment.run {} {} p
    match r.fault? with
    | none => return .output r.outputs
    | some f => .error (.faulted f)
  | wasm => return .image (← (Assembly.Image.ofProgram a p).mapError .unbuilt)
  | python => return .script (Script.ofProgram p).text

/-- What became of a source. -/
structure Outcome where
  backend : Backend
  artifact : Option Artifact
  /-- What is wrong with the source; empty if it could be parsed. -/
  report : Report
  /-- The message of a later failure. -/
  error : Option String
  /-- The digest of the source. -/
  digest : String
  deriving Inhabited

namespace Outcome

def ofSource (b : Backend) (a : Assembly.Assembler) (source : Source) : Outcome :=
  let digest := Digest.ofText source.text
  match b.produce a source with
  | .ok artifact => { backend := b, artifact := some artifact, report := {}, error := none, digest }
  | .error e =>
    { backend := b, artifact := none, report := e.report, error := e.message?, digest }

def success (o : Outcome) : Bool :=
  o.artifact.isSome

end Outcome

/-! ## Outcomes in JSON -/

/-- An artifact: its kind and its data. -/
def Artifact.toJson : Artifact → Text.Json
  | output values =>
    .record [("kind", .str "output"), ("data", .list (values.map fun v => .int v.toInt))]
  | image i =>
    .record [("kind", .str "wasm"), ("data", .list (i.start.map fun b => .int b.toNat))]
  | script text => .record [("kind", .str "python"), ("data", .str text)]

def Diagnostic.toJson (d : Diagnostic) : Text.Json :=
  .record ([
    ("file", .str d.file),
    ("code", .int d.code),
    ("category", .str d.category.text),
    ("message", .str d.message),
    ("line", .int d.span.line),
    ("column", .int d.span.column),
    ("end_column", .int d.span.endColumn),
    ("source_line", .str d.sourceLine)] ++ d.suggestion.toList.map fun s => ("suggestion", .str s))

def Report.toJson (r : Report) : Text.Json :=
  .record [("errors", .list (r.kept.map Diagnostic.toJson)), ("total_errors", .int r.total.toNat)]

/-- An outcome; a failure behind the report stage adds its message. -/
def Outcome.toJson (o : Outcome) : Text.Json :=
  .record ([
    ("success", .bool o.success),
    ("backend", .str o.backend.name),
    ("artifact", o.artifact.elim .null Artifact.toJson),
    ("diagnostics", o.report.toJson)] ++
    o.error.toList.map (fun message => ("error", .str message)) ++
    [("source_hash", .str o.digest)])

end SlotLang
