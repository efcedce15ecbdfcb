import SlotLang.Assembly.Text
import SlotLang.Outcome
import SlotLang.Shell
import SlotLang.Subset.Source
import SlotLang.Tool.Arguments
import SlotLang.Tool.Disk

/-!
# What the tools do

A job reads and writes files and prints on two channels until it is done or fails. What was printed
before a failure stays printed. A tool ends with status 0 if its job is done, 1 if it failed, and 2
if the arguments were wrong.
-/

namespace SlotLang

/-- Everything a tool works with. -/
structure World where
  disk : Disk := {}
  /-- What stands on the standard input. -/
  input : String := ""
  assembler : Assembly.Assembler := .unavailable "wat2wasm"
  deriving Inhabited

/-- What a tool leaves behind. -/
structure ToolResult where
  status : Nat := 0
  out : String := ""
  err : String := ""
  disk : Disk := {}
  /-- The files that were written, by their paths. -/
  written : List (String × Content) := []
  deriving Inhabited

/-- Why a job fails. -/
inductive JobError where
  | unreadable (path : String) (f : FileFault)
  | unwritable (path : String) (f : FileFault)
  | outcome (e : OutcomeError)
  | script (path : String) (e : Subset.Error)
  | image (f : Assembly.ImageFault)
  | use (e : Assembly.UseError)
  /-- What went wrong has been printed already. -/
  | reported
  deriving Inhabited

namespace JobError

def line (message : String) : String :=
  "error: " ++ message ++ "\n"

def text : JobError → String
  | unreadable path .notFound => line (path ++ " not found")
  | unreadable path f => line ("failed to read " ++ path ++ ": " ++ f.message)
  | unwritable path f => line ("failed to write " ++ path ++ ": " ++ f.message)
  | outcome (.rejected r) => r.render
  | outcome (.faulted f) => line f.message
  | outcome (.unbuilt e) => line e.message
  | script path e => line (path ++ ": " ++ e.message)
  | image f => line f.loadMessage
  | use e => line e.message
  | reported => ""

end JobError

/-- Both channels and the files. -/
structure Console where
  out : String := ""
  err : String := ""
  disk : Disk := {}
  /-- The files that were written, by their paths. -/
  written : List (String × Content) := []
  deriving Inhabited

abbrev Job := ExceptT JobError (StateM Console)

namespace Job

def print (s : String) : Job Unit :=
  modify fun c => { c with out := c.out ++ s }

def readText (path : String) : Job String := do
  match (← get).disk.readText path with
  | .ok s => return s
  | .error f => throw (.unreadable path f)

def readSource (path : String) : Job Source := do
  return ⟨path, ← readText path⟩

def readImage (path : String) : Job Assembly.Image := do
  match (← get).disk.read path with
  | .ok c => return c.toImage
  | .error f => throw (.unreadable path f)

def write (path : String) (content : Content) : Job Unit := do
  match (← get).disk.write path content with
  | .ok disk => modify fun c => { c with disk, written := c.written ++ [(path, content)] }
  | .error f => throw (.unwritable path f)

def ofExcept {ε α : Type} (f : ε → JobError) : Except ε α → Job α
  | .ok a => return a
  | .error e => throw (f e)

/-! ## The tools -/

def shell (w : World) : Job Unit := do
  let lines := (Text.terminatedLines w.input.toList).map String.ofList
  let (out, err) := Shell.transcript {} lines
  modify fun c => { c with out := c.out ++ Shell.banner ++ "\n" ++ out, err := c.err ++ err }

def printOutcome (o : Outcome) : Job Unit := do
  print (o.toJson.text ++ "\n")
  unless o.success do throw .reported

def interpret (path : String) : Job Unit := do
  let p ← ofExcept .outcome (← readSource path).program
  let r := Environment.run {} {} p
  print (outputText r.outputs)
  if let some f := r.fault? then throw (.outcome (.faulted f))

def interpreter (w : World) (o : Options) : Job Unit := do
  if o.has .reference then print Reference.text
  else if o.has .opcodeTable then print (Reference.table ++ "\n")
  else match o.file with
    | none => shell w
    | some path =>
      if o.has .json then
        printOutcome (.ofSource .interpret w.assembler (← readSource path))
      else interpret path

def writeAssembly (path : String) (o : Options) : Job Unit := do
  let p ← ofExcept .outcome (← readSource path).program
  let m ← ofExcept (.outcome ∘ .unbuilt ∘ .emit) (Assembly.Module.ofProgram p)
  write (Path.output path o.output "wat") (.text m.text)

def assembler (w : World) (o : Options) (path : String) : Job Unit := do
  if o.has .assemblyText then writeAssembly path o
  else
    let source ← readSource path
    let target := Path.output path o.output "wasm"
    if o.has .json then
      let outcome := Outcome.ofSource .wasm w.assembler source
      if let some (.image i) := outcome.artifact then write target (.image i)
      printOutcome outcome
    else
      let artifact ← ofExcept .outcome (Backend.wasm.produce w.assembler source)
      if let .image i := artifact then write target (.image i)

def runner (w : World) (o : Options) (path : String) : Job Unit := do
  let inst ← ofExcept .image (Assembly.Instance.ofImage w.assembler.decode (← readImage path))
  let (inst, result) := Assembly.Instance.runMain inst
  print (outputText (← ofExcept .use result))
  if o.has .globals then
    print (Text.unlines (inst.globals.map fun (name, v) => name ++ " = " ++ v.text))

def scriptWriter (o : Options) (path : String) : Job Unit := do
  let p ← ofExcept .outcome (← readSource path).program
  write (Path.output path o.output "py") (.text (Script.ofProgram p).text)

def scriptReader (o : Options) (path : String) : Job Unit := do
  let p ← ofExcept (.script path) (Program.ofPython (← readText path))
  write (Path.output path o.output "sui") (.text p.text)

/-- The job of a tool. Options that were checked have a file where the tool needs one. -/
def ofTool (t : Tool) (w : World) (o : Options) : Job Unit :=
  let path := o.file.getD ""
  match t with
  | .interpreter => interpreter w o
  | .assembler => assembler w o path
  | .runner => runner w o path
  | .scriptWriter => scriptWriter o path
  | .scriptReader => scriptReader o path
  | .shell => shell w

def paths (t : Tool) (o : Options) : List String :=
  let targets (path : String) := match t with
    | .assembler => [Path.output path o.output "wat", Path.output path o.output "wasm"]
    | .scriptWriter => [Path.output path o.output "py"]
    | .scriptReader => [Path.output path o.output "sui"]
    | .interpreter | .runner | .shell => []
  o.file.toList.flatMap fun path => path :: targets path

def result (w : World) (job : Job Unit) : ToolResult :=
  match job.run.run { disk := w.disk } with
  | (.ok _, c) => { out := c.out, err := c.err, disk := c.disk, written := c.written }
  | (.error e, c) =>
    { status := 1, out := c.out, err := c.err ++ e.text, disk := c.disk, written := c.written }

end Job

def Tool.run (t : Tool) (args : List String) (w : World) : ToolResult :=
  match Options.ofArgs t args with
  | .ok o => Job.result w (Job.ofTool t w o)
  | .error .help => { out := t.helpText, disk := w.disk }
  | .error .version => { out := t.versionText, disk := w.disk }
  | .error .misuse => { status := 2, err := t.usageLine ++ "\n", disk := w.disk }

end SlotLang
