import SlotLang.Reference

/-!
# Command lines

Six tools share one reading of their arguments. Arguments are taken one after the other, and the
first that is wrong or that asks for help or for the version decides. A double dash makes every
argument behind it a file. What has to be there and what excludes what is checked at the end.
-/

namespace SlotLang

inductive Tool where
  /-- Runs a program, or starts the shell. -/
  | interpreter
  /-- Assembles a program. -/
  | assembler
  /-- Runs an assembled program. -/
  | runner
  /-- Writes a program as a script. -/
  | scriptWriter
  /-- Reads a program from a script. -/
  | scriptReader
  /-- Starts the shell. -/
  | shell
  deriving DecidableEq, Repr, Inhabited

inductive Flag where
  | json
  | reference
  | opcodeTable
  | assemblyText
  | globals
  deriving DecidableEq, Repr, Inhabited

def Flag.name : Flag → String
  | json => "json"
  | reference => "reference"
  | opcodeTable => "opcode-table"
  | assemblyText => "emit-wat"
  | globals => "globals"

namespace Tool

def all : List Tool :=
  [.interpreter, .assembler, .runner, .scriptWriter, .scriptReader, .shell]

def name : Tool → String
  | interpreter => "sui"
  | assembler => "sui2wasm"
  | runner => "suiwasm"
  | scriptWriter => "sui2py"
  | scriptReader => "py2sui"
  | shell => "sui-repl"

def ofName? (name : String) : Option Tool :=
  all.find? (·.name = name)

def flags : Tool → List Flag
  | interpreter => [.json, .reference, .opcodeTable]
  | assembler => [.assemblyText, .json]
  | runner => [.globals]
  | scriptWriter | scriptReader | shell => []

def takesFile (t : Tool) : Bool :=
  t ≠ shell

/-- Whether a tool cannot do without a file. -/
def needsFile (t : Tool) : Bool :=
  t ≠ interpreter && t ≠ shell

def takesOutput : Tool → Bool
  | assembler | scriptWriter | scriptReader => true
  | interpreter | runner | shell => false

end Tool

/-- The arguments of a tool. -/
structure Options where
  file : Option String := none
  output : Option String := none
  flags : List Flag := []
  deriving DecidableEq, Repr, Inhabited

/-- Why a tool does not start its work. -/
inductive Stop where
  /-- Help was asked for. -/
  | help
  /-- The version was asked for. -/
  | version
  /-- The arguments are wrong. -/
  | misuse
  deriving DecidableEq, Repr, Inhabited

namespace Options

def has (o : Options) (f : Flag) : Bool :=
  o.flags.contains f

/-- Adds a file; a path is never empty. -/
def addFile (t : Tool) (o : Options) (path : String) : Except Stop Options :=
  if t.takesFile && o.file.isNone && !path.isEmpty then .ok { o with file := some path }
  else .error .misuse

def addOutput (o : Options) (path : String) : Except Stop Options :=
  if o.output.isNone && !path.isEmpty then .ok { o with output := some path } else .error .misuse

/-- Adds a flag; none is given twice. -/
def addFlag (o : Options) (f : Flag) : Except Stop Options :=
  if o.has f then .error .misuse else .ok { o with flags := o.flags ++ [f] }

def isComplete (t : Tool) (o : Options) : Bool :=
  (o.file.isSome || !t.needsFile) &&
    !((o.has .reference || o.has .opcodeTable) && o.file.isSome) &&
    !(o.has .json && o.has .assemblyText)

end Options

/-- The forms of an argument. -/
inductive ArgForm where
  /-- A double dash. -/
  | separator
  /-- A name behind two dashes, perhaps with a value. -/
  | long (name : String) (value : Option String)
  /-- Letters behind a dash. -/
  | short (letter : Char) (rest : List Char)
  | plain
  deriving DecidableEq, Repr, Inhabited

def valueBehindEquals : List Char → Option String
  | '=' :: value => some (String.ofList value)
  | _ => none

/-- The form of an argument. A single dash is a plain argument. -/
def ArgForm.of (arg : String) : ArgForm :=
  match arg.toList with
  | ['-', '-'] => separator
  | '-' :: '-' :: rest =>
    let name := rest.takeWhile (· ≠ '=')
    long (String.ofList name) (valueBehindEquals (rest.drop name.length))
  | '-' :: letter :: rest => short letter rest
  | _ => plain

/-- What an argument says. -/
inductive ArgMeaning where
  | separator
  | file
  | flag (f : Flag)
  /-- The path to write to. -/
  | output (path : String)
  /-- The path to write to is the next argument. -/
  | outputNext
  | stop (s : Stop)
  deriving DecidableEq, Repr, Inhabited

def longMeaning (t : Tool) (name : String) (value : Option String) : ArgMeaning :=
  if name = "output" ∧ t.takesOutput then value.elim .outputNext .output
  else if value.isSome then .stop .misuse
  else if name = "help" then .stop .help
  else if name = "version" then .stop .version
  else match t.flags.find? (·.name = name) with
    | some f => .flag f
    | none => .stop .misuse

def shortMeaning (t : Tool) (letter : Char) (rest : List Char) : ArgMeaning :=
  if letter = 'o' ∧ t.takesOutput then
    if rest.isEmpty then .outputNext
    else .output ((valueBehindEquals rest).getD (String.ofList rest))
  else if letter = 'h' then .stop .help
  else if letter = 'V' then .stop .version
  else .stop .misuse

def ArgMeaning.of (t : Tool) (arg : String) : ArgMeaning :=
  match ArgForm.of arg with
  | .separator => separator
  | .long name value => longMeaning t name value
  | .short letter rest => shortMeaning t letter rest
  | .plain => file

def Options.scan (t : Tool) (o : Options) : List String → Except Stop Options
  | [] => .ok o
  | arg :: rest =>
    match ArgMeaning.of t arg, rest with
    | .separator, rest => rest.foldlM (Options.addFile t) o
    | .file, rest => do scan t (← o.addFile t arg) rest
    | .flag f, rest => do scan t (← o.addFlag f) rest
    | .output path, rest => do scan t (← o.addOutput path) rest
    | .outputNext, path :: rest =>
      if ArgForm.of path = .plain then do scan t (← o.addOutput path) rest else .error .misuse
    | .outputNext, [] => .error .misuse
    | .stop s, _ => .error s

def Options.ofArgs (t : Tool) (args : List String) : Except Stop Options := do
  let o ← Options.scan t {} args
  if o.isComplete t then return o else .error .misuse

/-! ## Help -/

namespace Tool

def purpose : Tool → String
  | interpreter => "Run a Sui program, or start the REPL when no file is given"
  | assembler => "Compile a Sui program to a WebAssembly binary (.wasm)"
  | runner => "Run the main entry point of a compiled Sui module"
  | scriptWriter => "Translate a Sui program to a Python 3 script"
  | scriptReader => "Translate a Python script (supported subset) to Sui"
  | shell => "Interactive Sui shell (empty line to execute, .exit / .quit / .reset)"

def filePurpose : Tool → String
  | runner => "WebAssembly binary produced by sui2wasm"
  | scriptReader => "Python source file"
  | _ => "Sui source file"

def outputPurpose : Tool → String
  | assembler => "Output path (default: the source path with a .wasm or .wat extension)"
  | scriptWriter => "Output path (default: the source path with a .py extension)"
  | _ => "Output path (default: the source path with a .sui extension)"

def flagPurpose (t : Tool) : Flag → String
  | .json =>
    if t = interpreter then "Print a structured JSON result instead of the program output"
    else "Print a structured JSON result on stdout"
  | .reference => "Print the language reference and exit"
  | .opcodeTable => "Print the opcode table as JSON and exit"
  | .assemblyText => "Write the WebAssembly text instead of assembling it"
  | .globals => "After running, print every exported global as `name = value`"

def filePlace (t : Tool) : String :=
  if t.needsFile then "<FILE>" else "[FILE]"

def optionRows (t : Tool) : List (String × String) :=
  (if t.takesOutput then [("-o, --output <OUTPUT>", t.outputPurpose)] else []) ++
    t.flags.map (fun f => ("    --" ++ f.name, t.flagPurpose f)) ++
    [("-h, --help", "Print help"), ("-V, --version", "Print version")]

def rowTexts (rows : List (String × String)) : List String :=
  let width := (rows.map fun row => row.1.length).foldl max 0
  rows.map fun (left, right) =>
    "  " ++ left ++ String.ofList (List.replicate (width - left.length) ' ') ++ "  " ++ right

def usageLine (t : Tool) : String :=
  let options := if t.takesOutput || !t.flags.isEmpty then " [OPTIONS]" else ""
  "Usage: " ++ t.name ++ options ++ if t.takesFile then " " ++ t.filePlace else ""

def helpText (t : Tool) : String :=
  Text.unlines ([t.purpose, "", t.usageLine, ""] ++
    (if t.takesFile then ["Arguments:"] ++ rowTexts [(t.filePlace, t.filePurpose)] ++ [""]
      else []) ++
    ["Options:"] ++ rowTexts t.optionRows)

def versionText (t : Tool) : String :=
  t.name ++ " " ++ version ++ "\n"

end Tool

end SlotLang
