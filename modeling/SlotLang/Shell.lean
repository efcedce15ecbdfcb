import SlotLang.Session

/-!
# The interactive shell

Lines gather in a buffer until a blank line comes while no block is open; the buffer is then checked
line by line and, if every line is well formed, run as one unit of the session. Commands are known
only while the buffer is empty.
-/

namespace SlotLang

/-- A session with the lines that have not been run yet. -/
structure Shell where
  limits : Limits := {}
  env : Environment := {}
  buffer : Array String := #[]
  deriving Inhabited

/-- What the shell answers to a line. -/
structure Reply where
  exit : Bool := false
  out : String := ""
  err : String := ""
  deriving DecidableEq, Repr, Inhabited

namespace Shell

/-- The first line that the shell shows. -/
def banner : String :=
  "Sui REPL (empty line to execute, .exit / .quit / .reset)"

def unitName : String :=
  "<repl>"

def isBuffering (s : Shell) : Bool :=
  !s.buffer.isEmpty

def prompt (s : Shell) : String :=
  if s.isBuffering then "... " else ">>> "

def errorLine (line : Nat) (message : String) : String :=
  "Error (line " ++ toString line ++ "): " ++ message

def errorLines : UnitError → List String
  | .rejected r => r.kept.map fun d => errorLine d.span.line d.message
  | .faulted f => ["Error: " ++ f.message]

def runUnit (s : Shell) (unit : String) : Shell × Reply :=
  let r := s.env.runSource s.limits ⟨unitName, unit⟩
  ({ s with env := r.env },
    { out := outputText r.outputs, err := Text.unlines (r.error.toList.flatMap errorLines) })

def submit (s : Shell) : Shell × Reply :=
  let unit := "\n".intercalate s.buffer.toList
  let s := { s with buffer := #[] }
  match lineErrors unit with
  | [] => s.runUnit unit
  | errors => (s, { err := Text.unlines (errors.map fun (n, e) => errorLine n e.fault.message) })

def feedUnit (s : Shell) (line : String) : Shell × Reply :=
  if Text.isBlankText line && blockDepth s.buffer.toList == 0 then s.submit
  else ({ s with buffer := s.buffer.push line }, {})

def feed (s : Shell) (line : String) : Shell × Reply :=
  if s.isBuffering then s.feedUnit line
  else match String.ofList (Text.trim line.toList) with
    | ".exit" | ".quit" => (s, { exit := true })
    | ".reset" => ({ s with env := {} }, { out := "State reset.\n" })
    | "" => (s, {})
    | _ => s.feedUnit line

/-- The text on both channels when the shell reads all its lines from a text instead of a terminal:
no prompts, and an empty line at the end of the input. -/
def transcript (s : Shell) : List String → String × String
  | [] => ("\n", "")
  | line :: rest =>
    let (s, reply) := s.feed line
    if reply.exit then (reply.out, reply.err)
    else
      let (out, err) := s.transcript rest
      (reply.out ++ out, reply.err ++ err)

end Shell

end SlotLang
