import SlotLang.Tool.Job

/-!
# The command line

The first argument names the tool, the others belong to it. Files are read before the tool runs and
written behind it, so that the tool itself is a function. The shell alone talks line by line.
-/

namespace SlotLang.CommandLine

/-- What a path leads to. A directory is known by the error when it is read. -/
def entryAt (path : String) : IO (Option DiskEntry) := do
  try
    let bytes ← IO.FS.readBinFile path
    return some (.file (.bytes bytes.toList))
  catch
    | .inappropriateType _ 21 _ => return some .directory
    | _ => return none

def directoriesOf (path : String) : List String :=
  let parts := path.splitOn "/"
  (List.range (parts.length - 1)).map (fun n => "/".intercalate (parts.take (n + 1)))
    |>.filter (!·.isEmpty)

def diskOf (paths : List String) : IO Disk := do
  let mut disk : Disk := {}
  for path in paths.flatMap fun p => directoriesOf p ++ [p] do
    if let some entry ← entryAt path then disk := disk.add path entry
  return disk

def writeFile (path : String) : Content → IO Unit
  | .text s => IO.FS.writeFile path s
  | .bytes bs => IO.FS.writeBinFile path (ByteArray.mk bs.toArray)
  | .image i => IO.FS.writeBinFile path (ByteArray.mk i.start.toArray)

/-- Runs the shell until it is left or the input ends. -/
partial def serve (s : Shell) : IO Unit := do
  let input ← IO.getStdin
  let output ← IO.getStdout
  if ← input.isTty then
    output.putStr s.prompt
    output.flush
  let text ← input.getLine
  match Text.terminatedLines text.toList with
  | [] => output.putStrLn ""
  | line :: _ =>
    let (s, reply) := s.feed (String.ofList line)
    output.putStr reply.out
    output.flush
    (← IO.getStderr).putStr reply.err
    unless reply.exit do serve s

/-- Whether a tool starts the shell. -/
def startsShell (t : Tool) (o : Options) : Bool :=
  t = .shell || (t = .interpreter && o.file.isNone && !o.has .reference && !o.has .opcodeTable)

def runTool (t : Tool) (args : List String) : IO UInt32 := do
  let options := (Options.ofArgs t args).toOption
  if options.any (startsShell t) then
    IO.println Shell.banner
    serve {}
    return 0
  let disk ← diskOf (options.elim [] (Job.paths t))
  let result := t.run args { disk }
  IO.print result.out
  IO.eprint result.err
  for (path, content) in result.written do
    writeFile path content
  return UInt32.ofNat result.status

end SlotLang.CommandLine

open SlotLang in
/-- Runs the tool that the first argument names. -/
def main (args : List String) : IO UInt32 := do
  match args with
  | name :: rest =>
    match Tool.ofName? name with
    | some t => CommandLine.runTool t rest
    | none =>
      IO.eprintln ("error: no tool named " ++ name)
      return 2
  | [] =>
    IO.eprintln ("Tools: " ++ ", ".intercalate (Tool.all.map Tool.name))
    return 2
