import SlotLang.Assembly.Instance
import SlotLang.Path

/-!
# Files

A disk is a table of files and directories. A location is the list of names that leads to an entry
from the working directory; it starts with a slash or with double dots if it lies elsewhere. A path
is followed name by name, and every name but the last has to lead to a directory. A slash at the end
of a path asks for a directory too.
-/

namespace SlotLang

/-- What a file holds. -/
inductive Content where
  | text (s : String)
  | bytes (bs : List UInt8)
  /-- A module that an assembler delivered. -/
  | image (i : Assembly.Image)
  deriving Inhabited

namespace Content

def textOfBytes? (bs : List UInt8) : Option String :=
  String.fromUTF8? (ByteArray.mk bs.toArray)

def text? : Content → Option String
  | text s => some s
  | bytes bs => textOfBytes? bs
  | image i => textOfBytes? i.start

def toImage : Content → Assembly.Image
  | text s => .ofBytes s.toUTF8.toList
  | bytes bs => .ofBytes bs
  | image i => i

def isText (s : String) : Content → Bool
  | text t => t = s
  | _ => false

end Content

/-- An entry of a disk. -/
inductive DiskEntry where
  | directory
  | file (c : Content)
  deriving Inhabited

abbrev Location := List String

/-- What is wrong with a path or with what it leads to. -/
inductive FileFault where
  | notFound
  | isDirectory
  | notDirectory
  | notText
  deriving DecidableEq, Repr, Inhabited

def FileFault.message : FileFault → String
  | notFound => "No such file or directory (os error 2)"
  | isDirectory => "Is a directory (os error 21)"
  | notDirectory => "Not a directory (os error 20)"
  | notText => "stream did not contain valid UTF-8"

/-- Files and directories. -/
structure Disk where
  entries : List (Location × DiskEntry) := []
  deriving Inhabited

/-- Where a path leads. -/
inductive Place where
  | directory
  | file (l : Location) (c : Content)
  /-- Nothing is there, but there could be. -/
  | vacant (l : Location)
  /-- A directory on the way is missing. -/
  | missing
  /-- A file stands in the way. -/
  | blocked
  deriving Inhabited

namespace Disk

/-- The working directory, the directories around it and the root are always there. -/
def isDirectory (d : Disk) (l : Location) : Bool :=
  l.all (· = "..") || l = ["/"] || (d.entries.lookup l matches some .directory)

def parent (l : Location) : Location :=
  if l = ["/"] then l
  else if l.all (· = "..") then l ++ [".."]
  else l.dropLast

def follow (d : Disk) (here : Location) : List String → Place
  | [] => .directory
  | name :: rest =>
    if name = "." then d.follow here rest
    else if name = ".." then d.follow (parent here) rest
    else if d.isDirectory (here ++ [name]) then d.follow (here ++ [name]) rest
    else match d.entries.lookup (here ++ [name]), rest with
      | some (.file c), [] => .file (here ++ [name]) c
      | some (.file _), _ => .blocked
      | _, [] => .vacant (here ++ [name])
      | _, _ => .missing

def names (path : String) : List String :=
  (path.splitOn "/").filter (!·.isEmpty)

def locate (d : Disk) (path : String) : Place :=
  d.follow (if path.startsWith "/" then ["/"] else []) (names path)

def read (d : Disk) (path : String) : Except FileFault Content :=
  match d.locate path with
  | .directory => .error .isDirectory
  | .file _ c => if path.endsWith "/" then .error .notDirectory else .ok c
  | .vacant _ | .missing => .error .notFound
  | .blocked => .error .notDirectory

def readText (d : Disk) (path : String) : Except FileFault String := do
  match (← d.read path).text? with
  | some s => return s
  | none => .error .notText

def put (d : Disk) (l : Location) (e : DiskEntry) : Disk :=
  { entries := (l, e) :: d.entries.filter (·.1 ≠ l) }

def write (d : Disk) (path : String) (c : Content) : Except FileFault Disk :=
  match d.locate path with
  | .directory => .error .isDirectory
  | .file l _ | .vacant l =>
    if path.endsWith "/" then .error .isDirectory else .ok (d.put l (.file c))
  | .missing => .error .notFound
  | .blocked => .error .notDirectory

def location (path : String) : Location :=
  (names path).foldl (fun here name =>
    if name = "." then here else if name = ".." then parent here else here ++ [name])
    (if path.startsWith "/" then ["/"] else [])

/-- Puts an entry under a path, with the directories that lead to it. -/
def add (d : Disk) (path : String) (e : DiskEntry) : Disk :=
  let l := location path
  let around := (List.range l.length).map fun n => l.take n
  (around.filter (!d.isDirectory ·)).foldl (fun d l => d.put l .directory) d |>.put l e

/-- The files in the working directory that another disk does not have, or has with another text. -/
def changesSince (d before : Disk) : List (String × Content) :=
  d.entries.filterMap fun (l, e) =>
    match e, before.entries.lookup l with
    | .file c, none =>
      if l.head? = some "/" ∨ l.head? = some ".." then none else some ("/".intercalate l, c)
    | .file c, some (.file (.text s)) =>
      if c.isText s then none else some ("/".intercalate l, c)
    | _, _ => none

end Disk

end SlotLang
