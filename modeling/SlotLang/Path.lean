/-!
# Paths

Paths are texts with slashes. Slashes at the end and components that are a single dot do not count,
except for a dot at the start. The extension of a path is what follows the last dot of its last
component, unless that dot comes first.
-/

namespace SlotLang.Path

/-- Drops what does not count at the end, from a path read backwards. -/
def dropIdle : List Char → List Char
  | '/' :: rest => if rest.isEmpty then ['/'] else dropIdle rest
  | '.' :: '/' :: rest => dropIdle ('/' :: rest)
  | cs => cs

def splitLast (path : List Char) : List Char × List Char :=
  let backwards := dropIdle path.reverse
  let name := backwards.takeWhile (· ≠ '/')
  ((backwards.drop name.length).reverse, name.reverse)

def fileName? (path : List Char) : Option (List Char × List Char) :=
  let (front, name) := splitLast path
  if name = [] ∨ name = ['.'] ∨ name = ['.', '.'] then none else some (front, name)

/-- A file name up to its extension, and the extension if it has one. -/
def splitExtension (name : List Char) : List Char × Option (List Char) :=
  let extension := (name.reverse.takeWhile (· ≠ '.')).reverse
  let stem := name.take (name.length - extension.length - 1)
  if stem.isEmpty then (name, none) else (stem, some extension)

/-- Puts an extension behind the stem of the file name. A path without a file name stays as it is. -/
def setExtension (path extension : List Char) : List Char :=
  match fileName? path with
  | none => path
  | some (front, name) =>
    front ++ (splitExtension name).1 ++ if extension.isEmpty then [] else '.' :: extension

/-- The path without as many characters at its end as its extension has. -/
def dropExtension (path : List Char) : List Char :=
  match fileName? path with
  | none => path
  | some (_, name) =>
    match (splitExtension name).2 with
    | none => path
    | some extension => path.take (path.length - extension.length)

def withExtension (path extension : String) : String :=
  String.ofList (setExtension (dropExtension path.toList) extension.toList)

/-- The path to write to: the one that was asked for, or the input with another extension. -/
def output (input : String) (explicit : Option String) (extension : String) : String :=
  explicit.getD (withExtension input extension)

end SlotLang.Path
