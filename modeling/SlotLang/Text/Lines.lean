/-!
# Cutting text into lines

Two rules are in use. `sourceLines` gives the lines of a source unit: a line feed separates two
lines, so a final one opens an empty line, and every carriage return at the end of a line is
dropped. `terminatedLines` gives lines as a terminal delivers them: a line feed ends a line, so a
final one opens nothing, and one carriage return is dropped in front of it.
-/

namespace SlotLang.Text

/-- The pieces between line feeds, as the first piece and the others. -/
def cutAtFeeds (cs : List Char) : List Char × List (List Char) :=
  cs.foldr (fun c acc => if c = '\n' then ([], acc.1 :: acc.2) else (c :: acc.1, acc.2)) ([], [])

/-- The pieces between line feeds; there is always at least one. -/
def pieces (cs : List Char) : List (List Char) :=
  (cutAtFeeds cs).1 :: (cutAtFeeds cs).2

def dropReturns (cs : List Char) : List Char :=
  (cs.reverse.dropWhile (· = '\r')).reverse

def dropReturn (cs : List Char) : List Char :=
  match cs.reverse with
  | '\r' :: rest => rest.reverse
  | _ => cs

def sourceLines (cs : List Char) : List (List Char) :=
  (pieces cs).map dropReturns

/-- Every piece but the last was ended by a line feed; an empty last piece is no line. -/
def endedLines : List (List Char) → List (List Char)
  | [] => []
  | [last] => if last.isEmpty then [] else [last]
  | piece :: rest => dropReturn piece :: endedLines rest

def terminatedLines (cs : List Char) : List (List Char) :=
  endedLines (pieces cs)

def unlines (lines : List String) : String :=
  lines.foldl (fun text line => text ++ line ++ "\n") ""

end SlotLang.Text
