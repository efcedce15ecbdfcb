/-!
# Lists of names with shared beginnings

A lexicon writes many names in little room. Its items stand between commas, and names that begin
alike are one item: what they share, and in parentheses what follows it in each. So
`SUN(,SET OVER (CITY,SEA)),TREE` holds `SUN`, `SUNSET OVER CITY`, `SUNSET OVER SEA` and `TREE`.
`Lexicon.contains` reads the text once, from left to right, whatever the name.
-/

namespace SlotLang.Text

/-- A list of names, written as items. -/
structure Lexicon where
  text : List Char

/-- How far a search for a name has come. What is left of the name is `none` if it begins
otherwise. -/
structure Search where
  /-- What was left of the name where each open group starts, the innermost group first. The last
  is for the lexicon as a whole. -/
  starts : List (Option (List Char))
  /-- What is left of the name behind the item so far. -/
  left : Option (List Char)
  /-- Whether an item before this one was the name. -/
  found : Bool

namespace Search

def ofName (name : List Char) : Search :=
  { starts := [some name], left := some name, found := false }

/-- Ends an item. It was the name if nothing is left. -/
def endItem (s : Search) : Search :=
  match s.left with
  | some [] => { s with left := none, found := true }
  | _ => { s with left := none }

def step (s : Search) (c : Char) : Search :=
  if c == '(' then { s with starts := s.left :: s.starts }
  else if c == ')' then { s.endItem with starts := s.starts.tail }
  else if c == ',' then { s.endItem with left := s.starts.head?.join }
  else match s.left with
    | none => s
    | some [] => { s with left := none }
    | some (d :: rest) => { s with left := if c == d then some rest else none }

end Search

def Lexicon.contains (l : Lexicon) (name : List Char) : Bool :=
  (l.text.foldl Search.step (Search.ofName name)).endItem.found

end SlotLang.Text
