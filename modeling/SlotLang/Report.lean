import SlotLang.Token

/-!
# Diagnostics and reports

A report keeps the first twenty diagnostics that were pushed into it and counts them all.
-/

namespace SlotLang

/-- What a diagnostic is about: one line, or how lines fit together. -/
inductive Category where
  | ofLine
  | ofStructure
  deriving DecidableEq, Repr, Inhabited

def Category.ofCode (code : Nat) : Category :=
  if 200 ≤ code && code ≤ 299 then .ofStructure else .ofLine

def Category.text : Category → String
  | .ofLine => "syntax"
  | .ofStructure => "structure"

def codeText (code : Nat) : String :=
  "E" ++ toString code

/-- One finding, ready to be shown. -/
structure Diagnostic where
  file : String
  code : Nat
  message : String
  span : Span
  /-- The text of the line it is about. -/
  sourceLine : String
  suggestion : Option String := none
  deriving DecidableEq, Repr, Inhabited

namespace Diagnostic

def category (d : Diagnostic) : Category :=
  Category.ofCode d.code

def render (d : Diagnostic) : String :=
  d.file ++ ":" ++ toString d.span.line ++ ":" ++ toString d.span.column ++ ": " ++
    codeText d.code ++ " [" ++ d.category.text ++ "] " ++ d.message ++ "\n"

end Diagnostic

def Report.capacity : Nat := 20

/-- The first diagnostics of a sequence and the length of the sequence, in 64 bits: from `2 ^ 64`
diagnostics on the count has started over. -/
structure Report where
  kept : List Diagnostic := []
  total : UInt64 := 0
  deriving DecidableEq, Repr, Inhabited

namespace Report

def push (r : Report) (d : Diagnostic) : Report where
  kept := if r.kept.length < capacity then r.kept ++ [d] else r.kept
  total := r.total + 1

def ofList (ds : List Diagnostic) : Report :=
  ds.foldl push {}

/-- Adds what another report keeps, and counts what that report dropped. -/
def extend (r other : Report) : Report :=
  let all := other.kept.foldl push r
  { all with total := all.total + (other.total - .ofNat other.kept.length) }

def hasErrors (r : Report) : Bool :=
  0 < r.total

/-- One line per kept diagnostic, and a last line that counts the others. -/
def render (r : Report) : String :=
  let lines := String.join (r.kept.map Diagnostic.render)
  if r.kept.length < r.total.toNat then
    lines ++ "... and " ++ toString (r.total.toNat - r.kept.length) ++ " more error(s)\n"
  else lines

/-- The rendering without the blanks at its end. -/
def display (r : Report) : String :=
  String.ofList (Text.trimEnd r.render.toList)

end Report

end SlotLang
