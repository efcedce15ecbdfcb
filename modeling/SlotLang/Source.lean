import SlotLang.Text.Lines
import SlotLang.Token

/-!
# Source units

A named text cut into numbered lines. Only lines with at least one token are significant.
-/

namespace SlotLang

structure Source where
  name : String
  text : String
  deriving DecidableEq, Repr, Inhabited

/-- A line with its number and its tokens. -/
structure SourceLine where
  number : Nat
  text : String
  tokens : List Token
  deriving DecidableEq, Repr, Inhabited

namespace Source

/-- The lines, without their ends. -/
def lines (s : Source) : List String :=
  (Text.sourceLines s.text.toList).map String.ofList

/-- The line with a 1-based number. -/
def line? (s : Source) : Nat → Option String
  | 0 => none
  | n + 1 => s.lines[n]?

def tokenLines (s : Source) : List SourceLine :=
  (s.lines.zipIdx 1).map fun (text, number) => ⟨number, text, Token.ofLine number text⟩

def significantLines (s : Source) : List SourceLine :=
  s.tokenLines.filter fun l => !l.tokens.isEmpty

end Source

end SlotLang
