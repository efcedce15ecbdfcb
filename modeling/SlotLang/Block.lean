import SlotLang.Token

/-!
# Block structure of raw lines

A line whose first token is the definition sigil and whose last token is an opening brace opens a
block, and a line that starts with a closing brace closes one, whatever else stands on either. The
depth of any sequence of lines is defined, so that a shell can ask after each line whether more is
to come.
-/

namespace SlotLang

/-- What a line does to the block structure. -/
inductive LineRole where
  /-- Blank or a comment. -/
  | skip
  | opener
  | closer
  | plain
  deriving DecidableEq, Repr, Inhabited

namespace LineRole

def ofTokens : List Token → LineRole
  | [] => skip
  | first :: rest =>
    if first.kind = .opcode .defineFunc ∧ (rest.getLast?.getD first).kind = .blockOpen then opener
    else if first.kind = .opcode .blockClose then closer
    else plain

def ofLine (text : String) : LineRole :=
  ofTokens (Token.ofLine 0 text)

/-- The depth after a line. A closer at depth zero is ignored. -/
def advance (depth : Nat) : LineRole → Nat
  | opener => depth + 1
  | closer => depth - 1
  | skip | plain => depth

end LineRole

def blockDepth (lines : List String) : Nat :=
  (lines.map LineRole.ofLine).foldl LineRole.advance 0

end SlotLang
