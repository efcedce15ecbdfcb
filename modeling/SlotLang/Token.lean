import SlotLang.Instruction
import SlotLang.Text.Blank

/-!
# Words and tokens

A line is cut into words at blanks; a word that starts with a semicolon begins a comment and ends
the line. `TokenKind.ofWord` classifies a word on its own: the position of a word in its line never
changes what it is.
-/

namespace SlotLang

/-- A stretch of one line. Lines and columns are 1-based, columns count characters, and the end is
exclusive. They are the numbers of a 32-bit span as long as a source has fewer than `2 ^ 32 - 1` lines
and no line that many characters. -/
structure Span where
  line : Nat
  column : Nat
  endColumn : Nat
  deriving DecidableEq, Repr, Inhabited

def Span.wholeLine (line : Nat) : Span :=
  ⟨line, 1, 1⟩

/-- A maximal run of characters that are not blank, and the column where it starts. -/
structure Word where
  column : Nat
  chars : List Char
  deriving DecidableEq, Repr, Inhabited

namespace Word

/-- The words of a text whose first character has the given column: the word that touches the left
edge, if there is one, and the words after it. -/
def scan : Nat → List Char → Option Word × List Word
  | _, [] => (none, [])
  | column, c :: cs =>
    let (touching, rest) := scan (column + 1) cs
    if Text.isBlank c then (none, touching.toList ++ rest)
    else (some ⟨column, c :: (touching.map chars).getD []⟩, rest)

/-- The words of a line, left to right. -/
def ofLine (cs : List Char) : List Word :=
  (scan 1 cs).1.toList ++ (scan 1 cs).2

def isComment (w : Word) : Bool :=
  w.chars.head? == some ';'

end Word

/-- What a word is. -/
inductive TokenKind where
  | opcode (op : Opcode)
  /-- A slot: the operand is never an integer. -/
  | slot (o : Operand)
  | integer (v : Value)
  | blockOpen
  /-- A number too large for its place. -/
  | outOfRange
  | invalid
  deriving DecidableEq, Repr, Inhabited

namespace TokenKind

def slotOf? (letter : Char) (n : UInt32) : Option Operand :=
  match letter with
  | 'g' => some (.global n)
  | 'v' => some (.var n)
  | 'a' => some (.arg n)
  | _ => none

/-- A character followed by digits: a slot, if the number fits and the character is a slot letter.
The number is judged first. -/
def ofIndexed (letter : Char) (digits : List Char) : TokenKind :=
  match Text.readIndex? digits with
  | none => outOfRange
  | some n => (slotOf? letter n).elim invalid slot

def ofNumeral (cs : List Char) : TokenKind :=
  (Text.toValue? (Text.numeralValue cs)).elim outOfRange integer

def ofOther (cs : List Char) : TokenKind :=
  if Text.isNumeral cs then ofNumeral cs
  else match cs with
    | [] => invalid
    | letter :: digits => if Text.isDigits digits then ofIndexed letter digits else invalid

def ofWord (cs : List Char) : TokenKind :=
  match Opcode.ofWord? cs with
  | some op => opcode op
  | none => if cs = ['\x7b'] then blockOpen else ofOther cs

def operand? : TokenKind → Option Operand
  | slot o => some o
  | integer v => some (.lit v)
  | _ => none

def describe : TokenKind → String
  | opcode op => "opcode '" ++ op.sigil ++ "'"
  | slot o => "slot '" ++ o.text ++ "'"
  | integer v => "integer '" ++ v.text ++ "'"
  | blockOpen => "'\x7b'"
  | outOfRange => "out-of-range integer"
  | invalid => "invalid token"

end TokenKind

/-- A classified word and where it stands. -/
structure Token where
  kind : TokenKind
  text : String
  span : Span
  deriving DecidableEq, Repr, Inhabited

namespace Token

def ofWord (line : Nat) (w : Word) : Token where
  kind := TokenKind.ofWord w.chars
  text := String.ofList w.chars
  span := ⟨line, w.column, w.column + w.chars.length⟩

/-- The tokens of a line: its words up to the first comment. -/
def ofLine (line : Nat) (text : String) : List Token :=
  ((Word.ofLine text.toList).takeWhile fun w => !w.isComment).map (ofWord line)

end Token

end SlotLang
