/-!
# Lexemes of Python source

Words and signs keep their spelling. A lexeme knows the line it starts on and the line where it ends,
because an error is reported by line alone.
-/

namespace SlotLang.Reader

/-- What stands in front of the quotes of a string. -/
structure StringStyle where
  raw : Bool := false
  bytes : Bool := false
  /-- Whether braces hold expressions. -/
  formatted : Bool := false
  deriving DecidableEq, Repr, Inhabited

/-- What a lexeme is. -/
inductive Kind where
  | name (text : String)
  /-- A reserved word. -/
  | word (text : String)
  /-- An operator or a delimiter. -/
  | sign (text : String)
  | int (n : Nat)
  | float
  | complex
  | string (style : StringStyle) (content : List Char)
  /-- The end of a logical line. -/
  | newline
  | indent
  | dedent
  | eof
  /-- A place where no lexeme can be read. -/
  | fault
  deriving DecidableEq, Repr, Inhabited

/-- A lexeme and its place. -/
structure Lexeme where
  kind : Kind
  line : Nat
  endLine : Nat
  deriving DecidableEq, Repr, Inhabited

def Lexeme.onLine (kind : Kind) (line : Nat) : Lexeme :=
  ⟨kind, line, line⟩

/-- The reserved words. The last three are reserved only in some places. -/
def reservedWords : List String :=
  ["False", "None", "True", "and", "as", "assert", "async", "await", "break", "class", "continue",
    "def", "del", "elif", "else", "except", "finally", "for", "from", "global", "if", "import", "in",
    "is", "lambda", "nonlocal", "not", "or", "pass", "raise", "return", "try", "while", "with",
    "yield", "match", "case", "type"]

/-- The signs, longer ones first. -/
def signs : List String :=
  ["**=", "//=", "<<=", ">>=", "...", "->", ":=", "==", "!=", "<=", ">=", "<<", ">>", "**", "//",
    "+=", "-=", "*=", "/=", "%=", "&=", "|=", "^=", "@=", "(", ")", "[", "]", "\x7b", "\x7d", ",",
    ":", ";", ".", "~", "@", "+", "-", "*", "/", "%", "&", "|", "^", "<", ">", "="]

def openers : List String :=
  ["(", "[", "\x7b"]

def closers : List String :=
  [")", "]", "\x7d"]

end SlotLang.Reader
