import SlotLang.Reader.Lexeme
import SlotLang.Text.Identifier

/-!
# Scanning Python source

The source is scanned step by step. A step at the start of a line first compares its indentation
with the levels around it; then it reads one lexeme or skips some blanks. A fault ends the scan, and
takes the place of whatever the same step had found. Inside brackets line ends are blanks.

A carriage return ends a line, alone or with a line feed after it, but only line feeds count lines.
-/

namespace SlotLang.Reader

/-- A place in the source. -/
structure Cursor where
  rest : List Char
  line : Nat := 1
  deriving DecidableEq, Repr, Inhabited

namespace Cursor

/-- The next character, with every form of line end read as a line feed. -/
def next? (c : Cursor) : Option (Char × Cursor) :=
  match c.rest with
  | [] => none
  | '\r' :: '\n' :: rest => some ('\n', ⟨rest, c.line + 1⟩)
  | '\r' :: rest => some ('\n', ⟨rest, c.line⟩)
  | '\n' :: rest => some ('\n', ⟨rest, c.line + 1⟩)
  | ch :: rest => some (ch, ⟨rest, c.line⟩)

def skipTo (c : Cursor) (rest : List Char) : Cursor :=
  { c with rest }

end Cursor

def isLineEnd (c : Char) : Bool :=
  c == '\n' || c == '\r'

/-! ## Numbers -/

def digitOf? (base : Nat) (c : Char) : Option Nat :=
  let n :=
    if c.isDigit then c.toNat - '0'.toNat
    else if 'a' ≤ c ∧ c ≤ 'f' then c.toNat - 'a'.toNat + 10
    else if 'A' ≤ c ∧ c ≤ 'F' then c.toNat - 'A'.toNat + 10
    else base
  if n < base then some n else none

/-- Reads digits, each of which may have one underscore in front: how many there are, their value,
and the rest. -/
def digitRun (base : Nat) (count value : Nat) : List Char → Nat × Nat × List Char
  | [] => (count, value, [])
  | c :: cs =>
    match digitOf? base c with
    | some d => digitRun base (count + 1) (base * value + d) cs
    | none =>
      match c, cs with
      | '_', d :: _ =>
        if (digitOf? base d).isSome then digitRun base count value cs else (count, value, c :: cs)
      | _, _ => (count, value, c :: cs)

/-- The characters after a run of decimal digits, and whether there were any. -/
def afterDigits (cs : List Char) : Bool × List Char :=
  let (count, _, rest) := digitRun 10 0 0 cs
  (count != 0, rest)

def atExponent : List Char → Bool
  | e :: sign :: d :: _ =>
    (e == 'e' || e == 'E') && (sign.isDigit || ((sign == '+' || sign == '-') && d.isDigit))
  | [e, d] => (e == 'e' || e == 'E') && d.isDigit
  | _ => false

def exponent? (cs : List Char) : Option (List Char) :=
  match cs with
  | '_' :: _ => none
  | sign :: rest =>
    if sign == '+' || sign == '-' then
      if rest.head? == some '_' then none
      else match afterDigits rest with
        | (true, rest) => some rest
        | (false, _) => none
    else match afterDigits cs with
      | (true, rest) => some rest
      | (false, _) => none
  | [] => none

/-- Reads the part of a number after its leading digits, from a point or an exponent on. `seen` says
whether there were leading digits. -/
def fraction? (seen : Bool) (cs : List Char) : Option (List Char) :=
  match cs with
  | '.' :: '_' :: _ => none
  | '.' :: rest =>
    let (digits, rest) := afterDigits rest
    match rest with
    | e :: after =>
      if e == 'e' || e == 'E' then if seen || digits then exponent? after else none
      else if seen || digits then some rest else none
    | [] => if seen || digits then some rest else none
  | _ :: rest => exponent? rest
  | [] => none

def withUnit (kind : Kind) : List Char → Kind × List Char
  | 'j' :: rest | 'J' :: rest => (.complex, rest)
  | rest => (kind, rest)

def basedNumber? (base : Nat) (cs : List Char) : Option (Kind × List Char) :=
  match digitRun base 0 0 cs with
  | (0, _, _) => none
  | (_, value, rest) => some (.int value, rest)

/-- Reads a decimal number. A number other than zero must not start with a zero. -/
def decimalNumber? (cs : List Char) : Option (Kind × List Char) :=
  let (count, value, rest) := digitRun 10 0 0 cs
  if rest.head? == some '.' || atExponent rest then
    (fraction? (count != 0) rest).map (withUnit .float)
  else
    match withUnit (.int value) rest with
    | (.int value, rest) =>
      if cs.head? == some '0' && value != 0 then none else some (.int value, rest)
    | complex => some complex

def number? : List Char → Option (Kind × List Char)
  | '0' :: 'x' :: rest | '0' :: 'X' :: rest => basedNumber? 16 rest
  | '0' :: 'o' :: rest | '0' :: 'O' :: rest => basedNumber? 8 rest
  | '0' :: 'b' :: rest | '0' :: 'B' :: rest => basedNumber? 2 rest
  | cs => decimalNumber? cs

/-! ## Strings -/

def styleOf? : Char → Option StringStyle
  | 'r' | 'R' => some { raw := true }
  | 'b' | 'B' => some { bytes := true }
  | 'f' | 'F' => some { formatted := true }
  | 'u' | 'U' => some {}
  | _ => none

/-- The style that two letters stand for: one of them is for raw strings. -/
def pairStyleOf? (a b : Char) : Option StringStyle :=
  match styleOf? a, styleOf? b with
  | some s, some t =>
    if s.raw != t.raw && (s.bytes || t.bytes || s.formatted || t.formatted) then
      some { raw := true, bytes := s.bytes || t.bytes, formatted := s.formatted || t.formatted }
    else none
  | _, _ => none

def isQuote (c : Char) : Bool :=
  c == '"' || c == '\''

/-- The style at the start of a string and the characters from its quote on. -/
def stringStart? : List Char → Option (StringStyle × List Char)
  | q :: rest =>
    if isQuote q then some ({}, q :: rest)
    else match rest with
      | q' :: rest' =>
        if isQuote q' then (styleOf? q).map (·, rest)
        else match rest' with
          | q'' :: _ => if isQuote q'' then (pairStyleOf? q q').map (·, rest') else none
          | [] => none
      | [] => none
  | [] => none

def atPair (q : Char) : List Char → Bool
  | a :: b :: _ => a == q && b == q
  | _ => false

/-- Reads the content of a string up to its end: the content in reverse and the place behind it, or
the line where the string breaks off. -/
def stringBody (q : Char) (triple : Bool) : Nat → List Char → Cursor → Except Nat (List Char × Cursor)
  | 0, _, c => .error c.line
  | fuel + 1, content, c =>
    match c.next? with
    | none => .error c.line
    | some (ch, after) =>
      if ch == '\\' then
        match after.next? with
        | some (escaped, after) => stringBody q triple fuel (escaped :: '\\' :: content) after
        | none => .error after.line
      else if ch == '\n' && !triple then .error after.line
      else if ch == q then
        if !triple then .ok (content, after)
        else if atPair q after.rest then .ok (content, after.skipTo (after.rest.drop 2))
        else stringBody q triple fuel (ch :: content) after
      else stringBody q triple fuel (ch :: content) after

/-- Reads a string whose quote comes first. -/
def stringAt (style : StringStyle) (c : Cursor) : Except Nat (Kind × Cursor) :=
  match c.rest with
  | [] => .error c.line
  | q :: rest =>
    let triple := atPair q rest
    let start := c.skipTo (if triple then rest.drop 2 else rest)
    match stringBody q triple (rest.length + 1) [] start with
    | .ok (content, after) => .ok (.string style content.reverse, after)
    | .error line => .error line

/-! ## Indentation -/

/-- The blanks at the start of a line. -/
structure Indentation where
  tabs : Nat := 0
  spaces : Nat := 0
  deriving DecidableEq, Repr, Inhabited

/-- Compares two indentations, if the result does not depend on the width of a tab. -/
def Indentation.compare? (a b : Indentation) : Option Ordering :=
  match compare a.tabs b.tabs with
  | .lt => if a.spaces ≤ b.spaces then some .lt else none
  | .gt => if b.spaces ≤ a.spaces then some .gt else none
  | .eq => some (compare a.spaces b.spaces)

/-- A scan in progress. -/
structure Scan where
  cursor : Cursor
  /-- Whether the indentation of the line is still to be read. -/
  atLineStart : Bool := true
  /-- How many brackets are open. -/
  nesting : Nat := 0
  /-- The indentations around the place, the innermost first. The outermost has no blanks. -/
  levels : List Indentation := []
  deriving DecidableEq, Repr, Inhabited

/-- Reads blanks, blank lines and comments up to the first lexeme of a line. The flag says whether
there is one. A tab must not follow a space. -/
def readIndentation : Nat → Indentation → Cursor → Except Nat (Indentation × Cursor × Bool)
  | 0, _, c => .error c.line
  | fuel + 1, level, c =>
    match c.rest with
    | [] => .ok ({}, c, false)
    | ' ' :: rest => readIndentation fuel { level with spaces := level.spaces + 1 } (c.skipTo rest)
    | '\t' :: rest =>
      if level.spaces ≠ 0 then .error c.line
      else readIndentation fuel { level with tabs := level.tabs + 1 } (c.skipTo rest)
    | '\x0c' :: rest => readIndentation fuel {} (c.skipTo rest)
    | '#' :: rest => readIndentation fuel {} (c.skipTo (rest.dropWhile fun ch => !isLineEnd ch))
    | ch :: _ =>
      if isLineEnd ch then
        match c.next? with
        | some (_, after) => readIndentation fuel {} after
        | none => .error c.line
      else .ok (level, c, true)

def closeLevels (level : Indentation) (line : Nat) : List Indentation →
    Except Nat (List Lexeme × List Indentation)
  | levels@(inner :: outer) =>
    match level.compare? inner with
    | some .eq => .ok ([], levels)
    | some .lt => do
      let (dedents, levels) ← closeLevels level line outer
      return (.onLine .dedent line :: dedents, levels)
    | _ => .error line
  | [] => if level = {} then .ok ([], []) else .error line

def Scan.adjustLevels (s : Scan) (level : Indentation) (line : Nat) :
    Except Nat (List Lexeme × List Indentation) :=
  match level.compare? (s.levels.headD {}) with
  | none => .error line
  | some .eq => .ok ([], s.levels)
  | some .gt => .ok ([.onLine .indent line], level :: s.levels)
  | some .lt => closeLevels level line s.levels

/-! ## Steps -/

/-- What a step finds. -/
inductive ScanStep where
  | found (lexemes : List Lexeme) (s : Scan)
  | finished (lexemes : List Lexeme)
  | failed (line : Nat)

def Scan.emit (s : Scan) (kind : Kind) (rest : List Char) : ScanStep :=
  .found [.onLine kind s.cursor.line] { s with cursor := s.cursor.skipTo rest }

/-- Skips to a place without a lexeme. -/
def Scan.skip (s : Scan) (c : Cursor) : ScanStep :=
  .found [] { s with cursor := c }

/-- The end of the source: the last line ends, and all levels are closed. -/
def Scan.finish (s : Scan) : ScanStep :=
  let line := s.cursor.line
  if s.nesting ≠ 0 then .failed line
  else
    .finished ((if s.atLineStart then [] else [.onLine .newline line]) ++
      List.replicate s.levels.length (.onLine .dedent line))

def Scan.readString (s : Scan) (style : StringStyle) (quoted : List Char) : ScanStep :=
  match stringAt style (s.cursor.skipTo quoted) with
  | .ok (kind, after) => .found [⟨kind, s.cursor.line, after.line⟩] { s with cursor := after }
  | .error line => .failed line

def Scan.readName (s : Scan) (cs : List Char) : ScanStep :=
  let text := String.ofList (cs.takeWhile Text.isIdentRest)
  s.emit (if reservedWords.contains text then .word text else .name text)
    (cs.dropWhile Text.isIdentRest)

def Scan.readNumber (s : Scan) (cs : List Char) : ScanStep :=
  match number? cs with
  | some (kind, rest) => s.emit kind rest
  | none => .failed s.cursor.line

def Scan.readSign (s : Scan) (cs : List Char) : ScanStep :=
  match signs.find? fun sign => sign.toList.isPrefixOf cs with
  | none => .failed s.cursor.line
  | some sign =>
    let rest := cs.drop sign.length
    if openers.contains sign then { s with nesting := s.nesting + 1 }.emit (.sign sign) rest
    else if closers.contains sign then
      if s.nesting = 0 then .failed s.cursor.line
      else { s with nesting := s.nesting - 1 }.emit (.sign sign) rest
    else s.emit (.sign sign) rest

/-- The end of a line: of a logical line outside brackets, and a blank inside. -/
def Scan.readLineEnd (s : Scan) : ScanStep :=
  match s.cursor.next? with
  | none => s.finish
  | some (_, after) =>
    if s.nesting = 0 then
      .found [⟨.newline, s.cursor.line, after.line⟩] { s with cursor := after, atLineStart := true }
    else s.skip after

def Scan.readContinuation (s : Scan) (rest : List Char) : ScanStep :=
  if (rest.head?.map isLineEnd).getD false then
    match (s.cursor.skipTo rest).next? with
    | some (_, after) => if after.rest.isEmpty then .failed after.line else s.skip after
    | none => .failed s.cursor.line
  else .failed s.cursor.line

def isInnerBlank (c : Char) : Bool :=
  c == ' ' || c == '\t' || c == '\x0c'

def Scan.readNext (s : Scan) : ScanStep :=
  let cs := s.cursor.rest
  match cs with
  | [] => s.finish
  | c :: rest =>
    match if Text.isIdentStart c || isQuote c then stringStart? cs else none with
    | some (style, quoted) => s.readString style quoted
    | none =>
      if Text.isIdentStart c then s.readName cs
      else if Text.isPicture c then s.emit (.name (String.singleton c)) rest
      else if c.isDigit || (c == '.' && (rest.head?.map Char.isDigit).getD false) then s.readNumber cs
      else if c == '#' then s.skip (s.cursor.skipTo (rest.dropWhile fun ch => !isLineEnd ch))
      else if isInnerBlank c then s.skip (s.cursor.skipTo (rest.dropWhile isInnerBlank))
      else if isLineEnd c then s.readLineEnd
      else if c == '\\' then s.readContinuation rest
      else s.readSign cs

/-- Puts lexemes in front of what a step found. A failure takes their place. -/
def ScanStep.prepend (before : List Lexeme) : ScanStep → ScanStep
  | found lexemes s => found (before ++ lexemes) s
  | finished lexemes => finished (before ++ lexemes)
  | failed line => failed line

/-- One step, with the indentation first at the start of a line. -/
def Scan.step (s : Scan) : ScanStep :=
  if s.atLineStart then
    match readIndentation (s.cursor.rest.length + 1) {} s.cursor with
    | .error line => .failed line
    | .ok (level, cursor, hasLexeme) =>
      if s.nesting ≠ 0 then { s with cursor, atLineStart := !hasLexeme }.readNext
      else match s.adjustLevels level cursor.line with
        | .error line => .failed line
        | .ok (lexemes, levels) =>
          ({ s with cursor, levels, atLineStart := !hasLexeme }.readNext).prepend lexemes
  else s.readNext

def lastLine (start : Nat) (lexemes : List Lexeme) : Nat :=
  (lexemes.getLast?.map Lexeme.endLine).getD start

/-- Repeats steps. The end of the source is reported where the last lexeme ended. -/
def Scan.run : Nat → Nat → Scan → List Lexeme
  | 0, _, s => [.onLine .fault s.cursor.line]
  | fuel + 1, last, s =>
    match s.step with
    | .failed line => [.onLine .fault line]
    | .finished lexemes => lexemes ++ [.onLine .eof (lastLine last lexemes)]
    | .found lexemes s => lexemes ++ Scan.run fuel (lastLine last lexemes) s

/-! ## Words that are reserved in some places only -/

/-- Whether a colon that belongs to the statement stands in the rest of the logical line. The colon
of a lambda expression does not count, and neither does one that comes first. -/
def hasColon : Bool → Bool → Int → List Lexeme → Bool
  | _, _, _, [] => false
  | first, inLambda, nesting, l :: rest =>
    match l.kind with
    | .newline | .eof | .fault => false
    | .word "lambda" => hasColon false (inLambda || nesting == 0) nesting rest
    | .sign ":" =>
      if nesting != 0 then hasColon false inLambda nesting rest
      else if inLambda then hasColon false false nesting rest
      else !first || hasColon false inLambda nesting rest
    | .sign s =>
      let nesting :=
        if openers.contains s then nesting + 1
        else if closers.contains s then nesting - 1
        else nesting
      hasColon false inLambda nesting rest
    | _ => hasColon false inLambda nesting rest

/-- Whether an equals sign follows, with nothing but brackets and their content in front. -/
def hasEquals : Int → List Lexeme → Bool
  | _, [] => false
  | nesting, l :: rest =>
    match l.kind with
    | .newline | .eof | .fault => false
    | .sign "=" => if nesting == 0 then true else 0 < nesting && hasEquals nesting rest
    | .sign "[" => hasEquals (nesting + 1) rest
    | .sign "]" => hasEquals (nesting - 1) rest
    | _ => 0 < nesting && hasEquals nesting rest

/-- Whether a soft keyword is a keyword, given what follows it on its line. -/
def isReservedBefore (word : String) (rest : List Lexeme) : Bool :=
  match word, rest with
  | "type", ⟨.name _, _, _⟩ :: rest => hasEquals 0 rest
  | "type", ⟨.word w, _, _⟩ :: rest =>
    (w == "type" || w == "match" || w == "case") && hasEquals 0 rest
  | "type", _ => false
  | _, rest => hasColon true false 0 rest

def startsLine : Kind → Bool
  | .newline | .indent | .dedent => true
  | _ => false

def resolveSoft (atStart : Bool) : List Lexeme → List Lexeme
  | [] => []
  | l :: rest =>
    let kind := match l.kind with
      | .word w =>
        if (w == "match" || w == "case" || w == "type") && !(atStart && isReservedBefore w rest) then
          .name w
        else .word w
      | kind => kind
    { l with kind } :: resolveSoft (startsLine kind) rest

/-- Drops a mark of the byte order. -/
def dropMark : List Char → List Char
  | '\ufeff' :: rest => rest
  | cs => cs

/-- The lexemes of a source, ending with the end of the source or a fault. -/
def lexemes (cs : List Char) : List Lexeme :=
  resolveSoft true (Scan.run (cs.length + 1) 1 { cursor := { rest := dropMark cs } })

end SlotLang.Reader
