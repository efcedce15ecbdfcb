import SlotLang.Reader.Scan
import SlotLang.Text.Blank
import SlotLang.Text.CharacterName

/-!
# The contents of strings

Escapes must be complete, the characters they name must exist, bytes must be ASCII, and the
expressions in a formatted string must be expressions. Only that is checked here, because no string
is part of the supported subset. An error is the line on which it lies.
-/

namespace SlotLang.Reader

def hexDigits? : Nat → Nat → List Char → Option (Nat × List Char)
  | 0, value, cs => some (value, cs)
  | _ + 1, _, [] => none
  | count + 1, value, c :: cs =>
    match digitOf? 16 c with
    | some d => hexDigits? count (16 * value + d) cs
    | none => none

def codePoint (count : Nat) (c : Cursor) : Except Nat Cursor :=
  match hexDigits? count 0 c.rest with
  | some (value, rest) => if value ≤ 0x10FFFF then .ok (c.skipTo rest) else .error c.line
  | none => .error c.line

def maxNameBytes : Nat := 88

/-- Reads the name of a character in braces. A name that does not end, or is too long, is an error
where it was read to, and one that stands for no character is an error where it starts. -/
def namedCharacter (c : Cursor) : Except Nat Cursor :=
  match c.rest with
  | '\x7b' :: rest =>
    let name := rest.takeWhile (· != '\x7d')
    let line := c.line + name.count '\n'
    match rest.dropWhile (· != '\x7d') with
    | _ :: rest =>
      if maxNameBytes < (String.ofList name).utf8ByteSize then .error line
      else if Text.isCharacterName name then .ok { rest, line }
      else .error c.line
    | [] => .error line
  | _ => .error c.line

def escape (bytes : Bool) (c : Cursor) : Except Nat Cursor :=
  match c.next? with
  | none => .error c.line
  | some (ch, after) =>
    match ch with
    | 'x' => codePoint 2 after
    | 'u' => if bytes then .ok after else codePoint 4 after
    | 'U' => if bytes then .ok after else codePoint 8 after
    | 'N' => if bytes then .ok after else namedCharacter after
    | ch => if bytes && 0x80 ≤ ch.toNat then .error after.line else .ok after

/-- Checks a string without expressions. -/
def checkText (style : StringStyle) : Nat → Cursor → Except Nat Unit
  | 0, _ => .ok ()
  | fuel + 1, c =>
    match c.next? with
    | none => .ok ()
    | some (ch, after) =>
      if ch == '\\' && !style.raw then
        match escape style.bytes after with
        | .ok after => checkText style fuel after
        | .error line => .error line
      else if style.bytes && 0x80 ≤ ch.toNat then .error after.line
      else checkText style fuel after

/-! ## Formatted strings -/

/-- Whether a brace comes next. In a formatted string a backslash stands for itself in front of a
brace, and the brace keeps its meaning. -/
def Cursor.isAtBrace (c : Cursor) : Bool :=
  match c.rest with
  | '\x7b' :: _ | '\x7d' :: _ => true
  | _ => false

/-- The expression in braces, as far as it has been read. -/
structure Field where
  /-- The characters so far, in reverse. -/
  chars : List Char := []
  /-- The brackets that are open, the innermost first. -/
  brackets : List Char := []
  /-- Whether an equals sign came after the expression, to show it with its value. -/
  isShown : Bool := false
  deriving DecidableEq, Repr, Inhabited

namespace Field

def push (f : Field) (ch : Char) : Field :=
  { f with chars := ch :: f.chars }

def isEmpty (f : Field) : Bool :=
  f.chars.all Text.isBlank

def close? (f : Field) (opener ch : Char) : Option Field :=
  match f.brackets with
  | b :: rest => if b == opener then some { f.push ch with brackets := rest } else none
  | [] => none

end Field

def quotedPart : Nat → Char → Field → Cursor → Except Nat (Field × Cursor)
  | 0, _, _, c => .error c.line
  | fuel + 1, q, f, c =>
    match c.next? with
    | none => .error c.line
    | some (ch, after) =>
      if ch == q then .ok (f.push ch, after) else quotedPart fuel q (f.push ch) after

def conversion (c : Cursor) : Except Nat Cursor :=
  match c.next? with
  | some (ch, after) =>
    if ch == 's' || ch == 'a' || ch == 'r' then
      match after.rest with
      | '\x7d' :: _ | ':' :: _ => .ok after
      | _ => .error after.line
    else .error after.line
  | none => .error c.line

mutual

/-- Checks text with expressions in braces. Within a format it ends in front of a closing brace. The
arguments are the test of an expression, whether the string is raw, and the depth of formats. -/
def formattedText (isExpr : List Char → Bool) (raw : Bool) : Nat → Nat → Cursor → Except Nat Cursor
  | 0, _, c => .error c.line
  | fuel + 1, depth, c =>
    if 2 ≤ depth then .error c.line
    else match c.next? with
      | none => .ok c
      | some (ch, after) =>
        match ch with
        | '\x7b' =>
          if depth == 0 && after.rest.isEmpty then .error after.line
          else if depth == 0 && after.rest.head? == some '\x7b' then
            formattedText isExpr raw fuel depth (after.skipTo after.rest.tail)
          else
            match formattedField isExpr raw fuel depth after.line {} after with
            | .ok after => formattedText isExpr raw fuel depth after
            | .error line => .error line
        | '\x7d' =>
          if depth != 0 then .ok c
          else if after.rest.head? == some '\x7d' then
            formattedText isExpr raw fuel depth (after.skipTo after.rest.tail)
          else .error after.line
        | '\\' =>
          if raw || after.isAtBrace then formattedText isExpr raw fuel depth after
          else match escape false after with
            | .ok after => formattedText isExpr raw fuel depth after
            | .error line => .error line
        | _ => formattedText isExpr raw fuel depth after

/-- Checks an expression in braces behind the opening one, up to and with the closing one. -/
def formattedField (isExpr : List Char → Bool) (raw : Bool) :
    Nat → Nat → Nat → Field → Cursor → Except Nat Cursor
  | 0, _, _, _, c => .error c.line
  | fuel + 1, depth, start, f, c =>
    match c.next? with
    | none => .error c.line
    | some (ch, after) =>
      let goOn (f : Field) (after : Cursor) := formattedField isExpr raw fuel depth start f after
      let close (opener : Char) :=
        match f.close? opener ch with
        | some f => goOn f after
        | none => .error after.line
      let beforeEquals := after.rest.head? == some '='
      if (ch == '!' || ch == '=' || ch == '>' || ch == '<') && beforeEquals then
        goOn ((f.push ch).push '=') (after.skipTo after.rest.tail)
      else if ch == '!' && f.brackets.isEmpty then
        if f.isEmpty then .error after.line
        else match conversion after with
          | .ok after => goOn f after
          | .error line => .error line
      else if ch == '=' && f.brackets.isEmpty then goOn { f with isShown := true } after
      else if ch == ':' && f.brackets.isEmpty then
        match formatSpec isExpr raw fuel depth after with
        | .ok after => goOn f after
        | .error line => .error line
      else if ch == '(' || ch == '[' || ch == '\x7b' then
        goOn { f.push ch with brackets := ch :: f.brackets } after
      else if ch == ')' then close '('
      else if ch == ']' then close '['
      else if ch == '\x7d' then
        if !f.brackets.isEmpty then close '\x7b'
        else if f.isEmpty then .error after.line
        else if isExpr f.chars.reverse then .ok after
        else .error start
      else if isQuote ch then
        match quotedPart fuel ch (f.push ch) after with
        | .ok (f, after) => goOn f after
        | .error line => .error line
      else if ch == ' ' && f.isShown then goOn f after
      else if ch == '\\' || f.isShown then .error after.line
      else goOn (f.push ch) after

/-- Checks a format behind its colon, up to the closing brace of its expression. -/
def formatSpec (isExpr : List Char → Bool) (raw : Bool) : Nat → Nat → Cursor → Except Nat Cursor
  | 0, _, c => .error c.line
  | fuel + 1, depth, c =>
    match c.next? with
    | none => .ok c
    | some (ch, after) =>
      if ch == '\x7b' then
        match formattedText isExpr raw fuel (depth + 1) c with
        | .ok after => formatSpec isExpr raw fuel depth after
        | .error line => .error line
      else if ch == '\x7d' then .ok c
      else formatSpec isExpr raw fuel depth after

end

def checkContent (isExpr : List Char → Bool) (style : StringStyle) (content : List Char)
    (line : Nat) : Except Nat Unit :=
  let c : Cursor := { rest := content, line }
  if style.formatted then
    (formattedText isExpr style.raw (2 * content.length + 2) 0 c).map fun _ => ()
  else checkText style (content.length + 1) c

end SlotLang.Reader
