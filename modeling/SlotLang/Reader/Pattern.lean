import SlotLang.Reader.Expression

/-!
# Patterns of match statements

No program of the subset has a pattern, so patterns are only recognised: a parser of patterns has no
result, but it stops where a pattern cannot go on.
-/

namespace SlotLang.Reader

open Parsing

def isNumber : Kind → Bool
  | .int _ | .float | .complex => true
  | _ => false

def isSingleton (k : Kind) : Bool :=
  k = .word "None" || k = .word "True" || k = .word "False"

def startsPattern : Kind → Bool
  | .name _ | .int _ | .float | .complex | .string .. => true
  | .word w => isSingleton (.word w)
  | .sign s => ["-", "*", "(", "[", "\x7b"].contains s
  | _ => false

/-- Signs that start a pattern but no key of a mapping pattern. -/
def compoundSigns : List String :=
  ["*", "(", "[", "\x7b"]

def followsPattern (k : Kind) : Bool :=
  k = .word "if" || [":", ",", ")", "]", "\x7d"].any (k = .sign ·)

/-- Whether a lexeme can follow a pattern without alternatives, in one place or another. -/
def followsAlternative (k : Kind) : Bool :=
  k = .word "as" || k = .sign "|" || followsPattern k

def signedNumber : Parsing Unit := do
  let _ ← acceptSign "-"
  unless isNumber (← peek) do unexpected
  advance

def numberPattern : Parsing Unit := do
  signedNumber
  if (← acceptSign "+") then signedNumber
  else if (← acceptSign "-") then signedNumber

def dottedRest : Parsing Unit := do
  let _ ← whileKind (· = .sign ".") do
    advance
    let _ ← identifier

section Levels

variable (n : Nested) (pattern : Parsing Unit)

def keyPattern : Parsing Unit := do
  match ← peek with
  | .name _ =>
    advance
    unless ← atSign "." do unexpected
    dottedRest
  | .string .. =>
    let _ ← strings n (· = .sign ":")
  | k => if isSingleton k then advance else numberPattern

/-- The items of a mapping pattern with the closing brace: a rest comes last. -/
def mappingPattern : Parsing Unit := do
  expectSign "\x7b"
  let starts (k : Kind) :=
    k = .sign "**" || (startsPattern k && !(compoundSigns.any (k = .sign ·)))
  let _ ← repeating (fun closed => do
    if closed || !starts (← peek) then return none
    if ← acceptSign "**" then
      let _ ← identifier
      let _ ← acceptSign ","
      return some true
    keyPattern n
    expectSign ":"
    pattern
    return some !(← acceptSign ",")) false
  expectSign "\x7d"

/-- The arguments of a class pattern with the closing bracket: keywords come last. -/
def classArguments : Parsing Unit := do
  expectSign "("
  let _ ← repeating (fun (keywords, closed) => do
    if closed || !startsPattern (← peek) then return none
    let isKeyword := keywords || (← peekSecond) = .sign "="
    if isKeyword then
      let _ ← identifier
      expectSign "="
    pattern
    return some (isKeyword, !(← acceptSign ","))) (false, false)
  expectSign ")"

def patternsUpTo (closer : String) : Parsing Unit := do
  let _ ← Parsing.optional startsPattern (commaSeparated startsPattern pattern)
  expectSign closer

/-- A pattern without alternatives. -/
def closedPattern : Parsing Unit := do
  match ← peek with
  | .name _ =>
    advance
    dottedRest
    if ← atSign "(" then classArguments pattern
  | .string .. =>
    let _ ← strings n followsAlternative
  | .sign "*" =>
    advance
    let _ ← identifier
  | .sign "(" =>
    advance
    patternsUpTo pattern ")"
  | .sign "[" =>
    advance
    patternsUpTo pattern "]"
  | .sign "\x7b" => mappingPattern n pattern
  | k => if isSingleton k then advance else numberPattern

/-- Alternatives, perhaps with a name for what they match. -/
def namedPattern : Parsing Unit := do
  let start ← here
  closedPattern n pattern
  let _ ← whileKind (· = .sign "|") do
    advance
    closedPattern n pattern
  if ← acceptWord "as" then
    if (← identifier) = "_" then reject followsPattern start

end Levels

/-- A pattern that nests at most so deep. -/
def patternOfDepth (n : Nested) : Nat → Parsing Unit
  | 0 => unexpected
  | depth + 1 => namedPattern n (patternOfDepth n depth)

end SlotLang.Reader
