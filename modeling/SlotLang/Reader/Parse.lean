import SlotLang.Reader.Lexeme

/-!
# Parsing lexemes

A parser takes lexemes from the front of a list, and stops at the first one that cannot go on: the
line of that lexeme is where the error is. The list always ends with the end of the source or with a
fault, neither of which is ever taken.
-/

namespace SlotLang.Reader

/-- Where a parse stopped: the line, and how many lexemes were left. -/
structure Stop where
  line : Nat
  left : Nat
  deriving DecidableEq, Repr, Inhabited

abbrev Parsing := StateT (List Lexeme) (Except Stop)

namespace Parsing

variable {α β : Type}

def current : Parsing Lexeme := do
  return (← get).headD (.onLine .eof 1)

def peek : Parsing Kind := do
  return (← current).kind

def peekSecond : Parsing Kind := do
  return ((← get).tail.headD (.onLine .eof 1)).kind

def here : Parsing Nat := do
  return (← current).line

def unexpected : Parsing α := do
  throw ⟨← here, (← get).length⟩

/-- Stops at a line of something that was read before. What was read is looked at only when its end
is certain, so a next lexeme that never follows such a thing is noticed first. -/
def reject (follows : Kind → Bool) (line : Nat) : Parsing α := do
  unless follows (← peek) do unexpected
  throw ⟨line, (← get).length⟩

def advance : Parsing Unit :=
  modify List.tail

def atSign (text : String) : Parsing Bool := do
  return (← peek) = .sign text

def atWord (text : String) : Parsing Bool := do
  return (← peek) = .word text

def accept (kind : Kind) : Parsing Bool := do
  if (← peek) = kind then
    advance
    return true
  return false

def acceptSign (text : String) : Parsing Bool :=
  accept (.sign text)

def acceptWord (text : String) : Parsing Bool :=
  accept (.word text)

def expect (kind : Kind) : Parsing Unit := do
  unless ← accept kind do unexpected

def expectSign (text : String) : Parsing Unit :=
  expect (.sign text)

def expectWord (text : String) : Parsing Unit :=
  expect (.word text)

def identifier : Parsing String := do
  match ← peek with
  | .name id =>
    advance
    return id
  | _ => unexpected

/-- Repeats a step until it has nothing more to add, at most `fuel` times. -/
def loop (step : α → Parsing (Option α)) : Nat → α → Parsing α
  | 0, a => pure a
  | fuel + 1, a => do
    match ← step a with
    | some a => loop step fuel a
    | none => return a

/-- Repeats a step that takes a lexeme until it has nothing more to add. -/
def repeating (step : α → Parsing (Option α)) (a : α) : Parsing α := do
  loop step ((← get).length + 1) a

/-- Further items behind commas, where another item follows a comma only if the next lexeme can start
one. The flag says whether a comma came last. -/
def commaTail (starts : Kind → Bool) (item : Parsing α) (first : α) : Parsing (List α × Bool) := do
  let (items, trailing) ← repeating (fun (items, trailing) => do
    if trailing then return none
    else if ← acceptSign "," then
      if starts (← peek) then return some (items.push (← item), false)
      else return some (items, true)
    else return none) (#[first], false)
  return (items.toList, trailing)

/-- Items with commas between them and perhaps one behind them. -/
def commaSeparated (starts : Kind → Bool) (item : Parsing α) : Parsing (List α × Bool) := do
  commaTail starts item (← item)

def oneOrMore (item : Parsing α) : Parsing (List α) := do
  let first ← item
  let items ← repeating (fun items => do
    if ← acceptSign "," then return some (items.push (← item)) else return none) #[first]
  return items.toList

/-- Zero or more items, as long as the next lexeme is of some kind. -/
def whileKind (continues : Kind → Bool) (item : Parsing α) : Parsing (List α) := do
  let items ← repeating (fun items => do
    if continues (← peek) then return some (items.push (← item)) else return none) #[]
  return items.toList

def optional (starts : Kind → Bool) (item : Parsing α) : Parsing (Option α) := do
  if starts (← peek) then return some (← item) else return none

/-- The first of two parsers that goes through, or the error that lies further on. -/
def either (p q : Parsing α) : Parsing α := fun lexemes =>
  match p lexemes with
  | .ok result => .ok result
  | .error stop =>
    match q lexemes with
    | .ok result => .ok result
    | .error stop' => .error (if stop.left ≤ stop'.left then stop else stop')

end Parsing

end SlotLang.Reader
