import Std.Data.HashMap

/-!
# Packed texts

A packed text is a long number in base 90. It holds entries in capital letters, figures and a few
other characters. Entries that start alike share their start, and what follows it stands in brackets.
Each character has six bits, and what came before tells which bits to expect. The digits so far fix an
offset within a range, the lower part of the range is for a set bit, and the likelier that bit is, the
larger is its part: so what is expected takes little room.
-/

namespace SlotLang.Text

/-- The characters of a text that is written in lines. A line may end anywhere in the text. -/
def unlined (text : String) : List Char :=
  text.toList.filter (· != '\n')

/-- What came next last time, and how many times in a row. -/
structure Run where
  next : Nat := 0
  times : Nat := 0

/-- Where a character stands. Characters are digits in base 64. -/
structure Place where
  word : Nat := 0
  entry : Nat := 0
  /-- The first two characters behind the shared start, here and in the entry before. -/
  head : Nat := 0
  before : Nat := 0

/-- How far a packed text has been read. -/
structure Unpacking where
  digits : List Char
  range : Nat := 1
  offset : Nat := 0
  /-- How often each bit was clear, times 64, and was set, by what came before. -/
  tallies : Std.HashMap Nat (Array Nat) := {}
  runs : Std.HashMap Nat Run := {}
  /-- The last eight characters. -/
  recent : Nat := 0
  place : Place := {}
  /-- The places of the open brackets, the last one first. -/
  starts : List Place := []
  /-- The text so far, its last character first. -/
  text : List Char := []

namespace Unpacking

/-- The characters of packed texts. The first one has the number one. -/
def alphabet : List Char :=
  " (),-0123456789ABCDEFGHIJKLMNOPQRSTUVWXYZ".toList

def digitValue (c : Char) : Nat :=
  ("!#$%&'()*+,-./0123456789:;<=>?@ABCDEFGHIJKLMNOPQRSTUVWXYZ" ++
    "[]^_`abcdefghijklmnopqrstuvwxyz|~").toList.idxOf c

def widen (u : Unpacking) : List Char → Unpacking
  | [] => { u with digits := [] }
  | d :: rest =>
    if u.range < 0x10000000000 then
      { u with range := 90 * u.range, offset := 90 * u.offset + digitValue d }.widen rest
    else { u with digits := d :: rest }

def tallyKeys (u : Unpacking) : List Nat :=
  let p := u.place
  let last := u.recent % 64
  let first (head : Nat) := if head < 64 then head else head / 64
  [64 * (4096 * (p.entry % 64) + p.before) + last, u.recent % 4096, u.recent % 0x40000, last,
    64 * (64 * first p.head + first p.before) + (if last ≤ 4 then last else 0),
    64 * p.word + last].mapIdx fun i key => 8 * key + i

/-- What the runs of the next character depend on. The last one counts twice. -/
def runKeys (u : Unpacking) : List Nat :=
  let p := u.place
  let last := u.recent % 64
  [64 * (p.entry % 0x40000) + last, 64 * (4096 * (p.entry % 4096) + p.before) + last,
    64 * (p.entry % 0x40000000) + last, u.recent % 0x40000000, u.recent % 0x1000000000, u.recent,
    u.recent].mapIdx fun i key => 8 * key + min 5 i

/-- The chance of a set bit, in parts of 65536, when the bit was so often clear and so often set. -/
def correct (weight chance clear set : Nat) : Nat :=
  (131072 * set + weight * chance) / (2 * (clear + set) + weight)

/-- The chance of a set bit with `shift` more to come. A run counts while it agrees with the bits
before. -/
def chance (tallies : List Nat) (runs : List Run) (bits shift : Nat) : Nat :=
  let tallied := tallies.foldl (fun chance t =>
    correct (if t < 64 ∨ t % 64 = 0 then 5 else 67) chance (t / 64) (t % 64)) 32768
  let chance := runs.foldl (fun chance run =>
    let next := (64 + run.next) >>> shift
    if next / 2 ≠ bits then chance
    else if next % 2 = 0 then correct 18 chance run.times 0
    else correct 18 chance 0 run.times) tallied
  max 16 (min 65520 chance)

/-- Counts a bit, and forgets half of what speaks against it. -/
def tally (bit : Bool) (t : Nat) : Nat :=
  let half (count : Nat) := if count ≤ 1 then count else count / 2
  if bit then 64 * half (t / 64) + min 55 (t % 64 + 1)
  else 64 * min 55 (t / 64 + 1) + half (t % 64)

/-- Reads as many bits of a character as are left, behind those that are known. -/
def readBits (runs : List Run) (u : Unpacking) (tables : List (Array Nat)) (bits : Nat) :
    Nat → Nat × List (Array Nat) × Unpacking
  | 0 => (bits, tables, u)
  | shift + 1 =>
    let u := u.widen u.digits
    let lower := u.range * chance (tables.map (·.getD bits 0)) runs bits shift / 65536
    let bit := decide (u.offset < lower)
    let u := if bit then { u with range := lower }
      else { u with range := u.range - lower, offset := u.offset - lower }
    let tables := tables.map fun table => table.setIfInBounds bits (tally bit (table.getD bits 0))
    readBits runs u tables (2 * bits + bit.toNat) shift

def advance (u : Unpacking) (c : Char) (next : Nat) : Unpacking :=
  let p := u.place
  let head := if p.head < 64 then 64 * p.head + next else p.head
  let u := { u with recent := (64 * u.recent + next) % 0x1000000000000, text := c :: u.text }
  match c, u.starts with
  | '(', starts =>
    { u with place := { p with head := 0, before := 0 }, starts := { p with head } :: starts }
  | ')', start :: starts =>
    { u with place := { p with head := start.head, before := start.before }, starts }
  | ',', starts => { u with place := { starts.headD {} with head := 0, before := p.head } }
  | _, _ =>
    let word := if c = ' ' then 0 else (64 * p.word + next) % 0x1000000000000
    { u with place := { p with word, head, entry := (64 * p.entry + next) % 0x1000000000000 } }

def readChar (u : Unpacking) : Unpacking :=
  let tallyKeys := u.tallyKeys
  let runKeys := u.runKeys
  let tables := tallyKeys.map fun key => u.tallies.getD key (.replicate 64 0)
  let runs := runKeys.map fun key => u.runs.getD key {}
  let (bits, tables, u) := readBits runs u tables 1 6
  let next := bits - 64
  let runs := runs.map fun run =>
    ({ next, times := if run.next = next then min 15 (run.times + 1) else 1 } : Run)
  let u := { u with
    tallies := u.tallies.insertMany (tallyKeys.zip tables)
    runs := u.runs.insertMany (runKeys.zip runs) }
  u.advance (alphabet.getD (next - 1) ' ') next

end Unpacking

def unpack (length : Nat) (packed : String) : List Char :=
  (Nat.repeat Unpacking.readChar length { digits := unlined packed }).text.reverse

end SlotLang.Text
