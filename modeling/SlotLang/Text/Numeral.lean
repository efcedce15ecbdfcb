/-!
# Decimal numerals

Runs of ASCII digits, the number they denote, and the two machine ranges a numeral may have to fit:
signed 64-bit values and unsigned 32-bit slot numbers. Leading zeros are allowed in any number.
-/

namespace SlotLang

/-- Every value is a signed 64-bit integer, and arithmetic on values wraps. -/
abbrev Value := Int64

/-- The low 32 bits of a value, as they name a label or a function. -/
def Value.low (v : Value) : UInt32 :=
  v.toUInt64.toUInt32

/-- The value of a truth value: `1` or `0`. -/
def Value.ofBool (b : Bool) : Value :=
  if b then 1 else 0

def Value.ofIndex (n : UInt32) : Value :=
  n.toUInt64.toInt64

def Value.text (v : Value) : String :=
  toString v.toInt

namespace Text

def isDigits (cs : List Char) : Bool :=
  !cs.isEmpty && cs.all Char.isDigit

def digitsValue (cs : List Char) : Nat :=
  cs.foldl (fun n c => 10 * n + (c.toNat - '0'.toNat)) 0

/-- The digits read as a slot number, if they fit in 32 bits. -/
def readIndex? (cs : List Char) : Option UInt32 :=
  let n := digitsValue cs
  if n < 0x100000000 then some (UInt32.ofNat n) else none

/-- An integer as a value, if it fits in 64 bits. -/
def toValue? (i : Int) : Option Value :=
  if -0x8000000000000000 ≤ i ∧ i < 0x8000000000000000 then some (Int64.ofInt i) else none

def splitSign : List Char → Bool × List Char
  | '-' :: rest => (true, rest)
  | cs => (false, cs)

def isNumeral (cs : List Char) : Bool :=
  isDigits (splitSign cs).2

def numeralValue (cs : List Char) : Int :=
  let n : Int := digitsValue (splitSign cs).2
  if (splitSign cs).1 then -n else n

end Text

end SlotLang
