import SlotLang.Text.CharacterName.Listed
import SlotLang.Text.Identifier

/-!
# Names of characters

Which names stand for a character in Unicode version 15. Most names are listed. Two families follow
a rule: a Hangul syllable is named by the sounds it is made of, and a unified ideograph by its
number. Names are compared without regard to case, and nothing else is overlooked: neither spaces
nor hyphens, and an alias is no name. Tangut ideographs have no names here.
-/

namespace SlotLang.Text

namespace CharacterName

/-! ## Hangul syllables -/

def initialSounds : List String :=
  ["", "G", "GG", "N", "D", "DD", "R", "M", "B", "BB", "S", "SS", "J", "JJ", "C", "K", "T", "P", "H"]

def medialSounds : List String :=
  ["A", "AE", "YA", "YAE", "EO", "E", "YEO", "YE", "O", "WA", "WAE", "OE", "YO", "U", "WEO", "WE",
    "WI", "YU", "EU", "YI", "I"]

def finalSounds : List String :=
  ["", "G", "GG", "GS", "N", "NJ", "NH", "D", "L", "LG", "LM", "LB", "LS", "LT", "LP", "LH", "M",
    "B", "BS", "S", "SS", "NG", "J", "C", "K", "T", "P", "H"]

def isSyllable (sounds : List Char) : Bool :=
  let sounds := String.ofList sounds
  initialSounds.any fun first => medialSounds.any fun second => finalSounds.any fun third =>
    first ++ second ++ third == sounds

/-! ## Unified ideographs -/

def ideographRanges : Array (Nat × Nat) :=
  #[(0x3400, 0x4DBF), (0x4E00, 0x9FFF), (0x20000, 0x2A6DF), (0x2A700, 0x2B739), (0x2B740, 0x2B81D),
    (0x2B820, 0x2CEA1), (0x2CEB0, 0x2EBE0), (0x30000, 0x3134A), (0x31350, 0x323AF)]

def hexDigit? (c : Char) : Option Nat :=
  if c.isDigit then some (c.toNat - '0'.toNat)
  else if 'A' ≤ c ∧ c ≤ 'F' then some (c.toNat - 'A'.toNat + 10)
  else none

def hexValue? (cs : List Char) : Option Nat :=
  cs.foldlM (fun n c => (hexDigit? c).map (16 * n + ·)) 0

/-- Whether at most five digits, leading zeros included, are the number of a unified ideograph. -/
def isIdeograph (digits : List Char) : Bool :=
  digits.length ≤ 5 && (hexValue? digits).any (inRanges ideographRanges)

/-! ## All names -/

def behind? (words : String) (name : List Char) : Option (List Char) :=
  if words.toList.isPrefixOf name then some (name.drop words.length) else none

end CharacterName

open CharacterName in
def isCharacterName (name : List Char) : Bool :=
  let name := name.map Char.toUpper
  match behind? "HANGUL SYLLABLE " name, behind? "CJK UNIFIED IDEOGRAPH-" name with
  | some sounds, _ => isSyllable sounds
  | none, some digits => isIdeograph digits
  | none, none => listed.contains name

end SlotLang.Text
