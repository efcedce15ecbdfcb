/-!
# JSON texts

JSON values and their text with line breaks: two blanks for each level of nesting, one item on a
line, and nothing between the brackets of an empty list or record. Fields keep their order.
-/

namespace SlotLang.Text

/-- JSON values with integers only. -/
inductive Json where
  | null
  | bool (b : Bool)
  | int (i : Int)
  | str (s : String)
  | list (items : List Json)
  | record (fields : List (String × Json))
  deriving Inhabited

namespace Json

/-- The text of a control character that has no short form: four hexadecimal digits. -/
def controlText (c : Char) : String :=
  let digits := Nat.toDigits 16 c.toNat
  "\\u" ++ String.ofList (List.replicate (4 - digits.length) '0' ++ digits)

def charText (c : Char) : String :=
  match c with
  | '"' => "\\\""
  | '\\' => "\\\\"
  | '\n' => "\\n"
  | '\r' => "\\r"
  | '\t' => "\\t"
  | '\x08' => "\\b"
  | '\x0c' => "\\f"
  | c => if c.toNat < 0x20 then controlText c else String.singleton c

def quoted (s : String) : String :=
  "\"" ++ String.join (s.toList.map charText) ++ "\""

def lineBreak (depth : Nat) : String :=
  "\n" ++ String.ofList (List.replicate (2 * depth) ' ')

def bracketed (opener closer : String) (depth : Nat) (items : List String) : String :=
  if items.isEmpty then opener ++ closer
  else
    opener ++ lineBreak (depth + 1) ++ ("," ++ lineBreak (depth + 1)).intercalate items ++
      lineBreak depth ++ closer

mutual

def textAt (depth : Nat) : Json → String
  | null => "null"
  | bool b => if b then "true" else "false"
  | int i => toString i
  | str s => quoted s
  | list items => bracketed "[" "]" depth (itemTexts (depth + 1) items)
  | record fields => bracketed "\x7b" "\x7d" depth (fieldTexts (depth + 1) fields)

def itemTexts (depth : Nat) : List Json → List String
  | [] => []
  | item :: rest => textAt depth item :: itemTexts depth rest

def fieldTexts (depth : Nat) : List (String × Json) → List String
  | [] => []
  | (key, value) :: rest => (quoted key ++ ": " ++ textAt depth value) :: fieldTexts depth rest

end

def text (j : Json) : String :=
  j.textAt 0

end Json

end SlotLang.Text
