import SlotLang.Program
import SlotLang.Script.Tree

/-!
# The text of a script

Four spaces for each level of nesting. Every script starts with a preamble that raises the limit on
recursion and with three helper functions: `_wrap` reduces an integer to 64 bits, and `_div` and
`_rem` divide toward zero.
-/

namespace SlotLang.Script

/-- The recursion limit of a script: the deepest call stack with some room for helpers. -/
def recursionLimit : Nat :=
  maxCallFrames + 64

def helperLines : List String :=
  ["def _wrap(x):",
    "    x &= 0xFFFFFFFFFFFFFFFF",
    "    return x - 0x10000000000000000 if x >= 0x8000000000000000 else x",
    "",
    "",
    "def _div(a, b):",
    "    if b == 0:",
    "        raise ZeroDivisionError(\"division by zero\")",
    "    q = abs(a) // abs(b)",
    "    q = q if (a < 0) == (b < 0) else -q",
    "    if q > 0x7FFFFFFFFFFFFFFF:",
    "        raise OverflowError(\"division overflow\")",
    "    return q",
    "",
    "",
    "def _rem(a, b):",
    "    if b == 0:",
    "        raise ZeroDivisionError(\"division by zero\")",
    "    r = abs(a) % abs(b)",
    "    return -r if a < 0 else r"]

def helperNames : List String :=
  ["_wrap", "_div", "_rem"]

def preambleLines : List String :=
  ["# Generated by sui2py.", "", "import sys",
    "sys.setrecursionlimit(" ++ toString recursionLimit ++ ")", "", ""] ++ helperLines

def lineAt (depth : Nat) (text : String) : String :=
  String.ofList (List.replicate (4 * depth) ' ') ++ text

def commaList (items : List String) : String :=
  ", ".intercalate items

def Term.text : Term → String
  | operand o => o.text
  | wrapped sign a b => "_wrap(" ++ a.text ++ " " ++ sign.toString ++ " " ++ b.text ++ ")"
  | quotient a b => "_div(" ++ a.text ++ ", " ++ b.text ++ ")"
  | remainder a b => "_rem(" ++ a.text ++ ", " ++ b.text ++ ")"
  | comparison sign a b => "int(" ++ a.text ++ " " ++ sign ++ " " ++ b.text ++ ")"
  | both a b => "int(" ++ a.text ++ " != 0 and " ++ b.text ++ " != 0)"
  | either a b => "int(" ++ a.text ++ " != 0 or " ++ b.text ++ " != 0)"
  | negation a => "int(not " ++ a.text ++ ")"
  | call f args => "f" ++ toString f.toNat ++ "(" ++ commaList (args.map Operand.text) ++ ")"

mutual

def Stmt.lines (depth : Nat) : Stmt → List String
  | .assign dest t => [lineAt depth (dest.text ++ " = " ++ t.text)]
  | .print o => [lineAt depth ("print(" ++ o.text ++ ")")]
  | .ret o => [lineAt depth ("return " ++ o.text)]
  | .raise message => [lineAt depth ("raise RuntimeError(\"" ++ message ++ "\")")]
  | .note label => [lineAt depth ("# label " ++ toString label.toNat)]
  | .whenNonzero o body =>
    lineAt depth ("if " ++ o.text ++ " != 0:") :: blockLines (depth + 1) body
  | .setPc k => [lineAt depth ("_pc = " ++ toString k)]
  | .again => [lineAt depth "continue"]
  | .leave => [lineAt depth "break"]
  | .whenPc k body =>
    lineAt depth ("if _pc == " ++ toString k ++ ":") :: blockLines (depth + 1) body
  | .forever body => lineAt depth "while True:" :: blockLines (depth + 1) body

def blockLines (depth : Nat) : List Stmt → List String
  | [] => []
  | s :: rest => s.lines depth ++ blockLines depth rest

end

/-- The names `a0`, `a1`, … of some slots. -/
def slotNames (letter : String) (count : UInt32) : List String :=
  (List.range count.toNat).map fun n => letter ++ toString n

def Def.lines (d : Def) : List String :=
  let globals := d.globals.map fun n => "g" ++ toString n.toNat
  let declaration := if globals.isEmpty then [] else [lineAt 1 ("global " ++ commaList globals)]
  let locals := (slotNames "v" d.localCount).map fun name => lineAt 1 (name ++ " = 0")
  ("def f" ++ toString d.index.toNat ++ "(" ++ commaList (slotNames "a" d.paramCount) ++ "):") ::
    (declaration ++ locals ++ blockLines 1 d.body ++ [lineAt 1 "return 0"])

def text (s : Script) : String :=
  let defs := s.defs.flatMap fun d => ["", ""] ++ d.lines
  let body := if s.hasBody then ["", ""] ++ blockLines 0 s.body else []
  Text.unlines (preambleLines ++ defs ++ body)

end SlotLang.Script
