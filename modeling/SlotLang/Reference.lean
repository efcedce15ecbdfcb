import SlotLang.Opcode
import SlotLang.Text.Json
import SlotLang.Text.Lines

/-!
# The reference

Two texts made from the table of opcodes: a reference to read, and the table in JSON.
-/

namespace SlotLang

def version : String :=
  "0.1.0"

namespace Opcode

def summary : Opcode → String
  | assign => "dest = value"
  | binary .add => "dest = a + b (wrapping)"
  | binary .sub => "dest = a - b (wrapping)"
  | binary .mul => "dest = a * b (wrapping)"
  | binary .div => "dest = a / b, truncating; error on b = 0 or MIN / -1"
  | binary .rem => "dest = a % b, sign of a; error on b = 0"
  | binary .lt => "dest = 1 if a < b else 0"
  | binary .gt => "dest = 1 if a > b else 0"
  | binary .eq => "dest = 1 if a == b else 0"
  | not => "dest = 1 if a == 0 else 0"
  | binary .and => "dest = 1 if a != 0 and b != 0 else 0"
  | binary .or => "dest = 1 if a != 0 or b != 0 else 0"
  | label => "jump target, unique within its scope"
  | jump => "jump to label"
  | jumpIf => "jump to label if cond != 0"
  | defineFunc => "open function <index> taking <count> arguments"
  | blockClose => "close the open function"
  | call => "dest = result of calling function <index> with args"
  | ret => "return value from the current function"
  | output => "print value on its own line"

def operandText (op : Opcode) (position : Nat) : OperandKind → String
  | .dest => "<dest>"
  | .value =>
    match op with
    | jumpIf => "<cond>"
    | binary _ => if position = 1 then "<a>" else "<b>"
    | not => "<a>"
    | _ => "<value>"
  | .label => "<label>"
  | .funcIndex => "<index>"
  | .count => "<count>"
  | .blockOpen => "\x7b"

def usage (op : Opcode) : String :=
  let operands := op.signature.zipIdx.map fun (kind, position) => op.operandText position kind
  " ".intercalate (op.sigil :: operands ++ if op.isVariadic then ["<args...>"] else [])

def entry (op : Opcode) : Text.Json :=
  .record [
    ("sigil", .str op.sigil),
    ("name", .str op.name),
    ("syntax", .str op.usage),
    ("arity", .str op.arityText),
    ("variadic", .bool op.isVariadic),
    ("description", .str op.summary)]

end Opcode

namespace Reference

def introduction : List String :=
  ["SUI: line-oriented, slot-based language. One instruction per line.",
    "Comments: ';' to end of line. Blank lines are ignored.",
    "",
    "VALUES: signed 64-bit integers, wrapping on overflow.",
    "SLOTS:",
    "  g<N>   global, shared by all code",
    "  v<N>   local, zeroed on each call (functions only)",
    "  a<N>   argument N of the current function (functions only)",
    "  <int>  literal, e.g. 42 or -7 (anywhere a value is read)",
    ""]

def rules : List String :=
  ["FUNCTIONS:",
    "  # 0 1 \x7b          function 0 takes one argument (a0)",
    "  + v0 a0 1",
    "  ^ v0",
    "  \x7d",
    "  $ g0 0 10        g0 = f0(10)",
    "  Indices are dense from 0 in definition order. Functions cannot nest.",
    "  A function that reaches '\x7d' returns 0. Calls may precede definitions.",
    "",
    "RULES:",
    "  - Labels are per scope; jumps only reach labels in the same scope",
    "  - Reading a global that was never written is a runtime error",
    "  - '^' and v/a slots are only valid inside functions"]

def usageWidth : Nat :=
  (Opcode.all.map fun op => op.usage.length).foldl max 0

def opcodeLine (op : Opcode) : String :=
  let blanks := List.replicate (usageWidth - op.usage.length) ' '
  "  " ++ op.usage ++ String.ofList blanks ++ "  " ++ op.summary

def text : String :=
  Text.unlines (introduction ++ ["OPCODES:"] ++ Opcode.all.map opcodeLine ++ [""] ++ rules)

def table : String :=
  Text.Json.text (.record [
    ("version", .str version),
    ("total_opcodes", .int Opcode.all.length),
    ("opcodes", .list (Opcode.all.map Opcode.entry))])

end Reference

end SlotLang
