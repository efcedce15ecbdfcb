import SlotLang.Assembly.Module
import SlotLang.Text.Lines

/-!
# The text of a module

One instruction a line, two spaces for each level of nesting.
-/

namespace SlotLang.Assembly

def lineAt (depth : Nat) (text : String) : String :=
  String.ofList (List.replicate (2 * depth) ' ') ++ text

def Register.text : Register → String
  | var n => "$v" ++ toString n.toNat
  | arg n => "$a" ++ toString n.toNat
  | pc => "$pc"

def Mark.text : Mark → String
  | dispatch => "$dispatch"
  | segment k => "$s" ++ toString k

def Arith.text : Arith → String
  | add => "i64.add"
  | sub => "i64.sub"
  | mul => "i64.mul"
  | div => "i64.div_s"
  | rem => "i64.rem_s"

def Comparison.text : Comparison → String
  | lt => "i64.lt_s"
  | gt => "i64.gt_s"
  | eq => "i64.eq"
  | ne => "i64.ne"

mutual

def Instr.lines (depth : Nat) : Instr → List String
  | .const v => [lineAt depth ("i64.const " ++ v.text)]
  | .index k => [lineAt depth ("i32.const " ++ toString k)]
  | .get r => [lineAt depth ("local.get " ++ r.text)]
  | .set r => [lineAt depth ("local.set " ++ r.text)]
  | .globalGet n => [lineAt depth ("global.get $" ++ globalExport n)]
  | .globalSet n => [lineAt depth ("global.set $" ++ globalExport n)]
  | .drop => [lineAt depth "drop"]
  | .arith op => [lineAt depth op.text]
  | .compare op => [lineAt depth op.text]
  | .isZero => [lineAt depth "i64.eqz"]
  | .widen => [lineAt depth "i64.extend_i32_u"]
  | .both => [lineAt depth "i32.and"]
  | .either => [lineAt depth "i32.or"]
  | .call f => [lineAt depth ("call $" ++ funcExport f)]
  | .print => [lineAt depth "call $print_i64"]
  | .ret => [lineAt depth "return"]
  | .br m => [lineAt depth ("br " ++ m.text)]
  | .brTable ms otherwise =>
    [lineAt depth ("br_table " ++ " ".intercalate (ms.map Mark.text ++ [otherwise.text]))]
  | .block m body =>
    lineAt depth ("block " ++ m.text) :: (codeLines (depth + 1) body ++ [lineAt depth "end"])
  | .loop m body =>
    lineAt depth ("loop " ++ m.text) :: (codeLines (depth + 1) body ++ [lineAt depth "end"])
  | .ifThen body => lineAt depth "if" :: (codeLines (depth + 1) body ++ [lineAt depth "end"])
  | .note label => [lineAt depth (";; label " ++ toString label.toNat)]

def codeLines (depth : Nat) : List Instr → List String
  | [] => []
  | i :: rest => i.lines depth ++ codeLines depth rest

end

def numbersBelow (count : UInt32) : List Nat :=
  List.range count.toNat

def pcLines (hasPc : Bool) : List String :=
  if hasPc then [lineAt 2 "(local $pc i32)"] else []

def FuncDef.lines (f : FuncDef) : List String :=
  let name := funcExport f.index
  let params := (numbersBelow f.paramCount).map fun n => " (param $a" ++ toString n ++ " i64)"
  let header := "(func $" ++ name ++ " (export \"" ++ name ++ "\")" ++ String.join params ++
    " (result i64)"
  let locals := (numbersBelow f.localCount).map fun n =>
    lineAt 2 ("(local $v" ++ toString n ++ " i64)")
  lineAt 1 header :: (locals ++ pcLines f.hasPc ++ codeLines 2 f.body ++ [lineAt 1 ")"])

def MainDef.lines (d : MainDef) : List String :=
  lineAt 1 ("(func $" ++ mainExport ++ " (export \"" ++ mainExport ++ "\")") ::
    (pcLines d.hasPc ++ codeLines 2 d.body ++ [lineAt 1 ")"])

def globalLines (n : Nat) : List String :=
  let name := "g" ++ toString n
  [lineAt 1 ("(global $" ++ name ++ " (mut i64) (i64.const 0))"),
    lineAt 1 ("(export \"" ++ name ++ "\" (global $" ++ name ++ "))")]

def Module.text (m : Module) : String :=
  Text.unlines <|
    ["(module", lineAt 1 "(import \"env\" \"print_i64\" (func $print_i64 (param i64)))"] ++
      (numbersBelow m.globalCount).flatMap globalLines ++ m.funcs.flatMap FuncDef.lines ++
      m.entry.toList.flatMap MainDef.lines ++ [")"]

end SlotLang.Assembly
