import Mathlib.Data.String.Basic
import SlotLang.Proofs.Wat.Reading

/-!
# Reading the text of a module

The text of a module is read as the module that it was written from, whatever its code is
(`ofText_text`): each function is one nested list, with its name, what it declares and its code.
-/

open List

namespace SlotLang.Assembly

open Wat

/-! ## Fields -/

/-- The word of a type. -/
def ValueType.text : ValueType → String
  | .i32 => "i32"
  | .i64 => "i64"

namespace Wat

@[simp] theorem type?_text (t : ValueType) : type? t.text = some t := by
  cases t <;> rfl

/-- A parameter or local with its name. -/
def declarationExpr (kind : String) (v : String × ValueType) : Expr :=
  .list [.word kind, .word v.1, .word v.2.text]

def resultExpr (type : ValueType) : Expr :=
  .list [.word "result", .word type.text]

/-- A function whose code is written in some words. -/
def funcExpr (f : Func) (words : List String) : Expr :=
  .list (.word "func" :: .word f.name :: .list [.word "export", .quoted f.exported] ::
    (f.params.map (declarationExpr "param") ++ (f.results.map resultExpr ++
      (f.locals.map (declarationExpr "local") ++ words.map .word))))

theorem spanMap_append {α : Type} {read : Expr → Option α} {write : α → Expr} {items : List α}
    {rest : List Expr} (each : ∀ a ∈ items, read (write a) = some a)
    (others : ∀ e ∈ rest, read e = none) : spanMap read (items.map write ++ rest) = (items, rest) := by
  induction items with
  | nil =>
    cases rest with
    | nil => rfl
    | cons e es => simp [spanMap, others e mem_cons_self]
  | cons a items ih =>
    rw [forall_mem_cons] at each
    simp [spanMap, each.1, ih each.2]

theorem declaration?_declarationExpr {kind : String} {v : String × ValueType}
    (named : isName v.1 = true) : declaration? kind (declarationExpr kind v) = some v := by
  simp [declaration?, declarationExpr, named]

theorem ofExpr_funcExpr {f : Func} {words : List String} (named : isName f.name = true)
    (declared : ∀ v ∈ f.params ++ f.locals, isName v.1 = true)
    (code : Op.ofAllWords words = some f.code) :
    Field.ofExpr (funcExpr f words) = some (.func f) := by
  have notParam : ∀ e ∈ f.results.map resultExpr ++
      (f.locals.map (declarationExpr "local") ++ words.map .word), declaration? "param" e = none := by
    simp only [mem_append, mem_map]
    rintro e (⟨type, -, rfl⟩ | ⟨v, -, rfl⟩ | ⟨w, -, rfl⟩)
    · rfl
    · simp [declaration?, declarationExpr]
    · rfl
  have notResult : ∀ e ∈ f.locals.map (declarationExpr "local") ++ words.map .word,
      type1? "result" e = none := by
    simp only [mem_append, mem_map]
    rintro e (⟨v, -, rfl⟩ | ⟨w, -, rfl⟩) <;> rfl
  have notLocal : ∀ e ∈ words.map Expr.word, declaration? "local" e = none := by
    simp only [mem_map]
    rintro e ⟨w, -, rfl⟩
    rfl
  have params := spanMap_append
    (fun v member => declaration?_declarationExpr (declared v (mem_append_left _ member))) notParam
  have read (type : ValueType) : type1? "result" (resultExpr type) = some type := by
    simp [type1?, resultExpr]
  have results := spanMap_append (fun type (_ : type ∈ f.results) => read type) notResult
  have locals := spanMap_append
    (fun v member => declaration?_declarationExpr (declared v (mem_append_right _ member))) notLocal
  have back (ws : List String) : (ws.map Expr.word).mapM Expr.word? = some ws := by
    induction ws with
    | nil => rfl
    | cons w ws ih => simp [Expr.word?, ih]
  simp [funcExpr, Field.ofExpr, Field.func?, named, params, results, locals, back, code]

def Denotes (lines : List String) (fields : List Field) : Prop :=
  ∃ es, ReadsLines lines (itemTokens es) ∧ es.mapM Field.ofExpr = some fields

namespace Denotes

variable {xs ys : List String} {fs gs : List Field}

theorem nil : Denotes [] [] :=
  ⟨[], Reads.nil, rfl⟩

theorem append (first : Denotes xs fs) (second : Denotes ys gs) : Denotes (xs ++ ys) (fs ++ gs) := by
  obtain ⟨es, before, firstRead⟩ := first
  obtain ⟨ds, after, secondRead⟩ := second
  refine ⟨es ++ ds, ?_, by simp [mapM_append, firstRead, secondRead]⟩
  rw [itemTokens_append]
  exact before.append after

theorem flatMap {α : Type} {lines : α → List String} {fields : α → List Field} {items : List α}
    (each : ∀ a ∈ items, Denotes (lines a) (fields a)) :
    Denotes (items.flatMap lines) (items.flatMap fields) := by
  induction items with
  | nil => exact nil
  | cons a items ih =>
    rw [forall_mem_cons] at each
    exact each.1.append (ih each.2)

theorem single {e : Expr} {f : Field} (reads : ReadsLines xs e.tokens)
    (read : Field.ofExpr e = some f) : Denotes xs [f] := by
  refine ⟨[e], ?_, by simp [read]⟩
  simpa [itemTokens] using reads

end Denotes

end Wat

/-! ## Functions -/

/-- The parameters of a function. -/
def paramsBelow (count : UInt32) : List (String × ValueType) :=
  (numbersBelow count).map fun n => ("$a" ++ toString n, .i64)

/-- The locals of a body. -/
def localsBelow (count : UInt32) (hasPc : Bool) : List (String × ValueType) :=
  ((numbersBelow count).map fun n => ("$v" ++ toString n, .i64)) ++
    if hasPc then [("$pc", .i32)] else []

/-- A function as its text declares it. -/
def FuncDef.toWat (f : FuncDef) : Wat.Func where
  name := "$" ++ funcExport f.index
  exported := funcExport f.index
  params := paramsBelow f.paramCount
  results := [.i64]
  locals := localsBelow f.localCount f.hasPc
  code := codeOps f.body

/-- The entry point as its text declares it. -/
def MainDef.toWat (e : MainDef) : Wat.Func where
  name := "$" ++ mainExport
  exported := mainExport
  params := []
  results := []
  locals := localsBelow 0 e.hasPc
  code := codeOps e.body

/-- A global and its export as their text declares them. -/
def globalFields (name : String) : List Field :=
  [.global ("$" ++ name) 0, .exportGlobal name ("$" ++ name)]

/-- A module as its text declares it. -/
def Module.toWat (m : Module) : Wat.Module where
  fields := .imported "$print_i64" [.i64] ::
    ((numbersBelow m.globalCount).flatMap (fun n => globalFields ("g" ++ toString n)) ++
    m.funcs.map (.func ·.toWat) ++ m.entry.toList.map (.func ·.toWat))

theorem reads_name {name : String} (written : IsWritten name) :
    Reads (name.toList ++ [' ']) [.word name] := by
  have blank : Reads [' '] [] := fun _ => rfl
  simpa using Reads.token written.token (by decide) blank

theorem isWritten_param (n : Nat) : IsWritten ("$a" ++ toString n) :=
  .numbered ['a'] n (by simp [digits]) (by decide)

theorem isWritten_local (n : Nat) : IsWritten ("$v" ++ toString n) :=
  .numbered ['v'] n (by simp [digits]) (by decide)

theorem reads_param (n : Nat) : Reads (" (param $a" ++ toString n ++ " i64)").toList
    (declarationExpr "param" ("$a" ++ toString n, .i64)).tokens := by
  have opened : Reads " (param ".toList [.opened, .word "param"] := fun _ => rfl
  have closed : Reads "i64)".toList [.word "i64", .closed] := fun _ => rfl
  simpa [declarationExpr, Expr.tokens, itemTokens, ValueType.text] using
    opened.append ((reads_name (isWritten_param n)).append closed)

theorem readsLines_local (n : Nat) : ReadsLines [lineAt 2 ("(local $v" ++ toString n ++ " i64)")]
    (declarationExpr "local" ("$v" ++ toString n, .i64)).tokens := by
  have opened : Reads "(local ".toList [.opened, .word "local"] := fun _ => rfl
  have closed : Reads "i64)\n".toList [.word "i64", .closed] := fun _ => rfl
  refine .indented 2 ?_
  simpa [declarationExpr, Expr.tokens, itemTokens, ValueType.text] using
    opened.append ((reads_name (isWritten_local n)).append closed)

theorem readsLines_pc (hasPc : Bool) : ReadsLines (pcLines hasPc)
    (itemTokens ((if hasPc then [("$pc", .i32)] else []).map (declarationExpr "local"))) := by
  cases hasPc with
  | false => exact Reads.nil
  | true =>
    have line : Reads "(local $pc i32)\n".toList
      [.opened, .word "local", .word "$pc", .word "i32", .closed] := fun _ => rfl
    exact .indented 2 line

theorem reads_opening {name : String} (written : IsWritten ("$" ++ name)) :
    Reads ("(func $" ++ name ++ " (export \"" ++ name ++ "\")").toList
      [.opened, .word "func", .word ("$" ++ name), .opened, .word "export", .quoted name, .closed] := by
  have opened : Reads "(func ".toList [.opened, .word "func"] := fun _ => rfl
  have export' : Reads "(export ".toList [.opened, .word "export"] := fun _ => rfl
  have closed : Reads ")".toList [.closed] := fun _ => rfl
  have word : ∀ c ∈ name.toList, isWordChar c = true := fun c member =>
    written.token.chars c (by simp [member])
  simpa using opened.append ((reads_name written).append
    (export'.append ((Reads.quoted word).append closed)))

theorem reads_params (count : UInt32) :
    Reads (String.join ((numbersBelow count).map fun n => " (param $a" ++ toString n ++ " i64)")).toList
      (itemTokens ((paramsBelow count).map (declarationExpr "param"))) := by
  rw [String.join_eq, String.toList_ofList, map_map, ← flatMap_def, itemTokens_eq, paramsBelow,
    map_map, flatMap_map]
  exact .flatMap fun n _ => reads_param n

theorem readsLines_locals (count : UInt32) (hasPc : Bool) :
    ReadsLines (((numbersBelow count).map fun n => lineAt 2 ("(local $v" ++ toString n ++ " i64)")) ++
      pcLines hasPc) (itemTokens ((localsBelow count hasPc).map (declarationExpr "local"))) := by
  rw [localsBelow, map_append, itemTokens_append]
  refine .append ?_ (readsLines_pc hasPc)
  rw [itemTokens_eq, map_map, flatMap_map, map_eq_flatMap]
  exact .flatMap fun n _ => readsLines_local n

theorem denotes_definition {f : Wat.Func} {header : String} {locals code : List String}
    (named : isName f.name = true) (declared : ∀ v ∈ f.params ++ f.locals, isName v.1 = true)
    (opening : Reads (header.toList ++ ['\n'])
      ([.opened, .word "func", .word f.name, .opened, .word "export", .quoted f.exported, .closed] ++
        itemTokens (f.params.map (declarationExpr "param") ++ f.results.map resultExpr)))
    (declares : ReadsLines locals (itemTokens (f.locals.map (declarationExpr "local"))))
    (body : Spells code f.code) :
    Denotes (lineAt 1 header :: (locals ++ code ++ [lineAt 1 ")"])) [.func f] := by
  obtain ⟨words, reads, read⟩ := body
  refine .single ?_ (ofExpr_funcExpr named declared read)
  have closing : Reads (")".toList ++ ['\n']) [.closed] := fun _ => rfl
  have whole := (ReadsLines.indented 1 opening).append
    ((declares.append reads).append (.indented 1 closing))
  rw [singleton_append] at whole
  simpa [funcExpr, Expr.tokens, itemTokens, itemTokens_append, itemTokens_words] using whole

theorem isName_declared {count locals : UInt32} {hasPc : Bool} {v : String × ValueType}
    (member : v ∈ paramsBelow count ++ localsBelow locals hasPc) : isName v.1 = true := by
  simp only [paramsBelow, localsBelow, mem_append, mem_map] at member
  rcases member with ⟨n, -, rfl⟩ | ⟨n, -, rfl⟩ | pc
  · exact (isWritten_param n).isName
  · exact (isWritten_local n).isName
  · cases hasPc with
    | false => cases pc
    | true =>
      rw [mem_singleton.1 pc]
      rfl

theorem denotes_func (f : FuncDef) : Denotes f.lines [.func f.toWat] := by
  have written := isWritten_func f.index
  have result : Reads " (result i64)\n".toList [.opened, .word "result", .word "i64", .closed] :=
    fun _ => rfl
  refine denotes_definition written.isName (fun v member => isName_declared member) ?_
    (readsLines_locals f.localCount f.hasPc) (spells_codeLines f.body 2)
  have whole := (reads_opening written).append ((reads_params f.paramCount).append result)
  simpa [FuncDef.toWat, itemTokens_append, itemTokens, resultExpr, Expr.tokens, ValueType.text] using
    whole

theorem denotes_main (e : MainDef) : Denotes e.lines [.func e.toWat] := by
  have written : IsWritten ("$" ++ mainExport) := .literal (by decide) (by decide)
  have feed : Reads ['\n'] [] := fun _ => rfl
  have declared : ∀ v ∈ paramsBelow 0 ++ localsBelow 0 e.hasPc, isName v.1 = true :=
    fun v member => isName_declared member
  refine denotes_definition written.isName declared ?_ (readsLines_locals 0 e.hasPc)
    (spells_codeLines e.body 2)
  simpa [MainDef.toWat, itemTokens] using (reads_opening written).append feed

/-! ## Modules -/

theorem denotes_global {name : String} (written : IsWritten ("$" ++ name)) :
    Denotes [lineAt 1 ("(global $" ++ name ++ " (mut i64) (i64.const 0))"),
      lineAt 1 ("(export \"" ++ name ++ "\" (global $" ++ name ++ "))")] (globalFields name) := by
  have opened : Reads "(global ".toList [.opened, .word "global"] := fun _ => rfl
  have definition : Denotes [lineAt 1 ("(global $" ++ name ++ " (mut i64) (i64.const 0))")]
      [.global ("$" ++ name) 0] := by
    have closed : Reads "(mut i64) (i64.const 0))\n".toList [.opened, .word "mut", .word "i64", .closed,
      .opened, .word "i64.const", .word "0", .closed, .closed] := fun _ => rfl
    refine .single (e := .list [.word "global", .word ("$" ++ name),
      .list [.word "mut", .word "i64"], .list [.word "i64.const", .word "0"]]) (.indented 1 ?_) ?_
    · simpa [Expr.tokens, itemTokens] using opened.append ((reads_name written).append closed)
    · have zero : number? "0" = some 0 := by decide
      simp [Field.ofExpr, Field.global?, written.isName, zero]
  have exported : Denotes [lineAt 1 ("(export \"" ++ name ++ "\" (global $" ++ name ++ "))")]
      [.exportGlobal name ("$" ++ name)] := by
    have start : Reads "(export ".toList [.opened, .word "export"] := fun _ => rfl
    have blank : Reads [' '] [] := fun _ => rfl
    have ending : Reads [')'] [.closed] := fun _ => rfl
    have closed : Reads ")\n".toList [.closed] := fun _ => rfl
    have word : ∀ c ∈ name.toList, isWordChar c = true := fun c member =>
      written.token.chars c (by simp [member])
    refine .single (e := .list [.word "export", .quoted name,
      .list [.word "global", .word ("$" ++ name)]]) (.indented 1 ?_) ?_
    · simpa [Expr.tokens, itemTokens] using start.append ((Reads.quoted word).append (blank.append
        (opened.append ((Reads.token written.token (by decide) ending).append closed))))
    · simp [Field.ofExpr, Field.export?, written.isName]
  exact definition.append exported

theorem denotes_import :
    Denotes [lineAt 1 "(import \"env\" \"print_i64\" (func $print_i64 (param i64)))"]
      [.imported "$print_i64" [.i64]] := by
  refine .single (e := .list [.word "import", .quoted "env", .quoted "print_i64",
    .list [.word "func", .word "$print_i64", .list [.word "param", .word "i64"]]])
    (.indented 1 fun _ => rfl) ?_
  rfl

/-- The lines of the fields, between the first and the last line. -/
theorem ofText_of_denotes {lines : List String} {fields : List Field} (denotes : Denotes lines fields) :
    Wat.Module.ofText (Text.unlines (["(module"] ++ lines ++ [")"])) = some ⟨fields⟩ := by
  obtain ⟨es, reads, read⟩ := denotes
  have opening : ReadsLines ["(module"] [.opened, .word "module"] := .single fun _ => rfl
  have closing : ReadsLines [")"] [.closed] := .single fun _ => rfl
  have whole : ReadsLines (["(module"] ++ lines ++ [")"])
      (itemTokens [.list (.word "module" :: es)]) := by
    simpa [itemTokens, Expr.tokens] using (opening.append reads).append closing
  have lexed : tokens (Text.unlines (["(module"] ++ lines ++ [")"])).toList =
      some (itemTokens [.list (.word "module" :: es)]) := by
    rw [tokens, toList_unlines, whole []]
    simp
  rw [Wat.Module.ofText, lexed]
  simp [ofTokens_itemTokens, read]

theorem ofText_text (m : Module) : Wat.Module.ofText m.text = some m.toWat := by
  have globals : Denotes ((numbersBelow m.globalCount).flatMap globalLines)
      ((numbersBelow m.globalCount).flatMap fun n => globalFields ("g" ++ toString n)) :=
    .flatMap fun n _ => denotes_global (.numbered ['g'] n (by simp [digits]) (by decide))
  have funcs : Denotes (m.funcs.flatMap FuncDef.lines) (m.funcs.map (.func ·.toWat)) := by
    rw [map_eq_flatMap]
    exact .flatMap fun f _ => denotes_func f
  have entry : Denotes (m.entry.toList.flatMap MainDef.lines) (m.entry.toList.map (.func ·.toWat)) := by
    rw [map_eq_flatMap]
    exact .flatMap fun e _ => denotes_main e
  have inner := ((denotes_import.append globals).append funcs).append entry
  exact ofText_of_denotes inner

end SlotLang.Assembly
