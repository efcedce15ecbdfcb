import Mathlib.Data.List.Nodup
import SlotLang.Proofs.Assembly.Agreement
import SlotLang.Proofs.Wat.Fields
import SlotLang.Proofs.Wat.Pieces

/-!
# Emitted text is valid

The text of the module of a program denotes a module that obeys the rules: its names are declared once
and refer to what code expects (`names_func`, `names_main`), the code of every body is valid, and
between two instructions of the program and around every segment no operands are left
(`emitted_text_validates`).
-/

open List

namespace SlotLang.Assembly

open Wat

/-! ## Distinct names -/

theorem lookup_of_mem {α β : Type} [DecidableEq α] {entries : List (α × β)} {key : α} {v : β}
    (distinct : (entries.map Prod.fst).Nodup) (member : (key, v) ∈ entries) :
    entries.lookup key = some v := by
  induction entries with
  | nil => cases member
  | cons entry rest ih =>
    obtain ⟨k, w⟩ := entry
    rw [map_cons, nodup_cons] at distinct
    rw [lookup_cons_ite]
    rcases mem_cons.1 member with same | later
    · cases same
      rw [if_pos rfl]
    · have other : key ≠ k := by
        rintro rfl
        exact distinct.1 (mem_map.2 ⟨_, later, rfl⟩)
      rw [if_neg other, ih distinct.2 later]

theorem mem_of_lookup {α β : Type} [DecidableEq α] {entries : List (α × β)} {key : α} {v : β}
    (found : entries.lookup key = some v) : (key, v) ∈ entries := by
  induction entries with
  | nil => cases found
  | cons entry rest ih =>
    obtain ⟨k, w⟩ := entry
    rw [lookup_cons_ite] at found
    split at found
    · next same =>
      cases found
      rw [same]
      exact mem_cons_self
    · exact mem_cons_of_mem _ (ih found)

theorem numbered_inj (letters : String) {a b : Nat}
    (same : letters ++ toString a = letters ++ toString b) :
    a = b :=
  toString_inj ((String.append_right_inj letters).1 same)

theorem nodup_numbered (letters : String) (count : UInt32) :
    ((numbersBelow count).map fun n => letters ++ toString n).Nodup := by
  refine List.Nodup.map (fun a b same => ?_) nodup_range
  exact numbered_inj letters same

theorem ne_of_char {x y : String} (k : Nat) (apart : x.toList[k]? ≠ y.toList[k]?) : x ≠ y := by
  rintro rfl
  exact apart rfl

theorem nodup_locals (params locals : UInt32) (hasPc : Bool) :
    ((paramsBelow params ++ localsBelow locals hasPc).map Prod.fst).Nodup := by
  have names : (paramsBelow params ++ localsBelow locals hasPc).map Prod.fst =
      ((numbersBelow params).map fun n => "$a" ++ toString n) ++
        (((numbersBelow locals).map fun n => "$v" ++ toString n) ++ if hasPc then ["$pc"] else []) := by
    cases hasPc <;> simp [paramsBelow, localsBelow, Function.comp_def]
  have pc : ∀ name ∈ (if hasPc then ["$pc"] else []), name = "$pc" := by
    cases hasPc <;> simp
  rw [names, nodup_append, nodup_append]
  refine ⟨nodup_numbered "$a" params, ⟨nodup_numbered "$v" locals, ?_, ?_⟩, ?_⟩
  · cases hasPc <;> simp
  · intro x first y second
    obtain ⟨n, -, rfl⟩ := mem_map.1 first
    rw [pc y second]
    exact ne_of_char 1 (by simp)
  · intro x first y second
    obtain ⟨n, -, rfl⟩ := mem_map.1 first
    rcases mem_append.1 second with number | last
    · obtain ⟨k, -, rfl⟩ := mem_map.1 number
      exact ne_of_char 1 (by simp)
    · rw [pc y last]
      exact ne_of_char 1 (by simp)

/-! ## What a module declares -/

section Modules

variable (m : Module)

/-- What the fields of a module declare is what its parts declare. -/
theorem filterMap_fields {α : Type} (pick : Field → Option α) :
    m.toWat.fields.filterMap pick = (pick (.imported "$print_i64" [.i64])).toList ++
      (((numbersBelow m.globalCount).flatMap fun n =>
        (globalFields ("g" ++ toString n)).filterMap pick) ++
        (m.funcs.filterMap (fun f => pick (.func f.toWat)) ++
          m.entry.toList.filterMap fun e => pick (.func e.toWat))) := by
  rw [Module.toWat, filterMap_cons]
  simp only [filterMap_append, filterMap_flatMap, filterMap_map, Function.comp_def, append_assoc]
  cases pick (.imported "$print_i64" [.i64]) <;> rfl

theorem globals_toWat :
    m.toWat.globals = (numbersBelow m.globalCount).map fun n => "$" ++ ("g" ++ toString n) := by
  rw [Wat.Module.globals, filterMap_fields]
  simp [Field.globalName?, globalFields, map_eq_flatMap, filterMap_cons]

/-- The functions of a module with their types. -/
def declaredFuncs : List (String × FuncType) :=
  ("$print_i64", [.i64], []) ::
    (m.funcs.map (fun f => ("$" ++ funcExport f.index, List.replicate f.paramCount.toNat .i64, [.i64])) ++
      m.entry.toList.map fun _ => ("$" ++ mainExport, [], []))

theorem types_paramsBelow (count : UInt32) :
    (paramsBelow count).map Prod.snd = List.replicate count.toNat .i64 := by
  simp [paramsBelow, numbersBelow, Function.comp_def]

theorem funcTypes_toWat : m.toWat.funcTypes = declaredFuncs m := by
  rw [Wat.Module.funcTypes, filterMap_fields]
  simp [Field.funcType?, globalFields, declaredFuncs, FuncDef.toWat, MainDef.toWat, types_paramsBelow]

theorem exports_toWat : m.toWat.exports =
    ((numbersBelow m.globalCount).map fun n => "g" ++ toString n) ++
      (m.funcs.map (fun f => funcExport f.index) ++ m.entry.toList.map fun _ => mainExport) := by
  rw [Wat.Module.exports, filterMap_fields]
  simp [Field.exportName?, globalFields, FuncDef.toWat, MainDef.toWat, map_eq_flatMap,
    filterMap_cons]

end Modules

section Distinct

variable {m : Module}

theorem nodup_globals (m : Module) : m.toWat.globals.Nodup := by
  rw [globals_toWat]
  refine List.Nodup.map (fun a b same => ?_) nodup_range
  exact numbered_inj "g" ((String.append_right_inj "$").1 same)

variable (distinct : (m.funcs.map FuncDef.index).Nodup)

include distinct

theorem nodup_funcNames :
    (m.funcs.map (fun f => funcExport f.index) ++ m.entry.toList.map fun _ => mainExport).Nodup := by
  rw [nodup_append]
  refine ⟨?_, ?_, ?_⟩
  · have names := List.Nodup.map (fun a b same => funcExport_inj.1 same) distinct
    rwa [map_map] at names
  · cases m.entry <;> simp
  · intro x func y main
    obtain ⟨f, -, rfl⟩ := mem_map.1 func
    obtain ⟨e, -, rfl⟩ := mem_map.1 main
    exact funcExport_ne_main f.index

theorem nodup_funcTypes : (m.toWat.funcTypes.map Prod.fst).Nodup := by
  have names : m.toWat.funcTypes.map Prod.fst = "$print_i64" ::
      (m.funcs.map (fun f => funcExport f.index) ++ m.entry.toList.map fun _ => mainExport).map
        ("$" ++ ·) := by
    simp [funcTypes_toWat, declaredFuncs, Function.comp_def]
  rw [names, nodup_cons]
  refine ⟨fun member => ?_, (nodup_funcNames distinct).map fun a b same =>
    (String.append_right_inj "$").1 same⟩
  obtain ⟨name, there, same⟩ := mem_map.1 member
  rcases mem_append.1 there with func | main
  · obtain ⟨f, -, rfl⟩ := mem_map.1 func
    exact ne_of_char 1 (by simp [funcExport]) same
  · obtain ⟨e, -, rfl⟩ := mem_map.1 main
    exact ne_of_char 1 (by simp [mainExport]) same

theorem nodup_exports : m.toWat.exports.Nodup := by
  rw [exports_toWat, nodup_append]
  refine ⟨nodup_numbered "g" m.globalCount, nodup_funcNames distinct, ?_⟩
  intro x first y second
  obtain ⟨n, -, rfl⟩ := mem_map.1 first
  rcases mem_append.1 second with func | main
  · obtain ⟨f, -, rfl⟩ := mem_map.1 func
    exact ne_of_char 0 (by simp [funcExport])
  · obtain ⟨e, -, rfl⟩ := mem_map.1 main
    exact ne_of_char 0 (by simp [mainExport])

end Distinct

/-! ## Bodies -/

/-- A function whose code is that of a body, and which declares what the body has. -/
structure Realizes (p : Program) (b : Body) (f : Wat.Func) : Prop where
  code : ∃ xs, bodyCode p b.inFunc b.code = .ok xs ∧
    f.code = codeOps xs ++ if b.inFunc then [.const .i64 0] else []
  results : f.results = if b.inFunc then [.i64] else []
  slots : ∃ params locals : UInt32, params.toNat = b.argCount ∧ locals.toNat = b.varCount ∧
    f.params ++ f.locals = paramsBelow params ++ localsBelow locals (hasControl b.code)

section Programs

variable {p : Program} {m : Module} {main : List Instr} (sound : p.Sound 0) (emitted : Emitted p m main)
  {b : Body} {f : Wat.Func} (realizes : Realizes p b f)

include realizes in
theorem Realizes.lookup {r : Register} {type : ValueType}
    (found : (declaredIn p b).registerType? r = some type) :
    (f.params ++ f.locals).lookup r.text = some type := by
  obtain ⟨params, locals, args, vars, same⟩ := realizes.slots
  rw [same]
  refine lookup_of_mem (nodup_locals params locals (hasControl b.code)) ?_
  cases r with
  | var n =>
    obtain ⟨small, ⟨⟩⟩ := Option.ite_none_right_eq_some.1 found
    have below : n.toNat < locals.toNat := vars ▸ small
    refine mem_append_right _ (mem_append_left _ ?_)
    exact mem_map.2 ⟨n.toNat, mem_range.2 below, rfl⟩
  | arg n =>
    obtain ⟨small, ⟨⟩⟩ := Option.ite_none_right_eq_some.1 found
    have below : n.toNat < params.toNat := args ▸ small
    exact mem_append_left _ (mem_map.2 ⟨n.toNat, mem_range.2 below, rfl⟩)
  | pc =>
    obtain ⟨control, ⟨⟩⟩ := Option.ite_none_right_eq_some.1 found
    have control : hasControl b.code = true := control
    simp [localsBelow, control, Register.text]

include sound emitted realizes in
/-- The text declares under its name whatever the code of a body refers to. -/
theorem names_body : Names (declaredIn p b) (m.toWat.contextOf f) where
  globals n small := by
    change _ ∈ m.toWat.globals
    rw [globals_toWat, emitted.globalCount]
    exact mem_map.2 ⟨n.toNat, mem_range.2 small, rfl⟩
  registers r type found := realizes.lookup found
  funcs index n found := by
    refine lookup_of_mem (nodup_funcTypes (emitted.nodup_indices sound)) ?_
    have member := mem_of_lookup found
    change _ ∈ m.toWat.funcTypes
    change (index, n) ∈ p.funcs.map fun f => (f.index, f.paramCount) at member
    rw [← emitted.funcs_eq] at member
    obtain ⟨g, there, same⟩ := mem_map.1 member
    cases same
    rw [funcTypes_toWat]
    exact mem_cons_of_mem _ (mem_append_left _ (mem_map.2 ⟨g, there, rfl⟩))
  print := by
    refine lookup_of_mem (nodup_funcTypes (emitted.nodup_indices sound)) ?_
    change _ ∈ m.toWat.funcTypes
    rw [funcTypes_toWat]
    exact mem_cons_self
  results := realizes.results

variable (countable : Countable p) (body : b ∈ p.bodies)

include sound emitted realizes countable body in
theorem Realizes.codeIsValid : m.toWat.codeIsValid f = true := by
  obtain ⟨xs, compiled, code⟩ := realizes.code
  obtain ⟨u, walk⟩ := walk_body sound countable body compiled (names_body sound emitted realizes)
  have checked := walk.checkAll_eq
  rw [flatMap_bodyPieces compiled] at checked
  rw [Wat.Module.codeIsValid, code, checkAll_append, checked, Option.bind_some, realizes.results]
  cases b.inFunc with
  | false => rfl
  | true => rfl

end Programs

def exportedBodies (p : Program) : List (String × Body) :=
  (mainExport, p.mainBody) :: p.funcs.map fun f => (funcExport f.index, f.toBody)

theorem realizes_func {p : Program} {f : Func} {d : FuncDef} (compiled : funcDef p f = .ok d) :
    Realizes p f.toBody d.toWat := by
  obtain ⟨xs, code, rfl⟩ := funcDef_ok compiled
  refine ⟨⟨xs, code, ?_⟩, rfl, f.paramCount, f.localCount, rfl, rfl, rfl⟩
  change codeOps (xs ++ [.const 0]) = _
  rw [codeOps_append]
  rfl

theorem realizes_main {p : Program} {xs : List Instr} (compiled : bodyCode p false p.code = .ok xs) :
    Realizes p p.mainBody (MainDef.toWat { hasPc := hasControl p.code, body := xs }) :=
  ⟨⟨xs, compiled, (append_nil _).symm⟩, rfl, 0, 0, rfl, rfl, rfl⟩

section Emission

variable {p : Program} {m : Module} {main : List Instr} (emitted : Emitted p m main)

include emitted

theorem exists_realizes {name : String} {b : Body} (member : (name, b) ∈ exportedBodies p) :
    ∃ f, Field.func f ∈ m.toWat.fields ∧ f.exported = name ∧ Realizes p b f := by
  rcases mem_cons.1 member with isMain | isFunc
  · cases isMain
    refine ⟨_, ?_, rfl, realizes_main emitted.code⟩
    refine mem_cons_of_mem _ (mem_append_right _ ?_)
    rw [emitted.entry]
    exact mem_cons_self
  · obtain ⟨f, there, same⟩ := mem_map.1 isFunc
    cases same
    obtain ⟨d, defined, made⟩ := exists_partner emitted.funcs.flip there
    obtain ⟨xs, code, rfl⟩ := funcDef_ok made
    refine ⟨_, ?_, rfl, realizes_func made⟩
    refine mem_cons_of_mem _ (mem_append_left _ (mem_append_right _ ?_))
    exact mem_map_of_mem defined

/-- The fields of a module: what the code of a program needs, and its bodies. -/
theorem field_cases {field : Field}
    (member : field ∈ m.toWat.fields.tail) :
    (∃ n < m.globalCount.toNat, field ∈ globalFields ("g" ++ toString n)) ∨
      ∃ f b, field = .func f ∧ b ∈ p.bodies ∧ Realizes p b f := by
  rcases mem_append.1 member with others | isMain
  · rcases mem_append.1 others with isGlobal | isFunc
    · obtain ⟨n, small, there⟩ := mem_flatMap.1 isGlobal
      exact .inl ⟨n, mem_range.1 small, there⟩
    · obtain ⟨d, there, rfl⟩ := mem_map.1 isFunc
      obtain ⟨f, inProgram, made⟩ := exists_partner emitted.funcs there
      exact .inr ⟨_, _, rfl, Program.toBody_mem inProgram, realizes_func made⟩
  · rw [emitted.entry] at isMain
    rw [mem_singleton.1 isMain]
    exact .inr ⟨_, _, rfl, p.mainBody_mem, realizes_main emitted.code⟩

/-- What the text of an emitted module declares obeys the rules. -/
theorem isValid_toWat (sound : p.Sound 0) (countable : Countable p) : m.toWat.isValid = true := by
  have distinct := emitted.nodup_indices sound
  have fields : m.toWat.fields = .imported "$print_i64" [.i64] :: m.toWat.fields.tail := rfl
  have imports : (m.toWat.fields.dropWhile Field.isImport).all (!·.isImport) = true := by
    rw [fields, dropWhile_cons_of_pos rfl, all_eq_true]
    intro field member
    rcases field_cases emitted ((dropWhile_sublist _).mem member) with ⟨n, -, there⟩ | ⟨f, b, rfl, -⟩
    · rcases mem_pair.1 there with rfl | rfl <;> rfl
    · rfl
  have valid : m.toWat.fields.all m.toWat.fieldIsValid = true := by
    rw [fields, all_cons, all_eq_true.2, Bool.and_true]
    · rfl
    · intro field member
      rcases field_cases emitted member with ⟨n, small, there⟩ | ⟨f, b, rfl, body, realizes⟩
      · rcases mem_pair.1 there with rfl | rfl
        · rfl
        · rw [Wat.Module.fieldIsValid, contains_iff_mem, globals_toWat]
          exact mem_map.2 ⟨n, mem_range.2 small, rfl⟩
      · obtain ⟨params, locals, -, -, same⟩ := realizes.slots
        rw [Wat.Module.fieldIsValid, realizes.codeIsValid sound emitted countable body, Bool.and_true,
          decide_eq_true_eq, same]
        exact nodup_locals params locals _
  rw [Wat.Module.isValid, imports, valid, decide_eq_true (nodup_globals m),
    decide_eq_true (nodup_funcTypes distinct), decide_eq_true (nodup_exports distinct)]
  rfl

end Emission

theorem mem_bodies_of_exported {p : Program} {name : String} {b : Body}
    (member : (name, b) ∈ exportedBodies p) : b ∈ p.bodies := by
  rcases mem_cons.1 member with isMain | isFunc
  · cases isMain
    exact p.mainBody_mem
  · obtain ⟨f, there, same⟩ := mem_map.1 isFunc
    cases same
    exact Program.toBody_mem there

/-- The text of the module of a program that was built denotes a valid module. Each body of the program
is an exported function, whose code is made up of the pieces of the body and, in a function, the result
at its end; no operands are left before, between or behind the pieces. Slots have to be countable, and
labels of one body, which are distinct numbers of 32 bits, must not use up all these numbers: a
branch table would be too long for any module. -/
theorem emitted_text_validates {source : Source} {p : Program} {m : Module}
    (parsed : Program.parse source 0 = .ok p) (countable : Countable p)
    (compiled : Module.ofProgram p = .ok m) :
    m.isValid = true ∧ ∃ w, Wat.Module.ofText m.text = some w ∧ w.isValid = true ∧
      ∀ name b, (name, b) ∈ exportedBodies p → ∃ f, Field.func f ∈ w.fields ∧ f.exported = name ∧
        f.code = ((bodyPieces p b).flatMap Prod.snd ++ if b.inFunc then [.const .i64 0] else []) ∧
        ∀ front back, bodyPieces p b = front ++ back →
          ∃ levels, checkAll (w.contextOf f) [{}] (front.flatMap Prod.snd) = some levels ∧
            settled levels = true := by
  have sound := sound_of_parse parsed
  obtain ⟨main, emitted⟩ := emitted_of_ofProgram compiled
  refine ⟨isValid_of_sound sound countable compiled, m.toWat, ofText_text m,
    isValid_toWat emitted sound countable, fun name b member => ?_⟩
  obtain ⟨f, there, exported, realizes⟩ := exists_realizes emitted member
  obtain ⟨xs, code, same⟩ := realizes.code
  refine ⟨f, there, exported, by rw [same, flatMap_bodyPieces code], fun front back cut => ?_⟩
  obtain ⟨u, walk⟩ := walk_body sound countable (mem_bodies_of_exported member) code
    (names_body sound emitted realizes)
  rw [cut] at walk
  exact walk.settled_between rfl

/-- A function that adds up its first argument in a loop, called in a loop. -/
def multiplier : Source where
  name := "multiplier"
  text := "# 0 2 \x7b\n: 0\n+ v0 v0 a0\n- a1 a1 1\n? a1 0\n^ v0\n\x7d\n" ++
    "= g0 3\n: 1\n$ g1 0 g0 2\n. g1\n- g0 g0 1\n? g0 1\n"

/-- What `multiplier` is parsed to. -/
def multiplierProgram : Program where
  code := [⟨.assign, [.global 0, .lit 3], 8⟩, ⟨.label, [.lit 1], 9⟩,
    ⟨.call, [.global 1, .lit 0, .global 0, .lit 2], 10⟩, ⟨.output, [.global 1], 11⟩,
    ⟨.binary .sub, [.global 0, .global 0, .lit 1], 12⟩, ⟨.jumpIf, [.global 0, .lit 1], 13⟩]
  funcs := [{ index := 0, paramCount := 2, localCount := 1, line := 1
              body := [⟨.label, [.lit 0], 2⟩, ⟨.binary .add, [.var 0, .var 0, .arg 0], 3⟩,
                ⟨.binary .sub, [.arg 1, .arg 1, .lit 1], 4⟩, ⟨.jumpIf, [.arg 1, .lit 0], 5⟩,
                ⟨.ret, [.var 0], 6⟩] }]
  globalCount := 2

set_option maxRecDepth 4000 in
/-- Both bodies of `multiplier` have a dispatch loop, and so blocks to close. -/
theorem emitted_text_validates_multiplier :
    Program.parse multiplier 0 = .ok multiplierProgram ∧ Countable multiplierProgram ∧
    ∃ m, Module.ofProgram multiplierProgram = .ok m ∧ m.isValid = true ∧
      ∃ w, Wat.Module.ofText m.text = some w ∧ w.isValid = true ∧
        ∀ name b, (name, b) ∈ exportedBodies multiplierProgram →
          ∃ f, Field.func f ∈ w.fields ∧ f.exported = name ∧
            f.code = ((bodyPieces multiplierProgram b).flatMap Prod.snd ++
              if b.inFunc then [.const .i64 0] else []) ∧
            ∀ front back, bodyPieces multiplierProgram b = front ++ back →
              ∃ levels, checkAll (w.contextOf f) [{}] (front.flatMap Prod.snd) = some levels ∧
                settled levels = true := by
  have parsed : Program.parse multiplier 0 = .ok multiplierProgram := by cbv
  have globals :
      (slotsIn Operand.globalIndex? multiplierProgram.allCode).all (· < 0xFFFFFFFF) = true := by decide
  have vars : (slotsIn Operand.varIndex? multiplierProgram.allCode).all (· < 0xFFFFFFFF) = true := by
    decide
  have countable : Countable multiplierProgram :=
    ⟨by simpa using globals, by simpa using vars, by decide⟩
  have emits : (Module.ofProgram multiplierProgram).isOk = true := by cbv
  cases compiled : Module.ofProgram multiplierProgram with
  | error e => simp [compiled, Except.isOk, Except.toBool] at emits
  | ok m => exact ⟨parsed, countable, m, rfl, emitted_text_validates parsed countable compiled⟩

end SlotLang.Assembly
