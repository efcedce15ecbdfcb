import SlotLang.Proofs.Script.Source
import SlotLang.Proofs.Subset.Programs

/-!
# What is read of a source

The lines of a source that are read are those outside of helper blocks. A block is known by the start
of its first line alone, so the text of a helper function plays no role. What is read is lowered in
full: the program has one function for each definition, and a call enters the function of its name.
-/

open List

namespace SlotLang.Subset

/-! ## Lines -/

/-- The last of some lines is inside a block that starts like a helper function: behind the first
line of the block, nothing but the preamble stands at the left margin. -/
def InHelper (lines : List (List Char)) : Prop :=
  ∃ before first inside, lines = before ++ first :: inside ∧ isHelperLine first = true ∧
    ∀ line ∈ inside, isPreambleLine line = true ∨ isInnerLine line = true

theorem not_isPreambleLine_of_isHelperLine {cs : List Char} (helper : isHelperLine cs = true) :
    isPreambleLine cs = false := by
  obtain ⟨name, -, start⟩ := any_eq_true.1 helper
  obtain ⟨rest, rfl⟩ := isPrefixOf_iff_prefix.1 start
  simp [isPreambleLine, List.isPrefixOf]

/-- One more line starts a block or goes on with one. -/
theorem inHelper_append {lines : List (List Char)} {line : List Char} :
    InHelper (lines ++ [line]) ↔ isHelperLine line = true ∨
      InHelper lines ∧ (isPreambleLine line = true ∨ isInnerLine line = true) := by
  constructor
  · rintro ⟨before, first, inside, same, helper, inner⟩
    rcases eq_nil_or_concat inside with rfl | ⟨inside, last, rfl⟩
    · obtain ⟨-, here⟩ := append_inj' same rfl
      cases here
      exact .inl helper
    · have same : lines ++ [line] = (before ++ first :: inside) ++ [last] := by simpa using same
      obtain ⟨rfl, here⟩ := append_inj' same rfl
      cases here
      exact .inr ⟨⟨before, first, inside, rfl, helper, fun line member => inner line (by simp [member])⟩,
        inner line (by simp)⟩
  · rintro (helper | ⟨⟨before, first, inside, rfl, helper, inner⟩, here⟩)
    · exact ⟨lines, line, [], rfl, helper, nofun⟩
    · refine ⟨before, first, inside ++ [line], by simp, helper, fun other member => ?_⟩
      rcases mem_append.1 member with earlier | last
      · exact inner other earlier
      · exact mem_singleton.1 last ▸ here

theorem inHelperAfter_append (inHelper : Bool) (lines : List (List Char)) (line : List Char) :
    inHelperAfter inHelper (lines ++ [line]) = (blanked (inHelperAfter inHelper lines) line).1 := by
  rw [inHelperAfter, foldl_append]
  rfl

theorem inHelperAfter_iff (lines : List (List Char)) :
    inHelperAfter false lines = true ↔ InHelper lines := by
  induction lines using List.reverseRecOn with
  | nil =>
    refine ⟨nofun, fun ⟨before, first, inside, same, _⟩ => ?_⟩
    cases before <;> cases same
  | append_singleton lines line ih =>
    rw [inHelperAfter_append, inHelper_append, ← ih, blanked]
    cases preamble : isPreambleLine line with
    | true =>
      have plain : isHelperLine line = false :=
        Bool.eq_false_iff.2 fun helper => Bool.false_ne_true
          ((not_isPreambleLine_of_isHelperLine helper).symm.trans preamble)
      simp [plain]
    | false => simp

instance (lines : List (List Char)) : Decidable (InHelper lines) :=
  decidable_of_iff _ (inHelperAfter_iff lines)

/-- Lines with nothing left of the preamble and of helper blocks. -/
def outsideHelpers (lines : List (List Char)) : List (List Char) :=
  lines.mapIdx fun k line =>
    if isPreambleLine line = true ∨ InHelper (lines.take (k + 1)) then [] else line

theorem blankedAll_eq (before lines : List (List Char)) :
    blankedAll (inHelperAfter false before) lines = lines.mapIdx fun k line =>
      if isPreambleLine line = true ∨ InHelper (before ++ lines.take (k + 1)) then [] else line := by
  induction lines generalizing before with
  | nil => rfl
  | cons line rest ih =>
    have later := ih (before ++ [line])
    simp only [append_assoc, singleton_append] at later
    rw [blankedAll, ← inHelperAfter_append, later, mapIdx_cons]
    refine congrArg (· :: _) ?_
    simp only [take_succ_cons, take_zero, ← inHelperAfter_iff, inHelperAfter_append, blanked]
    cases isPreambleLine line <;> simp

/-- What is read of a source is what stands outside of helper blocks. -/
theorem toList_withoutHelpers_eq (source : String) :
    (withoutHelpers source).toList =
      ['\n'].intercalate (outsideHelpers (Text.terminatedLines source.toList)) := by
  have back (lines : List (List Char)) : (lines.map String.ofList).map String.toList = lines := by
    simp [Function.comp_def]
  rw [withoutHelpers, String.toList_intercalate, map_blankHelpers, back]
  exact congrArg _ (blankedAll_eq [] _)

/-! ## Definitions -/

/-- The functions that statements define at module level, numbered from `n`. -/
def definitions (n : Nat) : List Stmt → List Def
  | [] => []
  | .funcDef name params body line :: rest =>
    ⟨UInt32.ofNat n, name, params, body, line⟩ :: definitions (n + 1) rest
  | _ :: rest => definitions n rest

/-- Functions with names that are not builtins and tell them apart. -/
def AreNamed (defs : List Def) : Prop :=
  ∀ d ∈ defs, d.name ∉ builtins ∧ defs.find? (·.name = d.name) = some d

variable {found defs : List Def} {body : List Stmt} {d : Def} {p : Program}

theorem AreNamed.append (named : AreNamed found) (own : d.name ∉ builtins)
    (fresh : ∀ other ∈ found, other.name ≠ d.name) : AreNamed (found ++ [d]) := by
  intro other member
  rw [find?_append]
  rcases mem_append.1 member with earlier | last
  · rw [(named other earlier).2]
    exact ⟨(named other earlier).1, rfl⟩
  · obtain rfl := mem_singleton.1 last
    have none : found.find? (·.name = other.name) = none := by simpa using fresh
    rw [none]
    exact ⟨own, by simp⟩

/-- The functions of a module are its definitions. -/
theorem eq_definitions (collected : collectDefs found body = .ok defs) (named : AreNamed found) :
    defs = found ++ definitions found.length body ∧ AreNamed defs := by
  induction body generalizing found with
  | nil =>
    cases collected
    exact ⟨(append_nil _).symm, named⟩
  | cons stmt rest ih =>
    rcases collectDefs_cons_ok collected with ⟨name, params, body, line, rfl, -⟩ | ⟨other, next⟩
    · obtain ⟨own, fresh, next⟩ := collectDefs_funcDef_ok collected
      obtain ⟨rfl, named⟩ := ih next (named.append own fresh)
      exact ⟨by simp [definitions], named⟩
    · obtain ⟨rfl, named⟩ := ih next named
      refine ⟨congrArg _ ?_, named⟩
      cases stmt with
      | funcDef name params body line => exact absurd rfl (other name params body line)
      | _ => rfl

/-- A function of a program is made from the body of a definition, and calls enter it: the code of
every call of its name ends with a call of its number, and this number stands for the function. -/
structure IsLowered (m : ModuleScope) (p : Program) (d : Def) (f : Func) : Prop where
  own : d.name ∉ builtins
  made : lowerDef m d (.ofBody d.params d.body) = .ok f
  called {scope : Option FuncScope} {line : Nat} {args : List Expr} {dest : Operand} {k k' : Counters}
    {code : Code} (call : (plan ⟨m, scope, line⟩ (.call d.name args)).into dest k = .ok (code, k')) :
    ∃ xs os, readAll ⟨m, scope, line⟩ (parts ⟨m, scope, line⟩ args) k = .ok ((xs, os), k') ∧
      code = xs ++ [⟨.call, dest :: .ofIndex d.index :: os, line⟩]
  entered (e : Environment) : (e.defineAll p.funcs).funcs.get? d.index = some (.ofFunc f)

theorem call_into_ok {c : Context} {args : List Expr} {dest : Operand} {k k' : Counters} {code : Code}
    (own : d.name ∉ builtins) (known : c.module.func? d.name = some d)
    (call : (plan c (.call d.name args)).into dest k = .ok (code, k')) :
    ∃ xs os, readAll c (parts c args) k = .ok ((xs, os), k') ∧
      code = xs ++ [c.ins .call (dest :: .ofIndex d.index :: os)] := by
  rw [plan] at call
  rcases callPlan_cases c d.name (parts c args) with ⟨construct, refused⟩ | ⟨a, pass, -⟩ |
    ⟨a, b, division, -⟩ | ⟨d', -, known', -, planned⟩
  · rw [refused] at call
    cases call
  · have names : d.name = "int" ∨ d.name = "_wrap" := by simpa [isPassthrough] using pass
    exact absurd (by rcases names with same | same <;> simp [same, builtins]) own
  · exact absurd (by rcases division with same | same <;> simp [same, builtins]) own
  · cases known.symm.trans known'
    rw [planned] at call
    exact callInto_ok call

theorem Lowers.isLowered (lowers : Lowers body defs p) (named : AreNamed defs)
    (few : p.funcs.length ≤ 0x100000000) :
    List.Forall₂ (IsLowered (.ofProgram defs body) p) defs p.funcs := by
  have nodup : (p.funcs.map Func.index).Nodup := by
    rw [index_of_lowerDef lowers.funcs]
    exact nodup_index lowers.collected (lowers.funcs.length_eq ▸ few)
  refine forall₂_iff_get.2 ⟨lowers.funcs.length_eq, fun i inDefs inFuncs => ?_⟩
  have made := List.Forall₂.get lowers.funcs inDefs inFuncs
  obtain ⟨own, found⟩ := named _ (get_mem defs ⟨i, inDefs⟩)
  refine ⟨own, made, call_into_ok own found, fun e => ?_⟩
  obtain ⟨code, -, shape⟩ := lowerDef_ok made
  have index : (defs.get ⟨i, inDefs⟩).index = (p.funcs.get ⟨i, inFuncs⟩).index := shape ▸ rfl
  rw [index]
  exact Environment.get?_defineAll nodup (get_mem _ _)

/-- Every definition of what is read has a function of the program, made from its own body, and calls
of its name enter that function. What is read is the source without its preamble and without every
block that starts like a helper function. -/
theorem definitions_lowered_outside_helpers {source : String}
    (accepted : Program.ofPython source = .ok p) (few : p.funcs.length ≤ 0x100000000) :
    (withoutHelpers source).toList =
        ['\n'].intercalate (outsideHelpers (Text.terminatedLines source.toList)) ∧
      ∃ body, parse (withoutHelpers source) = .ok body ∧
        List.Forall₂ (IsLowered (.ofProgram (definitions 0 body) body) p) (definitions 0 body)
          p.funcs := by
  obtain ⟨body, read, lowered⟩ := bind_eq_ok.1 accepted
  obtain ⟨defs, lowers⟩ := lower_ok lowered
  obtain ⟨rfl, named⟩ := eq_definitions lowers.collected nofun
  exact ⟨toList_withoutHelpers_eq source, body, read, lowers.isLowered named few⟩

/-- A function of one's own with the name of a helper function. -/
def ownDivision : String :=
  "def _div(a, b):\n    return 42\ndef half(a):\n    return _div(a, 2)\nprint(half(7))\n"

def ownDivisionProgram : Program where
  code := [⟨.call, [.global 0, .lit 0, .lit 7], 5⟩, ⟨.output, [.global 0], 5⟩]
  funcs := [⟨0, 1, 1, [⟨.binary .div, [.var 0, .arg 0, .lit 2], 4⟩, ⟨.ret, [.var 0], 4⟩], 3⟩]
  globalCount := 1

/-- The other function is lowered. -/
theorem definitions_lowered_outside_helpers_ownDivision :
    Program.ofPython ownDivision = .ok ownDivisionProgram ∧
      ownDivisionProgram.funcs.length ≤ 0x100000000 ∧
      (withoutHelpers ownDivision).toList =
        "\n\ndef half(a):\n    return _div(a, 2)\nprint(half(7))".toList ∧
      ∃ body, parse (withoutHelpers ownDivision) = .ok body ∧
        List.Forall₂ (IsLowered (.ofProgram (definitions 0 body) body) ownDivisionProgram)
          (definitions 0 body) ownDivisionProgram.funcs := by
  have accepted : Program.ofPython ownDivision = .ok ownDivisionProgram := by decide +kernel
  have few : ownDivisionProgram.funcs.length ≤ 0x100000000 := by decide
  obtain ⟨text, functions⟩ := definitions_lowered_outside_helpers accepted few
  refine ⟨accepted, few, text.trans ?_, functions⟩
  decide +kernel

/-- The source is accepted, and what its calls compute is not what it defines. -/
theorem ownDivision_discarded :
    Program.ofPython ownDivision = .ok ownDivisionProgram ∧
      (Environment.run {} {} ownDivisionProgram).outputs = [3] :=
  ⟨by decide +kernel, by cbv⟩

end SlotLang.Subset
