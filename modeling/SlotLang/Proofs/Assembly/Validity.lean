import SlotLang.Proofs.Assembly.Dispatch
import SlotLang.Proofs.Bodies
import SlotLang.Assembly.Check

/-!
# What validity says about a program

A slot number can be too large to be counted: then the emitted module does not declare the slot and
is not valid. Read the other way round, every slot that occurs in a program with a valid module is
declared, and so is in range whenever the module runs. The same holds of the numbers of segments.
-/

open List

namespace SlotLang.Assembly

variable {c : BodyContext} {d : Declared} {i : Instruction} {m : Module} {p : Program}
  {xs : List Instr} {code : List Instruction} {f : Func} {line : Nat} {s t : StackType}

def Declared.Covers (d : Declared) : Operand → Prop
  | .global n => n.toNat < d.globalCount
  | .var n => n.toNat < d.varCount
  | .arg n => n.toNat < d.argCount
  | .lit _ => True

/-- Two contexts that declare the same slots. -/
def Declared.Alike (d e : Declared) : Prop :=
  d.globalCount = e.globalCount ∧ d.varCount = e.varCount ∧ d.argCount = e.argCount

theorem Declared.Alike.covers {d e : Declared} (alike : d.Alike e) {o : Operand}
    (covers : e.Covers o) : d.Covers o := by
  cases o with
  | global n => exact Nat.lt_of_lt_of_eq covers alike.1.symm
  | var n => exact Nat.lt_of_lt_of_eq covers alike.2.1.symm
  | arg n => exact Nat.lt_of_lt_of_eq covers alike.2.2.symm
  | lit v => trivial

/-- Code is valid somewhere inside a body that declares these slots. -/
def CheckedIn (d : Declared) (code : List Instr) : Prop :=
  ∃ e s t, d.Alike e ∧ checkCode e s code = some t

theorem checkCode_cons {i : Instr} {rest : List Instr}
    (checked : checkCode d s (i :: rest) = some t) :
    ∃ u, i.check d s = some u ∧ checkCode d u rest = some t := by
  rw [checkCode] at checked
  cases first : i.check d s with
  | none =>
    rw [first] at checked
    cases checked
  | some u =>
    rw [first] at checked
    exact ⟨u, rfl, checked⟩

theorem checkCode_append {ys : List Instr} (checked : checkCode d s (xs ++ ys) = some t) :
    ∃ u, checkCode d s xs = some u ∧ checkCode d u ys = some t := by
  induction xs generalizing s with
  | nil => exact ⟨s, by rw [checkCode], checked⟩
  | cons x xs ih =>
    obtain ⟨v, first, others⟩ := checkCode_cons checked
    obtain ⟨u, inner, after⟩ := ih others
    exact ⟨u, by rw [checkCode, first]; exact inner, after⟩

namespace CheckedIn

variable {k : Nat}

theorem append {ys : List Instr} (checked : CheckedIn d (xs ++ ys)) :
    CheckedIn d xs ∧ CheckedIn d ys := by
  obtain ⟨e, s, t, alike, checked⟩ := checked
  obtain ⟨u, left, right⟩ := checkCode_append checked
  exact ⟨⟨e, s, u, alike, left⟩, ⟨e, u, t, alike, right⟩⟩

theorem member {xs : List Instr} {i : Instr} (checked : CheckedIn d xs) (member : i ∈ xs) :
    ∃ e s t, d.Alike e ∧ i.check e s = some t := by
  obtain ⟨before, after, rfl⟩ := append_of_mem member
  obtain ⟨e, s, t, alike, rest⟩ := checked.append.2
  obtain ⟨u, here, -⟩ := checkCode_cons rest
  exact ⟨e, s, u, alike, here⟩

theorem inside {body : List Instr} {i : Instr} (checked : CheckedIn d xs) (here : i ∈ xs)
    (encloses : (∃ mark, i = .block mark body) ∨ (∃ mark, i = .loop mark body) ∨
      i = .ifThen body) : CheckedIn d body := by
  obtain ⟨e, s, t, alike, valid⟩ := checked.member here
  have within (e' : Declared) (alike' : d.Alike e') (valid : checkCode e' {} body ≠ none) :
      CheckedIn d body := by
    obtain ⟨u, inner⟩ := Option.ne_none_iff_exists'.1 valid
    exact ⟨e', {}, u, alike', inner⟩
  rcases encloses with ⟨mark, rfl⟩ | ⟨mark, rfl⟩ | rfl <;> rw [Instr.check] at valid
  · exact within (e.inside mark) alike fun none => by simp [none] at valid
  · exact within (e.inside mark) alike fun none => by simp [none] at valid
  · exact within e alike fun none => by simp [none] at valid

/-- What is read or written is declared. -/
theorem covers {o : Operand} (checked : CheckedIn d xs)
    (here : readCode o ∈ xs ∨ writeCode o ∈ xs) : d.Covers o := by
  cases o with
  | lit v => trivial
  | global n | var n | arg n =>
    rcases here with here | here <;>
    · obtain ⟨e, s, t, alike, valid⟩ := checked.member here
      refine alike.covers ?_
      by_contra out
      simp only [Declared.Covers] at out
      simp [readCode, writeCode, Instr.check, Declared.registerType?, out] at valid

theorem index_lt (checked : CheckedIn d xs) (here : .index k ∈ xs) : k < 0x100000000 := by
  obtain ⟨e, s, t, alike, valid⟩ := checked.member here
  rw [Instr.check] at valid
  by_contra out
  rw [if_neg out] at valid
  cases valid

theorem nest {inner : List Instr} {codes : List (List Instr)}
    (checked : CheckedIn d (nestSegments k inner codes)) :
    CheckedIn d inner ∧ ∀ code ∈ codes, CheckedIn d code := by
  induction codes generalizing k inner with
  | nil => exact ⟨checked, by simp⟩
  | cons code rest ih =>
    obtain ⟨outer, others⟩ := ih checked
    refine ⟨outer.inside mem_cons_self (.inl ⟨_, rfl⟩), fun other member => ?_⟩
    rcases mem_cons.1 member with rfl | later
    · exact (append (singleton_append ▸ outer)).2
    · exact others other later

end CheckedIn

theorem CheckedIn.instruction (compiled : sequenceCode c code = .ok xs) (checked : CheckedIn d xs)
    (member : i ∈ code) : ∃ ys, instructionCode c i = .ok ys ∧ CheckedIn d ys := by
  induction code generalizing xs with
  | nil => cases member
  | cons j rest ih =>
    obtain ⟨ys, zs, first, others, rfl⟩ := sequenceCode_cons compiled
    rcases mem_cons.1 member with rfl | later
    · exact ⟨ys, first, checked.append.1⟩
    · exact ih others checked.append.2 later

theorem CheckedIn.ofBody {inFunc : Bool} {body : List Instr}
    (compiled : bodyCode p inFunc code = .ok body) (checked : CheckedIn d body) (member : i ∈ code) :
    ∃ ys, instructionCode (bodyContext p inFunc code) i = .ok ys ∧ CheckedIn d ys := by
  rcases bodyCode_cases compiled with ⟨-, straight⟩ | ⟨-, codes, rfl, made⟩
  · exact CheckedIn.instruction straight checked member
  · obtain ⟨-, each⟩ := (checked.inside mem_cons_self (.inr (.inl ⟨_, rfl⟩))).nest
    rw [← segments_flatten code] at member
    obtain ⟨segment, segmentMember, inside⟩ := mem_flatten.1 member
    obtain ⟨position, bound, rfl⟩ := getElem_of_mem segmentMember
    have bound' : position < codes.length := made.length_eq ▸ bound
    exact CheckedIn.instruction (made.get bound bound')
      (each _ (get_mem codes ⟨position, bound'⟩)) inside

/-! ## The parts of an emitted module -/

/-- The definition of a function whose body has this code. -/
def definitionOf (f : Func) (body : List Instr) : FuncDef where
  index := f.index
  paramCount := f.paramCount
  localCount := f.localCount
  hasPc := f.hasControl
  body := body ++ [.const 0]

theorem funcDef_ok {d : FuncDef} (compiled : funcDef p f = .ok d) :
    ∃ body, bodyCode p true f.body = .ok body ∧ d = definitionOf f body := by
  obtain ⟨body, bodyOk, whole⟩ := bind_eq_ok.1 compiled
  cases whole
  exact ⟨body, bodyOk, rfl⟩

/-- How a module is made from its program. -/
structure Emitted (p : Program) (m : Module) (main : List Instr) : Prop where
  globalCount : m.globalCount = p.globalCount
  funcs : List.Forall₂ (fun f d => funcDef p f = .ok d) p.funcs m.funcs
  entry : m.entry = some { hasPc := hasControl p.code, body := main }
  code : bodyCode p false p.code = .ok main

theorem emitted_of_ofProgram (compiled : Module.ofProgram p = .ok m) :
    ∃ main, Emitted p m main := by
  obtain ⟨funcs, each, rest⟩ := bind_eq_ok.1 compiled
  obtain ⟨main, code, whole⟩ := bind_eq_ok.1 rest
  cases whole
  exact ⟨main, rfl, mapM_eq_ok.1 each, rfl, code⟩

/-- A function of the program is found in the module under its index. -/
theorem Emitted.func? {main : List Instr} (emitted : Emitted p m main) {index : UInt32}
    (found : p.func? index = some f) : ∃ d, m.func? index = some d ∧ funcDef p f = .ok d := by
  have funcs := emitted.funcs
  unfold Program.func? at found
  unfold Module.func?
  generalize p.funcs = fs at found funcs
  generalize m.funcs = ds at funcs
  induction funcs with
  | nil => cases found
  | @cons g d fs ds first rest ih =>
    obtain ⟨body, -, shape⟩ := funcDef_ok first
    have same : d.index = g.index := congrArg FuncDef.index shape
    rw [find?_cons] at found ⊢
    rw [same]
    cases here : g.index == index with
    | true =>
      rw [here] at found
      cases found
      exact ⟨d, rfl, first⟩
    | false =>
      rw [here] at found
      exact ih found

def declaredBy (p : Program) (b : Body) : Declared where
  globalCount := p.globalCount.toNat
  varCount := b.varCount
  argCount := b.argCount

theorem checkedIn_of_entryIsValid {e : MainDef} (valid : m.entryIsValid e = true) :
    CheckedIn { globalCount := m.globalCount.toNat } e.body := by
  unfold Module.entryIsValid at valid
  split at valid
  · next t checked =>
    exact ⟨{ m.declared with hasPc := e.hasPc }, {}, t, ⟨rfl, rfl, rfl⟩, checked⟩
  · cases valid

theorem checkedIn_of_funcIsValid {f : FuncDef} (valid : m.funcIsValid f = true) :
    CheckedIn { globalCount := m.globalCount.toNat, varCount := f.localCount.toNat,
                argCount := f.paramCount.toNat } f.body := by
  let d : Declared := { m.declared with
    varCount := f.localCount.toNat, argCount := f.paramCount.toNat, hasPc := f.hasPc,
    hasResult := true }
  cases popped : (checkCode d {} f.body).bind (·.pop .i64) with
  | none =>
    rw [Module.funcIsValid, popped] at valid
    cases valid
  | some s =>
    obtain ⟨t, checked, -⟩ := Option.bind_eq_some_iff.1 popped
    exact ⟨d, {}, t, ⟨rfl, rfl, rfl⟩, checked⟩

theorem Emitted.checked {p : Program} {m : Module} {main : List Instr} (emitted : Emitted p m main)
    (valid : m.isValid = true) {b : Body} (body : b ∈ p.bodies) :
    ∃ code, bodyCode p b.inFunc b.code = .ok code ∧ CheckedIn (declaredBy p b) code := by
  simp only [Module.isValid, Bool.and_eq_true, all_eq_true] at valid
  obtain ⟨⟨-, funcsValid⟩, entryValid⟩ := valid
  rcases mem_cons.1 body with rfl | func
  · have checked := checkedIn_of_entryIsValid (entryValid _ (Option.mem_toList.2 emitted.entry))
    rw [emitted.globalCount] at checked
    exact ⟨main, emitted.code, checked⟩
  · obtain ⟨f, fMember, rfl⟩ := mem_map.1 func
    obtain ⟨position, bound, rfl⟩ := getElem_of_mem fMember
    have bound' : position < m.funcs.length := emitted.funcs.length_eq ▸ bound
    obtain ⟨code, bodyOk, shape⟩ := funcDef_ok (emitted.funcs.get bound bound')
    have checked := checkedIn_of_funcIsValid (funcsValid _ (get_mem m.funcs ⟨position, bound'⟩))
    rw [shape, emitted.globalCount] at checked
    exact ⟨code, bodyOk, checked.append.1⟩

/-! ## The code of single instructions -/

theorem callCode_ok {dest : Operand} {v : Value} {args : List Operand}
    (compiled : instructionCode c ⟨.call, dest :: .lit v :: args, line⟩ = .ok xs) :
    ∃ f, (c.program.func? v.low = some f ∧ f.paramCount.toNat = args.length) ∧
      xs = args.map readCode ++ [.call v.low, writeCode dest] := by
  have target : (⟨.call, dest :: .lit v :: args, line⟩ : Instruction).callTarget? =
      some (v.low, args) := rfl
  change callCode c ⟨.call, dest :: .lit v :: args, line⟩ dest = .ok xs at compiled
  rw [callCode, target] at compiled
  dsimp only at compiled
  cases found : c.program.func? v.low with
  | none =>
    rw [found] at compiled
    cases compiled
  | some f =>
    rw [found] at compiled
    change (if f.paramCount.toNat ≠ args.length then _ else _) = _ at compiled
    by_cases count : f.paramCount.toNat = args.length
    · rw [if_neg (not_not_intro count)] at compiled
      cases compiled
      exact ⟨f, ⟨rfl, count⟩, rfl⟩
    · rw [if_pos count] at compiled
      cases compiled

theorem retCode_ok {a : Operand} (compiled : instructionCode c ⟨.ret, [a], line⟩ = .ok xs) :
    c.inFunc = true ∧ xs = [readCode a, .ret] := by
  change (if c.inFunc then _ else _) = _ at compiled
  cases inside : c.inFunc with
  | false =>
    rw [inside, if_neg Bool.false_ne_true] at compiled
    cases compiled
  | true =>
    rw [inside, if_pos rfl] at compiled
    cases compiled
    exact ⟨rfl, rfl⟩

theorem jumpCode_ok {label : UInt32} (target : i.label? = some label)
    (compiled : jumpCode c i = .ok xs) :
    ∃ k, c.table.lookup label = some k ∧ xs = [.index k, .set .pc, .br .dispatch] := by
  unfold jumpCode at compiled
  rw [target, Option.getD_some] at compiled
  cases found : c.table.lookup label with
  | none => simp only [found, reduceCtorEq] at compiled
  | some k =>
    simp only [found, Except.ok.injEq] at compiled
    exact ⟨k, rfl, compiled.symm⟩

theorem covers_of_checked (shaped : i.Shaped) (compiled : instructionCode c i = .ok xs)
    (checked : CheckedIn d xs) : ∀ o ∈ i.operands, d.Covers o := by
  intro o member
  cases shaped with
  | assign slot | not slot =>
    cases compiled
    simp only [mem_cons, not_mem_nil, or_false] at member
    rcases member with rfl | rfl
    · exact checked.covers (.inr (by simp))
    · exact checked.covers (.inl (by simp))
  | @binary op dest a b line slot =>
    cases compiled
    simp only [mem_cons, not_mem_nil, or_false] at member
    have reads : readCode a ∈ binaryCode op a b ∧ readCode b ∈ binaryCode op a b := by
      cases op <;> simp [binaryCode, truthCode]
    rcases member with rfl | rfl | rfl
    · exact checked.covers (.inr (by simp))
    · exact checked.covers (.inl (mem_append_left _ reads.1))
    · exact checked.covers (.inl (mem_append_left _ reads.2))
  | label index | jump index =>
    rw [mem_singleton.1 member]
    trivial
  | jumpIf index =>
    obtain ⟨jump, -, whole⟩ := bind_eq_ok.1 compiled
    cases whole
    simp only [mem_cons, not_mem_nil, or_false] at member
    rcases member with rfl | rfl
    · exact checked.covers (.inl (by simp [truthCode]))
    · trivial
  | @call dest v args line slot index =>
    obtain ⟨f, -, rfl⟩ := callCode_ok compiled
    simp only [mem_cons] at member
    rcases member with rfl | rfl | member
    · exact checked.covers (.inr (by simp))
    · trivial
    · exact checked.covers (.inl (mem_append_left _ (mem_map_of_mem member)))
  | ret =>
    obtain ⟨-, rfl⟩ := retCode_ok compiled
    rw [mem_singleton.1 member]
    exact checked.covers (.inl (by simp))
  | output =>
    cases compiled
    rw [mem_singleton.1 member]
    exact checked.covers (.inl (by simp))

theorem segment_lt_of_checked {k : Nat} (checked : CheckedIn d xs) (jumps : .index k ∈ xs ∨
      .ifThen [.index k, .set .pc, .br .dispatch] ∈ xs) : k < 0x100000000 := by
  rcases jumps with here | inside
  · exact checked.index_lt here
  · exact (checked.inside inside (.inr (.inr rfl))).index_lt mem_cons_self

end SlotLang.Assembly
