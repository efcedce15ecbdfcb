import SlotLang.Proofs.Rounds

/-!
# The bodies of a program

Module code and function bodies are treated alike: a `Body` is code with the number of slots that
an activation of it has. What the builder guarantees is restated for every body of a program, and
`Activation.Runs` says that an activation runs a body.
-/

open List

namespace SlotLang

/-- Code that an activation can run, with the slots it has. -/
structure Body where
  code : List Instruction
  inFunc : Bool
  varCount : Nat
  argCount : Nat

/-- The body of a function. -/
def Func.toBody (f : Func) : Body where
  code := f.body
  inFunc := true
  varCount := f.localCount.toNat
  argCount := f.paramCount.toNat

namespace Program

/-- The module code, which has no slots of its own. -/
def mainBody (p : Program) : Body where
  code := p.code
  inFunc := false
  varCount := 0
  argCount := 0

/-- The module code and the bodies of all functions. -/
def bodies (p : Program) : List Body :=
  p.mainBody :: p.funcs.map Func.toBody

theorem mainBody_mem (p : Program) : p.mainBody ∈ p.bodies :=
  mem_cons_self

theorem toBody_mem {p : Program} {f : Func} (member : f ∈ p.funcs) : f.toBody ∈ p.bodies :=
  mem_cons_of_mem _ (mem_map_of_mem member)

theorem mem_allCode {p : Program} {b : Body} (body : b ∈ p.bodies) {i : Instruction}
    (member : i ∈ b.code) : i ∈ p.allCode := by
  rcases mem_cons.1 body with rfl | func
  · exact mem_append_right _ member
  · obtain ⟨f, fMember, rfl⟩ := mem_map.1 func
    exact mem_append_left _ (mem_flatMap.2 ⟨f, fMember, member⟩)

namespace Sound

variable {p : Program} (sound : p.Sound 0) {b : Body} (body : b ∈ p.bodies)

include sound body

theorem labels : LabelsSound b.code := by
  rcases mem_cons.1 body with rfl | func
  · exact sound.codeLabels
  · obtain ⟨f, fMember, rfl⟩ := mem_map.1 func
    exact sound.funcLabels f fMember

/-- Only functions return. -/
theorem inFunc_of_ret {i : Instruction} (member : i ∈ b.code) (ret : i.opcode = .ret) :
    b.inFunc = true := by
  rcases mem_cons.1 body with rfl | func
  · exact absurd ret (sound.outside i member).1
  · obtain ⟨f, fMember, rfl⟩ := mem_map.1 func
    rfl

/-- Arguments are always in range. -/
theorem arg_lt {i : Instruction} (member : i ∈ b.code) {n : UInt32} (used : .arg n ∈ i.operands) :
    n.toNat < b.argCount := by
  rcases mem_cons.1 body with rfl | func
  · exact absurd used ((sound.outside i member).2 n).2
  · obtain ⟨f, fMember, rfl⟩ := mem_map.1 func
    exact UInt32.lt_iff_toNat_lt.1 ((sound.funcs f fMember).args i member n used)

end Sound

end Program

theorem callable_eq_ofFunc {c : Callable} {f : Func} (same : c.func = f) : c = .ofFunc f := by
  obtain ⟨g, routine, rfl⟩ := c
  cases same
  rfl

/-- An activation of a body. -/
structure Activation.Runs (a : Activation) (b : Body) : Prop where
  routine : a.routine = Routine.ofCode b.code
  locals : a.locals.size = b.varCount
  args : a.args.size = b.argCount
  entry : a.entry = .ofModule ↔ b.inFunc = false

namespace Activation

variable {a : Activation} {b : Body}

theorem runs_ofModule (p : Program) : (ofModule p.code).Runs p.mainBody where
  routine := rfl
  locals := rfl
  args := rfl
  entry := by simp [ofModule, Program.mainBody]

theorem runs_ofCall {f : Func} {vs : List Value} {entry : Entry}
    (count : vs.length = f.paramCount.toNat) (called : entry ≠ .ofModule) :
    (ofCall (.ofFunc f) vs entry).Runs f.toBody where
  routine := rfl
  locals := by simp [ofCall, Func.toBody, Callable.ofFunc]
  args := by simpa [ofCall, Func.toBody] using count
  entry := by simp [ofCall, Func.toBody, called]

theorem Runs.current? (runs : a.Runs b) : a.current? = b.code[a.pc]? := by
  rw [Activation.current?, runs.routine]
  exact getElem?_toArray

theorem Runs.lookup (runs : a.Runs b) (label : UInt32) :
    a.routine.labels.lookup label = labelPosition? b.code label := by
  rw [runs.routine]
  rfl

theorem Runs.write (runs : a.Runs b) (slot : Operand) (v : Value) : (a.write slot v).Runs b := by
  cases slot with
  | var n => exact ⟨runs.routine, by simpa [Activation.write] using runs.locals, runs.args, runs.entry⟩
  | arg n => exact ⟨runs.routine, runs.locals, by simpa [Activation.write] using runs.args, runs.entry⟩
  | global n | lit v => exact runs

theorem Runs.goto (runs : a.Runs b) (pc : Nat) : { a with pc }.Runs b :=
  ⟨runs.routine, runs.locals, runs.args, runs.entry⟩

end Activation

end SlotLang
