import SlotLang.Proofs.Stepping

/-!
# What any instruction can come to

`Machine.Does` and `Machine.Fails` describe instructions of the right shape. Of an instruction with
any operands much less is known, but enough for what holds of all programs (`Machine.effect_meets`):
it jumps to a label of its code, it enters a function that is defined and takes the arguments, it
does not fail for want of gas, and it is malformed only if something is missing. From this follows
what a round can do to the stack (`Machine.moves_of_round`).
-/

namespace SlotLang

/-! ## Results and causes -/

section

variable {ε α β : Type} {pre : α → Prop} {post : β → Prop} {blame : ε → Prop}

/-- What holds of a result, and what of the reason why there is none. -/
def Meets (post : α → Prop) (blame : ε → Prop) : Except ε α → Prop
  | .ok a => post a
  | .error e => blame e

theorem meets_of_error {x : Except ε α} (fault : ∀ e, x = .error e → blame e) :
    Meets (fun _ => True) blame x := by
  cases x with
  | ok a => trivial
  | error e => exact fault e rfl

theorem Meets.bind {x : Except ε α} {f : α → Except ε β} (first : Meets pre blame x)
    (rest : ∀ a, pre a → Meets post blame (f a)) : Meets post blame (x >>= f) := by
  cases x with
  | ok a => exact rest a first
  | error e => exact first

end

namespace Instruction

/-- Nothing is missing that the machine may look for. -/
structure Complete (i : Instruction) : Prop where
  operands : i.isWellFormed = true
  label : i.opcode = .jump ∨ i.opcode = .jumpIf → i.label? ≠ none
  target : i.opcode = .call → i.callTarget? ≠ none

theorem length_of_isWellFormed {i : Instruction} {op : Opcode} (named : i.opcode = op) (k : Nat)
    (less : op ≠ .defineFunc ∧ op ≠ .blockClose ∧ k < op.signature.length)
    (enough : i.isWellFormed = true) : k < i.operands.length := by
  obtain ⟨notDefine, notClose, less⟩ := less
  unfold isWellFormed at enough
  split at enough
  · next define => exact absurd (named.symm.trans define) notDefine
  · next close => exact absurd (named.symm.trans close) notClose
  · exact Nat.lt_of_lt_of_le (named ▸ less) (of_decide_eq_true enough)

/-- The causes that can stop an instruction. -/
def CanFail (i : Instruction) : Cause → Prop
  | .gasExhausted _ => False
  | .malformed op => op = i.opcode ∧ ¬ i.Complete
  | _ => True

/-- The faults that an instruction can give. Only the result of a call is stored on another line. -/
def Blames (i : Instruction) (f : Fault) : Prop :=
  i.CanFail f.cause ∧ (f.line = i.line ∨ ∃ slot, f.cause = .slotOutOfScope slot)

end Instruction

namespace Machine

variable {limits : Limits} {m : Machine} {i : Instruction}

theorem meets_atLine {post : Effect → Prop} {x : Except Cause Effect}
    (meets : Meets post i.CanFail x) : Meets post i.Blames (atLine i x) := by
  cases x with
  | ok e => exact meets
  | error c => exact ⟨meets, .inl rfl⟩

def Permits (limits : Limits) (m : Machine) (i : Instruction) : Effect → Prop
  | .enter c args entry => ∃ index operands dest, i.callTarget? = some (index, operands) ∧
      callee limits m.env m.depth index args.length = .ok c ∧ entry = .ofCall dest i.line
  | .jump pc => ∃ label, m.top.routine.labels.lookup label = some pc
  | _ => True

/-! ## Parts of instructions -/

theorem meets_read (m : Machine) (o : Operand) : Meets (fun _ => True) i.CanFail (m.read o) := by
  refine meets_of_error fun c failed => ?_
  rcases read_error failed with rfl | ⟨n, -, rfl⟩ <;> trivial

theorem meets_operand {n : Nat} (listed : i.isWellFormed = true → n < i.operands.length) :
    Meets (fun _ => True) i.CanFail (operand i n) := by
  refine meets_of_error fun c failed => ?_
  obtain ⟨missing, rfl⟩ := elim_eq_error.1 failed
  refine ⟨rfl, fun complete => ?_⟩
  exact absurd (listed complete.operands) (Nat.not_lt.2 (List.getElem?_eq_none_iff.1 missing))

theorem meets_readOperand {n : Nat} (listed : i.isWellFormed = true → n < i.operands.length) :
    Meets (fun _ => True) i.CanFail (m.readOperand i n) :=
  (meets_operand listed).bind fun o _ => meets_read m o

theorem meets_storing (listed : i.isWellFormed = true → 0 < i.operands.length) (v : Value) :
    Meets (m.Permits limits i) i.CanFail (m.storing i v) := by
  refine (meets_operand listed).bind fun slot _ => ?_
  split <;> trivial

theorem meets_jumping (jumps : i.opcode = .jump ∨ i.opcode = .jumpIf) :
    Meets (m.Permits limits i) i.CanFail (m.jumping i) := by
  unfold jumping
  split
  · next missing => exact ⟨rfl, fun complete => complete.label jumps missing⟩
  · next label _ =>
    cases found : m.top.routine.labels.lookup label with
    | none => trivial
    | some pc => exact ⟨label, found⟩

theorem meets_callee (e : Environment) (depth : Nat) (index : UInt32) (found : Nat) :
    Meets (fun c => callee limits e depth index found = .ok c) i.CanFail
      (callee limits e depth index found) := by
  cases entered : callee limits e depth index found with
  | ok c => exact rfl
  | error c => rcases callee_error entered with rfl | ⟨expected, rfl⟩ | rfl <;> trivial

theorem meets_calling (calls : i.opcode = .call)
    (listed : i.isWellFormed = true → 0 < i.operands.length) :
    Meets (m.Permits limits i) i.CanFail (m.calling limits i) := by
  refine (meets_operand listed).bind fun dest _ => ?_
  split
  · next missing => exact ⟨rfl, fun complete => complete.target calls missing⟩
  · next index operands target =>
    have args : Meets (fun _ => True) i.CanFail (operands.mapM m.read) := by
      refine meets_of_error fun c failed => ?_
      obtain ⟨o, -, here⟩ := exists_of_mapM_eq_error failed
      have unread := meets_read (i := i) m o
      rwa [here] at unread
    refine args.bind fun vs _ => (meets_callee m.env m.depth index vs.length).bind fun c entered => ?_
    exact ⟨index, operands, dest, target, entered, rfl⟩

theorem meets_returning (listed : i.isWellFormed = true → 0 < i.operands.length) :
    Meets (m.Permits limits i) i.Blames (m.returning i) := by
  unfold returning
  split
  · exact ⟨trivial, .inl rfl⟩
  · cases value : m.readOperand i 0 with
    | error c =>
      have unread := meets_readOperand (m := m) listed
      rw [value] at unread
      exact ⟨unread, .inl rfl⟩
    | ok v =>
      change Meets _ _ (m.leaving v)
      rcases m.leaving_cases v with left | ⟨slot, line, refused⟩
      · rw [left]
        trivial
      · rw [refused]
        exact ⟨trivial, .inr ⟨slot, rfl⟩⟩

/-- What an instruction does, and why it does not, whatever its operands are. -/
theorem effect_meets (limits : Limits) (m : Machine) (i : Instruction) :
    Meets (m.Permits limits i) i.Blames (m.effect limits i) := by
  cases named : i.opcode <;> rw [effect, named] <;>
    have long := Instruction.length_of_isWellFormed named
  case assign =>
    exact meets_atLine ((meets_readOperand (long 1 (by decide))).bind fun v _ =>
      meets_storing (long 0 (by decide)) v)
  case binary op =>
    refine meets_atLine ((meets_readOperand (long 1 (by simp [Opcode.signature]))).bind fun x _ =>
      (meets_readOperand (long 2 (by simp [Opcode.signature]))).bind fun y _ => ?_)
    have result : Meets (fun _ => True) i.CanFail (op.apply x y) := by
      refine meets_of_error fun c failed => ?_
      rcases apply_error failed with rfl | rfl <;> trivial
    exact result.bind fun v _ => meets_storing (long 0 (by simp [Opcode.signature])) v
  case not =>
    exact meets_atLine ((meets_readOperand (long 1 (by decide))).bind fun v _ =>
      meets_storing (long 0 (by decide)) _)
  case label | defineFunc | blockClose => trivial
  case jump => exact meets_atLine (meets_jumping (.inl named))
  case jumpIf =>
    refine meets_atLine ((meets_readOperand (long 0 (by decide))).bind fun v _ => ?_)
    split
    · exact meets_jumping (.inr named)
    · trivial
  case call => exact meets_atLine (meets_calling named (long 0 (by decide)))
  case ret => exact meets_returning (long 0 (by decide))
  case output =>
    exact meets_atLine ((meets_readOperand (long 0 (by decide))).bind fun v _ => trivial)

/-! ## Rounds -/

/-- What a round can do: work in the top activation, put one on top, or take the top one off and write
its value to a slot of the next. -/
inductive Moves (limits : Limits) (m n : Machine) : Prop where
  | stays {i : Instruction} (current : m.top.current? = some i) (shape : SameShape m n)
    (place : n.top.pc = m.top.pc + 1 ∨
      ∃ label, m.top.routine.labels.lookup label = some n.top.pc)
  | enters {i : Instruction} {index : UInt32} {operands : List Operand} {dest : Operand}
    {c : Callable} {args : List Value} (current : m.top.current? = some i)
    (target : i.callTarget? = some (index, operands))
    (entered : callee limits m.env m.depth index args.length = .ok c)
    (top : n.top = .ofCall c args (.ofCall dest i.line)) (below : n.below = m.next.top :: m.below)
    (funcs : n.env.funcs = m.env.funcs)
  | leaves {slot : Operand} {line : Nat} {caller : Activation} {v : Value}
    (entry : m.top.entry = .ofCall slot line) (below : m.below = caller :: n.below)
    (top : n.top = caller.write slot v) (funcs : n.env.funcs = m.env.funcs)

theorem write_entry (a : Activation) (slot : Operand) (v : Value) :
    (a.write slot v).entry = a.entry := by
  cases slot <;> rfl

theorem write_top (m : Machine) (slot : Operand) (v : Value) :
    (m.write slot v).top = m.top.write slot v := by
  cases slot <;> rfl

theorem running_of_leave {n : Machine} {v : Value} (left : m.leave v = .running n) :
    ∃ slot line caller, m.top.entry = .ofCall slot line ∧ m.below = caller :: n.below ∧
      n.top = caller.write slot v ∧ n.env.funcs = m.env.funcs := by
  have funcs := (keeps_leave m v).funcs
  rw [left] at funcs
  unfold leave at left
  split at left
  · next slot line caller rest entry below =>
    cases left
    refine ⟨slot, line, caller, entry, ?_, write_top _ slot v, funcs⟩
    rw [below, (write_gas_below _ slot v).2]
  · cases left

theorem moves_of_round {n : Machine} (goesOn : m.round limits = .running n) : Moves limits m n := by
  cases current : m.top.current? with
  | none =>
    rw [round_ended current] at goesOn
    obtain ⟨slot, line, caller, entry, below, top, funcs⟩ :=
      running_of_leave (leave_of_fallOff goesOn)
    exact .leaves entry below top funcs
  | some i =>
    cases paid : m.gas with
    | zero => cases (round_unpaid current paid).symm.trans goesOn
    | succ gas =>
      have permits := effect_meets limits m i
      cases done : m.effect limits i with
      | error f => cases (round_of_error current paid done).symm.trans goesOn
      | ok e =>
        rw [round_of_ok current paid done] at goesOn
        rw [done] at permits
        cases e with
        | advance | output v =>
          cases goesOn
          exact .stays current ⟨rfl, rfl, rfl, rfl, rfl, rfl⟩ (.inl rfl)
        | write slot v =>
          cases goesOn
          have moved : SameShape m ({ m with gas } : Machine).next := ⟨rfl, rfl, rfl, rfl, rfl, rfl⟩
          exact .stays current (moved.trans (.write _ slot v)) (.inl (write_pc _ slot v))
        | jump pc =>
          cases goesOn
          exact .stays current ⟨rfl, rfl, rfl, rfl, rfl, rfl⟩ (.inr permits)
        | enter c args entry =>
          obtain ⟨index, operands, dest, target, entered, rfl⟩ := permits
          cases goesOn
          exact .enters current target entered rfl rfl rfl
        | leave v =>
          obtain ⟨slot, line, caller, entry, below, top, funcs⟩ := running_of_leave goesOn
          exact .leaves entry below top funcs

theorem perform_ne_failed (m : Machine) (e : Effect) (f : Fault) (n : Machine) :
    m.perform e ≠ .failed f n := by
  cases e with
  | leave v =>
    change m.leave v ≠ _
    unfold leave
    split <;> simp
  | _ => simp [perform]

/-- At its end a function can only find that its result has no place. -/
theorem fault_of_fallOff {n : Machine} {f : Fault} (failed : m.fallOff = .failed f n) :
    ∃ slot, f.cause = .slotOutOfScope slot := by
  unfold fallOff at failed
  split at failed
  · cases failed
  · rcases m.leaving_cases 0 with left | ⟨slot, line, refused⟩
    · simp only [left] at failed
      exact absurd failed (perform_ne_failed m _ f n)
    · simp only [refused] at failed
      cases failed
      exact ⟨slot, rfl⟩

/-- A malformed instruction is the current one, and something is missing from it. -/
theorem current_of_malformed {n : Machine} {op : Opcode} {line : Nat}
    (failed : m.round limits = .failed ⟨.malformed op, line⟩ n) :
    ∃ i, m.top.current? = some i ∧ i.opcode = op ∧ i.line = line ∧ ¬ i.Complete := by
  cases current : m.top.current? with
  | none =>
    obtain ⟨slot, cause⟩ := fault_of_fallOff ((round_ended current).symm.trans failed)
    cases cause
  | some i =>
    cases paid : m.gas with
    | zero => cases (round_unpaid current paid).symm.trans failed
    | succ gas =>
      have blames := effect_meets limits m i
      cases done : m.effect limits i with
      | ok e =>
        exact absurd ((round_of_ok current paid done).symm.trans failed) (perform_ne_failed _ e _ n)
      | error f =>
        cases (round_of_error current paid done).symm.trans failed
        rw [done] at blames
        obtain ⟨⟨named, incomplete⟩, same | ⟨slot, other⟩⟩ := blames
        · exact ⟨i, rfl, named.symm, same.symm, incomplete⟩
        · cases other

end Machine

end SlotLang
