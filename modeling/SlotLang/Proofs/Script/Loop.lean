import SlotLang.Proofs.Execution
import SlotLang.Proofs.Script.Meaning
import SlotLang.Proofs.Segments

/-!
# The loop over the segments

In steered code, what is left of a round is the rest of the current segment, the statement that
hands over to the next segment, and the branches of the later segments. So the statements of a frame
say where in the body it stands (`Stands`). Handing over changes nothing but `_pc`, which no slot is
named like; states that are equal up to it are `Alike`.
-/

open List

namespace SlotLang.Script

variable {script : Script} {s t u : State} {k : Nat} {body rest : List Stmt} {inFunc : Bool}
  {j pos : Nat} {loops : List (List Stmt × List Stmt)}

theorem reaches_of_step (next : s.step script = .running t) : Reaches (State.run script) s t :=
  reaches_of_succ fun fuel => by rw [State.run, next]

theorem ends_of_finished (last : s.step script = .finished t) :
    Ends (State.run script) s (.finished, t) :=
  ends_of_succ fun fuel => by rw [State.run, last]

theorem ends_of_raised {e : Exception} (last : s.step script = .raised e t) :
    Ends (State.run script) s (.raised e, t) :=
  ends_of_succ fun fuel => by rw [State.run, last]

/-! ## Variables -/

theorem Variables.set_self (vars : Variables) (name : String) (v : Int) :
    vars.set name v name = some v :=
  if_pos rfl

theorem Variables.set_of_ne (vars : Variables) {name other : String} (v : Int)
    (different : other ≠ name) : vars.set name v other = vars other :=
  if_neg different

namespace State

variable {name : String}

def facing (s : State) (code : List Stmt) (loops : List (List Stmt × List Stmt)) : State :=
  { s with frame := { s.frame with code, loops } }

theorem assign_of_isLocal (inner : s.frame.isLocal name = true) (v : Int) :
    s.assign name v = { s with frame := { s.frame with locals := s.frame.locals.set name v } } :=
  if_pos inner

theorem assign_of_not_isLocal (outer : s.frame.isLocal name = false) (v : Int) :
    s.assign name v = { s with globals := s.globals.set name v } :=
  if_neg (by rw [outer]; exact Bool.false_ne_true)

theorem assign_facing (s : State) (code : List Stmt) (loops : List (List Stmt × List Stmt))
    (name : String) (v : Int) :
    (s.facing code loops).assign name v = (s.assign name v).facing code loops := by
  cases inner : s.frame.isLocal name with
  | true =>
    rw [assign_of_isLocal (s := s.facing code loops) inner, assign_of_isLocal inner]
    rfl
  | false =>
    rw [assign_of_not_isLocal (s := s.facing code loops) inner, assign_of_not_isLocal inner]
    rfl

theorem code_assign (s : State) (name : String) (v : Int) :
    (s.assign name v).frame.code = s.frame.code ∧ (s.assign name v).frame.loops = s.frame.loops := by
  unfold assign
  split <;> exact ⟨rfl, rfl⟩

theorem lookup_assign_self (s : State) (name : String) (v : Int) :
    (s.assign name v).lookup name = .ok v := by
  cases inner : s.frame.isLocal name with
  | true => simp [assign_of_isLocal inner, lookup, inner, Variables.set_self]
  | false => simp [assign_of_not_isLocal inner, lookup, inner, Variables.set_self]

/-- States that differ at most in `_pc` and in what is left to run. -/
structure Alike (s t : State) : Prop where
  globals : ∀ name, name ≠ pcName → t.globals name = s.globals name
  locals : ∀ name, name ≠ pcName → t.frame.locals name = s.frame.locals name
  isLocal : t.frame.isLocal = s.frame.isLocal
  callers : t.callers = s.callers
  output : t.output = s.output

theorem Alike.refl (s : State) : Alike s s :=
  ⟨fun _ _ => rfl, fun _ _ => rfl, rfl, rfl, rfl⟩

theorem Alike.trans (first : Alike s t) (second : Alike t u) : Alike s u where
  globals name other := (second.globals name other).trans (first.globals name other)
  locals name other := (second.locals name other).trans (first.locals name other)
  isLocal := second.isLocal.trans first.isLocal
  callers := second.callers.trans first.callers
  output := second.output.trans first.output

theorem Alike.facing (alike : Alike s t) (code : List Stmt) (loops : List (List Stmt × List Stmt)) :
    Alike s (t.facing code loops) :=
  ⟨alike.globals, alike.locals, alike.isLocal, alike.callers, alike.output⟩

theorem alike_assign (s : State) (k : Int) : Alike s (s.assign pcName k) := by
  cases inner : s.frame.isLocal pcName with
  | true =>
    rw [assign_of_isLocal inner]
    exact ⟨fun _ _ => rfl, fun name other => Variables.set_of_ne _ _ other, rfl, rfl, rfl⟩
  | false =>
    rw [assign_of_not_isLocal inner]
    exact ⟨fun name other => Variables.set_of_ne _ _ other, fun _ _ => rfl, rfl, rfl, rfl⟩

end State

/-! ## Branches -/

/-- The statement that ends segment `k` of `count`. -/
def handOver (count k : Nat) : Stmt :=
  if k + 1 < count then .setPc (k + 1) else .leave

/-- Branches numbered from `k`. -/
def branchesFrom (count k : Nat) (parts : List (List Stmt)) : List Stmt :=
  (parts.zipIdx k).map fun (body, k) => .whenPc k (body ++ [handOver count k])

theorem branchesFrom_cons (count k : Nat) (part : List Stmt) (rest : List (List Stmt)) :
    branchesFrom count k (part :: rest) =
      .whenPc k (part ++ [handOver count k]) :: branchesFrom count (k + 1) rest :=
  rfl

/-- The branch whose number is in `_pc` runs. -/
theorem reaches_taken {last : Stmt} (selected : s.lookup pcName = .ok k) :
    Reaches (State.run script) (s.facing (.whenPc k (body ++ [last]) :: rest) loops)
      (s.facing (body ++ last :: rest) loops) := by
  refine reaches_of_step ?_
  change State.withValue _ (s.lookup pcName) _ = _
  rw [selected]
  change Progress.running (State.goOn _ (if (k : Int) = k then _ else _)) = _
  rw [if_pos rfl, append_assoc, singleton_append]
  rfl

theorem reaches_passed (selected : s.lookup pcName = .ok k) (other : k ≠ j) :
    Reaches (State.run script) (s.facing (.whenPc j body :: rest) loops) (s.facing rest loops) := by
  refine reaches_of_step ?_
  change State.withValue _ (s.lookup pcName) _ = _
  rw [selected]
  change Progress.running (State.goOn _ (if (k : Int) = j then _ else _)) = _
  rw [if_neg (by omega)]
  rfl

theorem reaches_setPc (s : State) (k : Nat) (rest : List Stmt) (loops : List (List Stmt × List Stmt)) :
    Reaches (State.run script) (s.facing (.setPc k :: rest) loops)
      ((s.assign pcName k).facing rest loops) := by
  refine reaches_of_step ?_
  change Progress.running (((s.facing _ loops).assign pcName k).goOn rest) = _
  rw [State.assign_facing]
  rfl

/-- A round gets to the branch that `_pc` selects. -/
theorem reaches_branch (script : Script) (count : Nat) {d : Nat} {parts : List (List Stmt)}
    {part : List Stmt} (here : parts[d]? = some part)
    (selected : s.lookup pcName = .ok ((j + d : Nat) : Int)) (loops : List (List Stmt × List Stmt)) :
    Reaches (State.run script) (s.facing (branchesFrom count j parts) loops)
      (s.facing (part ++ handOver count (j + d) ::
        branchesFrom count (j + d + 1) (parts.drop (d + 1))) loops) := by
  induction parts generalizing j d with
  | nil => simp at here
  | cons first rest ih =>
    rw [branchesFrom_cons]
    cases d with
    | zero =>
      cases here
      exact reaches_taken selected
    | succ d =>
      rw [show j + (d + 1) = j + 1 + d by omega] at selected ⊢
      exact (reaches_passed selected (by omega)).trans (ih here selected)

/-! ## Where a frame stands -/

/-- The segments that jumps in some code refer to. -/
def tableOf (code : List Instruction) : List (UInt32 × Nat) :=
  if hasControl code then segmentOfLabel code else []

/-- The statements of each segment. -/
def parts (inFunc : Bool) (code : List Instruction) : List (List Stmt) :=
  (segments code).map (sequenceStmts (segmentOfLabel code) inFunc)

def loopBody (inFunc : Bool) (code : List Instruction) : List Stmt :=
  branchesFrom (parts inFunc code).length 0 (parts inFunc code)

theorem bodyStmts_of_control (steered : hasControl code = true) :
    bodyStmts inFunc code = [.setPc 0, .forever (loopBody inFunc code)] :=
  if_pos steered

theorem bodyStmts_of_straight (straight : hasControl code = false) :
    bodyStmts inFunc code = sequenceStmts [] inFunc code := by
  rw [bodyStmts, straight, if_neg Bool.false_ne_true]

/-- Statements and loops that run the instructions from a position on, and then `tail`. -/
inductive Stands (inFunc : Bool) (code : List Instruction) (tail : List Stmt) :
    Nat → List Stmt → List (List Stmt × List Stmt) → Prop where
  | straight {pos : Nat} (flat : hasControl code = false) :
    Stands inFunc code tail pos (sequenceStmts [] inFunc (code.drop pos) ++ tail) []
  | looped {pos k : Nat} {now : List Instruction} (steered : hasControl code = true)
    (bound : k < (segments code).length)
    (split : code.drop pos = now ++ ((segments code).drop (k + 1)).flatten) :
    Stands inFunc code tail pos
      (sequenceStmts (segmentOfLabel code) inFunc now ++ handOver (parts inFunc code).length k ::
        branchesFrom (parts inFunc code).length (k + 1) ((parts inFunc code).drop (k + 1)))
      [(loopBody inFunc code, tail)]

theorem reaches_nextPart (script : Script) (s : State) (inFunc : Bool)
    (bound : k + 1 < (segments code).length) (loops : List (List Stmt × List Stmt)) :
    Reaches (State.run script)
      (s.facing (handOver (parts inFunc code).length k ::
        branchesFrom (parts inFunc code).length (k + 1) ((parts inFunc code).drop (k + 1))) loops)
      ((s.assign pcName ((k + 1 : Nat) : Int)).facing
        (sequenceStmts (segmentOfLabel code) inFunc (segments code)[k + 1] ++
          handOver (parts inFunc code).length (k + 1) ::
            branchesFrom (parts inFunc code).length (k + 2) ((parts inFunc code).drop (k + 2)))
        loops) := by
  have bound' : k + 1 < (parts inFunc code).length := by rwa [parts, length_map]
  have part : (parts inFunc code)[k + 1] =
      sequenceStmts (segmentOfLabel code) inFunc (segments code)[k + 1] := getElem_map _
  rw [handOver, if_pos bound', drop_eq_getElem_cons bound', branchesFrom_cons, part]
  exact (reaches_setPc s (k + 1) _ loops).trans
    (reaches_taken (s.lookup_assign_self pcName ((k + 1 : Nat) : Int)))

/-- A segment's hand-over and the later branches are left of a round. -/
theorem drop_segments (bound : k < (segments code).length) :
    ((segments code).drop k).flatten = (segments code)[k] ++ ((segments code).drop (k + 1)).flatten := by
  rw [drop_eq_getElem_cons bound, flatten_cons]

namespace Stands

variable {code : List Instruction} {tail now : List Stmt}

/-- The statements of the current instruction come next, perhaps after the end of a segment. -/
theorem current (script : Script) (stands : Stands inFunc code tail pos now loops) {i : Instruction}
    (current : code[pos]? = some i) :
    ∃ t rest, Reaches (State.run script) (s.facing now loops)
        (t.facing (instructionStmts (tableOf code) inFunc i ++ rest) loops) ∧
      s.Alike t ∧ Stands inFunc code tail (pos + 1) rest loops := by
  cases stands with
  | straight flat =>
    rw [drop_eq_cons current, sequenceStmts, flatMap_cons, append_assoc, tableOf, flat,
      if_neg Bool.false_ne_true]
    exact ⟨s, _, .refl _ _, .refl s, .straight flat⟩
  | @looped k before steered bound split =>
    rw [drop_eq_cons current] at split
    rw [tableOf, steered, if_pos rfl]
    -- The segments that are left empty are passed one by one.
    obtain ⟨left, length⟩ : ∃ left, (segments code).length = k + 1 + left :=
      Nat.exists_eq_add_of_le bound
    induction left generalizing k before s with
    | zero =>
      rw [drop_eq_nil_of_le (Nat.le_of_eq length), flatten_nil, append_nil] at split
      subst split
      rw [sequenceStmts, flatMap_cons, append_assoc]
      refine ⟨s, _, .refl _ _, .refl s, .looped steered bound ?_⟩
      rw [drop_eq_nil_of_le (Nat.le_of_eq length), flatten_nil, append_nil]
    | succ left ih =>
      cases before with
      | nil =>
        have next : k + 1 < (segments code).length := by omega
        rw [drop_segments next, nil_append] at split
        obtain ⟨t, rest, reaches, alike, stands⟩ :=
          ih (s := s.assign pcName ((k + 1 : Nat) : Int)) next split (by omega)
        exact ⟨t, rest, (reaches_nextPart script s inFunc next _).trans reaches,
          (s.alike_assign _).trans alike,
          stands⟩
      | cons j before =>
        rw [cons_append, List.cons.injEq] at split
        obtain ⟨rfl, split⟩ := split
        rw [sequenceStmts, flatMap_cons, append_assoc]
        exact ⟨s, _, .refl _ _, .refl s, .looped steered bound split⟩

/-- At the end of the code, what follows the body comes next. -/
theorem atEnd (script : Script) (stands : Stands inFunc code tail pos now loops)
    (ended : code.length ≤ pos) :
    ∃ t, Reaches (State.run script) (s.facing now loops) (t.facing tail []) ∧ s.Alike t := by
  have nothing : code.drop pos = [] := drop_eq_nil_of_le ended
  cases stands with
  | straight flat =>
    rw [nothing]
    exact ⟨s, .refl _ _, .refl s⟩
  | @looped k before steered bound split =>
    rw [nothing] at split
    obtain ⟨left, length⟩ : ∃ left, (segments code).length = k + 1 + left :=
      Nat.exists_eq_add_of_le bound
    obtain ⟨rfl, others⟩ := append_eq_nil_iff.1 split.symm
    clear split
    induction left generalizing k s with
    | zero =>
      have last : ¬ k + 1 < (parts inFunc code).length := by
        rw [parts, length_map]
        omega
      refine ⟨s, ?_, .refl s⟩
      rw [handOver, if_neg last]
      exact reaches_of_step rfl
    | succ left ih =>
      have next : k + 1 < (segments code).length := by omega
      rw [drop_segments next] at others
      obtain ⟨here, others⟩ := append_eq_nil_iff.1 others
      have passed := reaches_nextPart script s inFunc next [(loopBody inFunc code, tail)]
      rw [here] at passed
      obtain ⟨t, reaches, alike⟩ := ih (s := s.assign pcName ((k + 1 : Nat) : Int)) next
        (by omega) others
      exact ⟨t, passed.trans reaches, (s.alike_assign _).trans alike⟩

theorem loops_eq (stands : Stands inFunc code tail pos now loops) (steered : hasControl code = true) :
    loops = [(loopBody inFunc code, tail)] := by
  cases stands with
  | straight flat =>
    rw [flat] at steered
    cases steered
  | looped => rfl

end Stands

variable {code : List Instruction}

/-- The loop leads to the place that `_pc` selects. -/
theorem stands_of_segment (script : Script) (inFunc : Bool) (tail : List Stmt)
    (steered : hasControl code = true) (bound : k < (segments code).length)
    (split : ((segments code).drop k).flatten = code.drop pos) (selected : s.lookup pcName = .ok k) :
    ∃ now, Reaches (State.run script)
        (s.facing (loopBody inFunc code) [(loopBody inFunc code, tail)])
        (s.facing now [(loopBody inFunc code, tail)]) ∧
      Stands inFunc code tail pos now [(loopBody inFunc code, tail)] := by
  have here : (parts inFunc code)[k]? =
      some (sequenceStmts (segmentOfLabel code) inFunc (segments code)[k]) := by
    rw [parts, getElem?_map, getElem?_eq_getElem bound]
    rfl
  have entered := reaches_branch script (parts inFunc code).length (j := 0) here
    (by rwa [Nat.zero_add]) [(loopBody inFunc code, tail)]
  rw [Nat.zero_add] at entered
  exact ⟨_, entered, .looped steered bound (by rw [← split, drop_segments bound])⟩

theorem stands_of_jump (script : Script) (s : State) (inFunc : Bool) (tail rest : List Stmt)
    (steered : hasControl code = true) (bound : k < (segments code).length)
    (split : ((segments code).drop k).flatten = code.drop pos) : ∃ t now, Reaches (State.run script)
        (s.facing ([.setPc k, .again] ++ rest) [(loopBody inFunc code, tail)])
        (t.facing now [(loopBody inFunc code, tail)]) ∧
      s.Alike t ∧ Stands inFunc code tail pos now [(loopBody inFunc code, tail)] := by
  obtain ⟨now, entered, stands⟩ := stands_of_segment script inFunc tail steered bound split
    (s.lookup_assign_self pcName k)
  refine ⟨_, now, ?_, s.alike_assign k, stands⟩
  exact (reaches_setPc s k _ _).trans ((reaches_of_step rfl).trans entered)

/-- The statements of a body lead to its first position. -/
theorem stands_of_body (script : Script) (s : State) (inFunc : Bool) (code : List Instruction)
    (tail : List Stmt) :
    ∃ t now loops, Reaches (State.run script) (s.facing (bodyStmts inFunc code ++ tail) [])
        (t.facing now loops) ∧
      s.Alike t ∧ Stands inFunc code tail 0 now loops := by
  cases steered : hasControl code with
  | false =>
    refine ⟨s, _, _, .refl _ _, .refl s, ?_⟩
    rw [bodyStmts_of_straight steered]
    exact .straight steered
  | true =>
    have whole : ((segments code).drop 0).flatten = code.drop 0 := flatten_segments code
    obtain ⟨now, entered, stands⟩ := stands_of_segment script inFunc tail steered
      (length_segments_pos code) whole
      (s.lookup_assign_self pcName ((0 : Nat) : Int))
    refine ⟨_, now, _, ?_, s.alike_assign ((0 : Nat) : Int), stands⟩
    rw [bodyStmts_of_control steered]
    exact (reaches_setPc s 0 _ _).trans ((reaches_of_step rfl).trans entered)

end SlotLang.Script
