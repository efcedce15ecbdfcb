import SlotLang.Proofs.Assembly.Stepping
import SlotLang.Proofs.Segments

/-!
# The dispatch loop

Inside the loop, the controls of a frame are the segments still to come, the nearest first, and the
loop itself. So the code of a frame and its controls say where in the body the frame stands
(`Stands`): the rest of the current segment, then the later segments, make up the instructions from
a position on. A branch to the loop with the register at `k` leads to the start of segment `k`.
-/

open List

namespace SlotLang.Assembly

variable {m : Module} {s : State} {tail : List Instr} {codes : List (List Instr)} {k : Nat}
  {c : BodyContext} {code : List Instruction} {inFunc : Bool} {p : Program} {xs : List Instr}

/-- The controls of segments, numbered from `k`. -/
def segmentControls : Nat → List (List Instr) → List Control
  | _, [] => []
  | k, code :: rest =>
    { mark := some (.segment k), onBranch := code, onEnd := code, height := 0 } ::
      segmentControls (k + 1) rest

/-- The control of a dispatch loop in front of `tail`. -/
def loopControl (codes : List (List Instr)) (tail : List Instr) : Control where
  mark := some .dispatch
  onBranch := dispatchLoop codes ++ tail
  onEnd := tail
  height := 0

/-- The state with other code inside other controls, on an empty stack. -/
def State.facing (s : State) (code : List Instr) (controls : List Control) : State :=
  s.withFrame { s.frame with code, controls, stack := [] }

theorem findMark_dispatch (k : Nat) (codes : List (List Instr)) (control : Control)
    (marked : control.mark = some .dispatch) (outer : List Control) :
    Frame.findMark .dispatch (segmentControls k codes ++ control :: outer) =
      some (control, outer) := by
  induction codes generalizing k with
  | nil => exact if_pos marked
  | cons code rest ih =>
    rw [segmentControls, cons_append, Frame.findMark, if_neg (by simp)]
    exact ih (k + 1)

theorem findMark_segment {d : Nat} {code : List Instr} (here : codes[d]? = some code)
    (outer : List Control) : Frame.findMark (.segment (k + d)) (segmentControls k codes ++ outer) =
      some ({ mark := some (.segment (k + d)), onBranch := code, onEnd := code, height := 0 },
        segmentControls (k + d + 1) (codes.drop (d + 1)) ++ outer) := by
  induction codes generalizing k d with
  | nil => simp at here
  | cons first rest ih =>
    cases d with
    | zero =>
      cases here
      exact if_pos rfl
    | succ d =>
      have different : ¬ (some (Mark.segment k) = some (.segment (k + (d + 1)))) := by
        simp
      rw [segmentControls, cons_append, Frame.findMark, if_neg different,
        show k + (d + 1) = k + 1 + d by omega, drop_succ_cons]
      exact ih here

/-- Entering the blocks around the selector pushes one control for each segment. -/
theorem reaches_nested (k : Nat) (inner : List Instr) (codes : List (List Instr))
    (outer : List Control) :
    Reaches m codes.length (s.facing (nestSegments k inner codes) outer)
      (s.facing inner (segmentControls k codes ++ outer)) := by
  induction codes generalizing k inner with
  | nil => exact .refl _ _
  | cons code rest ih => exact (ih (k + 1) _).trans (reaches_of_step rfl)

theorem reaches_segment {code : List Instr} (here : codes[k]? = some code)
    (selected : s.frame.pc.toNat = k) :
    Reaches m (codes.length + 3) (s.facing (dispatchLoop codes ++ tail) [])
      (s.facing code
        (segmentControls (k + 1) (codes.drop (k + 1)) ++ [loopControl codes tail])) := by
  have found := findMark_segment (k := 0) here [loopControl codes tail]
  rw [Nat.zero_add] at found
  have bound : k < codes.length := (List.getElem?_eq_some_iff.1 here).1
  have mark : ((List.range codes.length).map Mark.segment)[k]?.getD (.segment 0) = .segment k := by
    simp [bound]
  have entered : Reaches m (codes.length + 1) (s.facing (dispatchLoop codes ++ tail) [])
      (s.facing (selector codes.length) (segmentControls 0 codes ++ [loopControl codes tail])) :=
    ((reaches_of_step rfl).trans (reaches_nested 0 _ codes _)).mono (by omega)
  refine entered.trans ((reaches_of_step rfl).trans (reaches_of_step ?_))
  change State.proceedWith _ (Option.map _ (Frame.findMark
    (((List.range codes.length).map Mark.segment)[s.frame.pc.toNat]?.getD (.segment 0))
    (segmentControls 0 codes ++ [loopControl codes tail]))) = _
  rw [selected, mark, found]
  rfl

/-- The state with another dispatch register. -/
def State.select (s : State) (k : UInt32) : State :=
  s.withFrame { s.frame with pc := k }

/-- A jump starts a new round of the loop. -/
theorem reaches_jump {rest : List Instr} {stack : List Cell}
    (loop : Frame.findMark .dispatch s.frame.controls = some (loopControl codes tail, [])) :
    Reaches m 3 (s.before ([.index k, .set .pc, .br .dispatch] ++ rest) stack)
      ((s.select (.ofNat k)).facing (dispatchLoop codes ++ tail) []) := by
  refine (reaches_of_step rfl).trans (n := 2) ((reaches_of_step rfl).trans (reaches_of_step ?_))
  change State.proceedWith _ (Option.map _ (Frame.findMark .dispatch s.frame.controls)) = _
  rw [loop]
  change Progress.running _ = Progress.running _
  simp [State.withFrame, State.facing, State.select, loopControl, State.before, Frame.resume]

/-! ## Where a frame stands -/

def bodyContext (p : Program) (inFunc : Bool) (code : List Instruction) : BodyContext where
  program := p
  inFunc := inFunc
  table := if hasControl code then segmentTable code else []

/-- Code and controls that run the instructions from a position on, and then `tail`. -/
inductive Stands (c : BodyContext) (code : List Instruction) (tail : List Instr) :
    Nat → List Instr → List Control → Prop where
  | straight {pos : Nat} {xs : List Instr} (flat : hasControl code = false)
    (here : sequenceCode c (code.drop pos) = .ok xs) : Stands c code tail pos (xs ++ tail) []
  | looped {pos k : Nat} {now : List Instruction} {later : List (List Instruction)}
    {xs : List Instr} {ys codes : List (List Instr)} (steered : hasControl code = true)
    (all : (segments code).mapM (sequenceCode c) = .ok codes)
    (split : code.drop pos = now ++ later.flatten) (here : sequenceCode c now = .ok xs)
    (next : later.mapM (sequenceCode c) = .ok ys) (room : later.length < (segments code).length) :
    Stands c code tail pos xs (segmentControls k ys ++ [loopControl codes tail])

theorem sequenceCode_cons {i : Instruction} {rest : List Instruction}
    (compiled : sequenceCode c (i :: rest) = .ok xs) :
    ∃ ys zs, instructionCode c i = .ok ys ∧ sequenceCode c rest = .ok zs ∧ xs = ys ++ zs := by
  obtain ⟨codes, each, whole⟩ := bind_eq_ok.1 compiled
  cases whole
  cases mapM_eq_ok.1 each with
  | @cons _ ys _ others first later =>
    exact ⟨ys, others.flatten, first, bind_eq_ok.2 ⟨others, mapM_eq_ok.2 later, rfl⟩, rfl⟩

namespace Stands

variable {pos : Nat} {now : List Instr} {controls : List Control}

/-- The code of the current instruction comes next, perhaps after the end of a segment. -/
theorem current (stands : Stands c code tail pos now controls) {i : Instruction}
    (current : code[pos]? = some i) :
    ∃ xs rest controls', instructionCode c i = .ok xs ∧
      Reaches m (segments code).length (s.facing now controls) (s.facing (xs ++ rest) controls') ∧
      Stands c code tail (pos + 1) rest controls' := by
  cases stands with
  | straight flat here =>
    rw [drop_eq_cons current] at here
    obtain ⟨ys, zs, first, others, rfl⟩ := sequenceCode_cons here
    refine ⟨ys, zs ++ tail, [], first, ?_, .straight flat others⟩
    rw [append_assoc]
    exact (ReachesIn.refl _ _).mono (Nat.zero_le _)
  | @looped k before later _ ys codes steered all split here next room =>
    rw [drop_eq_cons current] at split
    suffices passed : ∃ xs rest controls', instructionCode c i = .ok xs ∧
        Reaches m later.length (s.facing now (segmentControls k ys ++ [loopControl codes tail]))
          (s.facing (xs ++ rest) controls') ∧
        Stands c code tail (pos + 1) rest controls' by
      obtain ⟨xs, rest, controls', compiled, reaches, stands⟩ := passed
      exact ⟨xs, rest, controls', compiled, reaches.mono (Nat.le_of_lt room), stands⟩
    -- The segments that are left empty are passed one by one.
    induction later generalizing k before now ys with
    | nil =>
      rw [flatten_nil, append_nil] at split
      subst split
      obtain ⟨ys', zs, first, others, rfl⟩ := sequenceCode_cons here
      refine ⟨ys', zs, _, first, .refl _ _, ?_⟩
      exact .looped steered all (by rw [flatten_nil, append_nil]) others next room
    | cons segment later ih =>
      cases before with
      | nil =>
        cases here
        cases mapM_eq_ok.1 next with
        | @cons _ y _ others first rest =>
          obtain ⟨xs, rest', controls', compiled, reaches, stands⟩ :=
            ih (k := k + 1) split (mapM_eq_ok.2 rest) (Nat.lt_of_succ_lt room) first
          refine ⟨xs, rest', controls', compiled, ?_, stands⟩
          exact ((reaches_of_step rfl).trans reaches).mono (by simp only [length_cons]; omega)
      | cons j before =>
        rw [cons_append, List.cons.injEq] at split
        obtain ⟨rfl, split⟩ := split
        obtain ⟨ys', zs, first, others, rfl⟩ := sequenceCode_cons here
        exact ⟨ys', zs, _, first, (ReachesIn.refl _ _).mono (Nat.zero_le _),
          .looped steered all split others next room⟩

/-- At the end of the code, what follows the body comes next. -/
theorem atEnd (stands : Stands c code tail pos now controls) (ended : code.length ≤ pos) :
    Reaches m (segments code).length (s.facing now controls) (s.facing tail []) := by
  have nothing : code.drop pos = [] := drop_eq_nil_of_le ended
  cases stands with
  | straight flat here =>
    rw [nothing] at here
    cases here
    exact (ReachesIn.refl _ _).mono (Nat.zero_le _)
  | @looped k before later _ ys codes steered all split here next room =>
    rw [nothing] at split
    suffices passed : Reaches m (later.length + 1)
        (s.facing now (segmentControls k ys ++ [loopControl codes tail])) (s.facing tail []) from
      passed.mono room
    clear room
    induction later generalizing k before now ys with
    | nil =>
      rw [flatten_nil, append_nil] at split
      subst split
      cases here
      cases mapM_eq_ok.1 next
      exact reaches_of_step rfl
    | cons segment later ih =>
      obtain ⟨rfl, others⟩ := append_eq_nil_iff.1 split.symm
      cases here
      cases mapM_eq_ok.1 next with
      | cons first rest =>
        refine ((reaches_of_step rfl).trans (ih others.symm (mapM_eq_ok.2 rest) first)).mono ?_
        simp only [length_cons]
        omega

theorem loop (stands : Stands c code tail pos now controls) (steered : hasControl code = true) :
    ∃ codes, (segments code).mapM (sequenceCode c) = .ok codes ∧
      Frame.findMark .dispatch controls = some (loopControl codes tail, []) := by
  cases stands with
  | straight flat here =>
    rw [flat] at steered
    cases steered
  | looped steered all split here next room => exact ⟨_, all, findMark_dispatch _ _ _ rfl _⟩

end Stands

/-- The loop leads to the place that the register selects. -/
theorem stands_of_segment (tail : List Instr) {pos : Nat} (steered : hasControl code = true)
    (all : (segments code).mapM (sequenceCode c) = .ok codes) (bound : k < (segments code).length)
    (split : ((segments code).drop k).flatten = code.drop pos) (selected : s.frame.pc.toNat = k) :
    ∃ now controls, Reaches m ((segments code).length + 3) (s.facing (dispatchLoop codes ++ tail) [])
        (s.facing now controls) ∧
      Stands c code tail pos now controls := by
  have each := mapM_eq_ok.1 all
  have later : ((segments code).drop (k + 1)).mapM (sequenceCode c) = .ok (codes.drop (k + 1)) :=
    mapM_eq_ok.2 (forall₂_drop (k + 1) each)
  have bound' : k < codes.length := each.length_eq ▸ bound
  have here : codes[k]? = some (codes.get ⟨k, bound'⟩) := getElem?_eq_getElem bound'
  rw [each.length_eq]
  refine ⟨_, _, reaches_segment here selected, .looped steered all ?_ (each.get bound bound') later ?_⟩
  · rw [← split, drop_eq_getElem_cons bound, flatten_cons]
    rfl
  · rw [length_drop]
    omega

theorem sequenceCode_ok (compiled : sequenceCode c code = .ok xs) :
    ∃ codes, List.Forall₂ (fun i ys => instructionCode c i = .ok ys) code codes ∧
      xs = codes.flatten := by
  obtain ⟨codes, each, whole⟩ := bind_eq_ok.1 compiled
  cases whole
  exact ⟨codes, mapM_eq_ok.1 each, rfl⟩

theorem bodyCode_cases (compiled : bodyCode p inFunc code = .ok xs) :
    (hasControl code = false ∧ sequenceCode (bodyContext p inFunc code) code = .ok xs) ∨
      hasControl code = true ∧ ∃ codes, xs = dispatchLoop codes ∧
        List.Forall₂ (fun segment ys => sequenceCode (bodyContext p inFunc code) segment = .ok ys)
          (segments code) codes := by
  unfold bodyCode at compiled
  unfold bodyContext
  cases steered : hasControl code with
  | false =>
    rw [steered, if_neg Bool.false_ne_true] at compiled
    rw [if_neg Bool.false_ne_true]
    exact .inl ⟨rfl, compiled⟩
  | true =>
    rw [steered, if_pos rfl] at compiled
    rw [if_pos rfl]
    obtain ⟨codes, each, whole⟩ := bind_eq_ok.1 compiled
    cases whole
    exact .inr ⟨rfl, codes, rfl, mapM_eq_ok.1 each⟩

/-- The code of a body leads to its first position. -/
theorem stands_of_body (tail : List Instr) {body : List Instr}
    (compiled : bodyCode p inFunc code = .ok body) (selected : s.frame.pc = 0) :
    ∃ now controls, Reaches m ((segments code).length + 3) (s.facing (body ++ tail) [])
        (s.facing now controls) ∧
      Stands (bodyContext p inFunc code) code tail 0 now controls := by
  rcases bodyCode_cases compiled with ⟨straight, made⟩ | ⟨steered, codes, rfl, each⟩
  · exact ⟨_, _, (ReachesIn.refl _ _).mono (Nat.zero_le _), .straight straight made⟩
  · exact stands_of_segment tail steered (mapM_eq_ok.2 each) (Nat.succ_pos _) (segments_flatten code)
      (by rw [selected]; rfl)

end SlotLang.Assembly
