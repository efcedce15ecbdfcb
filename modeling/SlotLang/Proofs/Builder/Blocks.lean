import SlotLang.Proofs.Sessions.Shell

/-!
# The depth of lines and the open function

Two mechanisms follow the blocks of a text. `blockDepth` counts openers and closers of raw lines, and a
draft holds the function that is open. A line acts on a draft by its role, whether it passed its check
or not (`Draft.isSome_current_feed`, `Draft.findings_feed`), so the two stay in step: an open function
means a positive depth, and up to the first opener inside a block they say the same (`Source.InStep`).
-/

open List

namespace SlotLang

variable {known : UInt32} {report : Report} {s : Source}

/-! ## Roles -/

/-- The role of a line that passed its check. -/
def LineForm.role : LineForm → LineRole
  | .empty => .skip
  | .opener .. => .opener
  | .closer => .closer
  | .instruction _ => .plain

/-- The role of a line in terms of its first and its last kind. -/
theorem LineRole.ofTokens_cons (first : Token) (rest : List Token) :
    LineRole.ofTokens (first :: rest) =
      if first.kind = .opcode .defineFunc ∧
        (rest.getLast?.map Token.kind).getD first.kind = .blockOpen then .opener
      else if first.kind = .opcode .blockClose then .closer
      else .plain := by
  have last : (rest.getLast?.getD first).kind = (rest.getLast?.map Token.kind).getD first.kind := by
    cases rest.getLast? <;> rfl
  simp only [LineRole.ofTokens, last]

theorem role_ofLine (line : Nat) (text : String) :
    LineRole.ofTokens (Token.ofLine line text) = LineRole.ofLine text := by
  rw [LineRole.ofLine, ofLine_moved 0, LineRole.ofTokens_moved]

theorem role_of_formed {line : Nat} {ts : List Token} {form : LineForm}
    (formed : LineForm.ofTokens line ts = .ok form) : LineRole.ofTokens ts = form.role := by
  cases ts with
  | nil =>
    cases formed
    rfl
  | cons head operands =>
    rw [LineForm.ofTokens] at formed
    split at formed
    · next op kind =>
      unfold LineForm.ofOpcode at formed
      by_cases brace : op = .defineFunc ∧ operands.getLast?.map Token.kind ≠ some .blockOpen
      · rw [if_pos brace] at formed
        cases formed
      rw [if_neg brace] at formed
      by_cases count : op.takesCount operands.length = false
      · simp only [count, if_true] at formed
        cases formed
      simp only [count] at formed
      obtain ⟨os, -, result⟩ := bind_eq_ok.1 formed
      cases result
      rw [LineRole.ofTokens_cons, kind]
      by_cases define : op = .defineFunc
      · subst define
        have last : operands.getLast?.map Token.kind = some .blockOpen := by simpa using brace
        simp [last, LineForm.ofOperands, LineForm.role]
      · by_cases close : op = .blockClose
        · subst close
          simp [LineForm.ofOperands, LineForm.role]
        · have plain : (LineForm.ofOperands line op os).role = .plain := by
            cases op <;> first | rfl | contradiction
          simp [define, close, plain]
    · cases formed

/-! ## What a line does to a draft -/

namespace Draft

variable {d : Draft} {index : UInt32} {line : Nat}

/-- What is found when a function is opened. -/
def openFindings (known : UInt32) (d : Draft) (index : UInt32) (line : Nat) : List Finding :=
  if d.current.isSome then [.onLine .nested line]
  else (d.indexProblem? known index).toList.map (Finding.onLine · line)

/-- What is found when a function is closed. -/
def closeFindings (d : Draft) (line : Nat) : List Finding :=
  match d.current with
  | none => [.onLine .unmatchedClose line]
  | some o => if o.dropped then [] else argumentFindings o.index o.paramCount o.body.toList

/-- What is found in a line that fails its check, beside its fault. -/
def repairFindings (d : Draft) (line : Nat) : LineRole → List Finding
  | .opener => if d.current.isSome then [.onLine .nested line] else []
  | .closer => d.closeFindings line
  | .skip | .plain => []

/-- What is found in a line. -/
def lineFindings (known : UInt32) (d : Draft) (l : SourceLine) : List Finding :=
  match LineForm.ofTokens l.number l.tokens with
  | .ok (.opener index _) => d.openFindings known index l.number
  | .ok .closer => d.closeFindings l.number
  | .ok .empty | .ok (.instruction _) => []
  | .error e => ⟨.ofLine e.fault, e.span⟩ :: d.repairFindings l.number (LineRole.ofTokens l.tokens)

theorem findings_openFunc (index paramCount : UInt32) (line : Nat) :
    (d.openFunc known index paramCount line).findings.toList =
      d.findings.toList ++ d.openFindings known index line := by
  unfold openFunc openFindings
  split <;> simp [note, noteAll_eq]

theorem findings_openDropped (line : Nat) : (d.openDropped line).findings.toList =
    d.findings.toList ++ if d.current.isSome then [.onLine .nested line] else [] := by
  unfold openDropped
  split <;> simp [note]

theorem findings_closeFunc (line : Nat) :
    (d.closeFunc line).findings.toList = d.findings.toList ++ d.closeFindings line := by
  unfold closeFunc closeFindings
  cases d.current with
  | none => simp [note]
  | some o => cases dropped : o.dropped <;> simp [noteAll_eq, dropped]

theorem findings_feed (l : SourceLine) :
    (d.feed known l).findings.toList = d.findings.toList ++ d.lineFindings known l := by
  unfold feed lineFindings
  cases LineForm.ofTokens l.number l.tokens with
  | ok form =>
    cases form with
    | empty => simp
    | opener index paramCount => exact findings_openFunc index paramCount l.number
    | closer => exact findings_closeFunc l.number
    | instruction i => simp [findings_addInstruction]
  | error e =>
    cases LineRole.ofTokens l.tokens with
    | opener => simp [findings_openDropped, repairFindings, note]
    | closer => simp [findings_closeFunc, repairFindings, closeFindings, note]
    | skip | plain => simp [repairFindings, note]

def isOpenAfter (isOpen : Bool) : LineRole → Bool
  | .opener => true
  | .closer => false
  | .skip | .plain => isOpen

theorem current_closeFunc (line : Nat) : (d.closeFunc line).current = none := by
  unfold closeFunc
  split
  · next none => exact none
  · split <;> simp [noteAll_eq]

/-- Openers open and closers close, whether they passed their check or not. -/
theorem isSome_current_feed (l : SourceLine) : (d.feed known l).current.isSome =
    isOpenAfter d.current.isSome (LineRole.ofTokens l.tokens) := by
  unfold feed
  cases formed : LineForm.ofTokens l.number l.tokens with
  | ok form =>
    rw [role_of_formed formed]
    cases form with
    | empty => rfl
    | opener index paramCount =>
      simp only [openFunc, LineForm.role, isOpenAfter]
      split
      · next inside => exact inside
      · rfl
    | closer => simp [current_closeFunc, LineForm.role, isOpenAfter]
    | instruction i =>
      simp only [addInstruction, LineForm.role, isOpenAfter]
      split
      · next inside => simp [inside]
      · rfl
  | error e =>
    cases LineRole.ofTokens l.tokens with
    | opener =>
      simp only [openDropped, isOpenAfter]
      split
      · next inside => exact inside
      · rfl
    | closer => simp [current_closeFunc, isOpenAfter]
    | skip | plain => rfl

/-! ## Unmatched closers and unclosed functions -/

/-- The closers that were reported for want of an opener. -/
def unmatched (d : Draft) : List Finding :=
  d.findings.toList.filter (·.problem = .unmatchedClose)

theorem problem_of_argumentFindings {paramCount : UInt32} {body : List Instruction}
    (member : f ∈ argumentFindings index paramCount body) :
    ∃ n, f.problem = .argumentOutOfRange n index paramCount := by
  obtain ⟨i, -, member⟩ := mem_flatMap.1 member
  obtain ⟨o, -, found⟩ := mem_filterMap.1 member
  cases o with
  | arg n =>
    simp only [Option.ite_none_right_eq_some, Option.some.injEq] at found
    exact ⟨n, by simp [← found.2, Finding.onLine]⟩
  | global n | var n | lit v => cases found

theorem filter_unmatched_close (line : Nat) :
    (d.closeFindings line).filter (·.problem = .unmatchedClose) =
      if d.current.isSome then [] else [.onLine .unmatchedClose line] := by
  unfold closeFindings
  cases d.current with
  | none => simp [Finding.onLine]
  | some o =>
    dsimp only
    cases o.dropped with
    | true => rfl
    | false =>
      rw [if_neg Bool.false_ne_true, Option.isSome_some, if_pos rfl, filter_eq_nil_iff]
      intro f member
      obtain ⟨n, argument⟩ := problem_of_argumentFindings member
      simp [argument]

theorem problem_of_openFindings (member : f ∈ d.openFindings known index line) :
    f.problem = .nested ∨ f.problem = .duplicateFunc index ∨
      ∃ next, f.problem = .outOfOrder index next := by
  unfold openFindings at member
  split at member
  · exact .inl (by simp [mem_singleton.1 member, Finding.onLine])
  · obtain ⟨problem, found, rfl⟩ := mem_map.1 member
    rw [Option.mem_toList, indexProblem?] at found
    split_ifs at found
    · cases found
      exact .inr (.inl rfl)
    · cases found
      exact .inr (.inr ⟨_, rfl⟩)

theorem filter_unmatched_open (index : UInt32) (line : Nat) :
    (d.openFindings known index line).filter (·.problem = .unmatchedClose) = [] := by
  rw [filter_eq_nil_iff]
  intro f member
  rcases problem_of_openFindings member with problem | problem | ⟨next, problem⟩ <;> simp [problem]

/-- A closer is reported as unmatched exactly if no function is open. -/
theorem unmatched_feed (l : SourceLine) : (d.feed known l).unmatched = d.unmatched ++
    if LineRole.ofTokens l.tokens = .closer ∧ d.current.isSome = false then
      [.onLine .unmatchedClose l.number] else [] := by
  unfold unmatched
  rw [findings_feed, filter_append]
  congr 1
  unfold lineFindings
  cases formed : LineForm.ofTokens l.number l.tokens with
  | ok form =>
    rw [role_of_formed formed]
    cases form with
    | empty | instruction i => simp [LineForm.role]
    | opener index paramCount => simp [filter_unmatched_open, LineForm.role]
    | closer => cases open? : d.current.isSome <;> simp [filter_unmatched_close, open?, LineForm.role]
  | error e =>
    cases LineRole.ofTokens l.tokens with
    | opener => cases open? : d.current.isSome <;> simp [repairFindings, open?, Finding.onLine]
    | closer =>
      cases open? : d.current.isSome <;> simp [repairFindings, filter_unmatched_close, open?]
    | skip | plain => simp [repairFindings]

theorem problem_of_closeFindings (member : f ∈ d.closeFindings line) :
    f.problem = .unmatchedClose ∨ ∃ n index count, f.problem = .argumentOutOfRange n index count := by
  unfold closeFindings at member
  split at member
  · exact .inl (by simp [mem_singleton.1 member, Finding.onLine])
  · split at member
    · cases member
    · obtain ⟨n, argument⟩ := problem_of_argumentFindings member
      exact .inr ⟨n, _, _, argument⟩

theorem problem_of_repairFindings {role : LineRole} (member : f ∈ d.repairFindings line role) :
    f.problem = .nested ∨ f ∈ d.closeFindings line := by
  unfold repairFindings at member
  split at member
  · split at member
    · exact .inl (by simp [mem_singleton.1 member, Finding.onLine])
    · cases member
  · exact .inr member
  · cases member
  · cases member

/-- No line is reported as a function that is never closed. -/
theorem ne_unclosed_of_lineFindings {l : SourceLine} (member : f ∈ d.lineFindings known l)
    (index : UInt32) : f.problem ≠ .unclosed index := by
  have ofClose (line : Nat) (member : f ∈ d.closeFindings line) : f.problem ≠ .unclosed index := by
    rcases problem_of_closeFindings member with problem | ⟨n, index, count, problem⟩ <;> simp [problem]
  unfold lineFindings at member
  split at member
  · rcases problem_of_openFindings member with problem | problem | ⟨next, problem⟩ <;> simp [problem]
  · exact ofClose _ member
  · cases member
  · cases member
  · rcases mem_cons.1 member with rfl | repaired
    · simp
    · rcases problem_of_repairFindings repaired with problem | closed
      · simp [problem]
      · exact ofClose _ closed

variable {code : List Instruction} {scope : Scope} {f : Finding}

theorem problem_of_moduleFindings (member : f ∈ moduleFindings code) :
    f.problem = .returnOutside ∨ ∃ slot, f.problem = .slotOutside slot := by
  obtain ⟨i, -, member⟩ := mem_flatMap.1 member
  rcases mem_append.1 member with ret | slot
  · split at ret
    · exact .inl (by simp [mem_singleton.1 ret, Finding.onLine])
    · cases ret
  · obtain ⟨o, -, found⟩ := mem_filterMap.1 slot
    cases o with
    | var n | arg n =>
      cases found
      exact .inr ⟨_, rfl⟩
    | global n | lit v => cases found

theorem problem_of_duplicateFindings {seen : List (UInt32 × Nat)}
    (member : f ∈ duplicateFindings scope seen code) :
    ∃ label previous, f.problem = .duplicateLabel label previous scope := by
  induction code generalizing seen with
  | nil => cases member
  | cons i rest ih =>
    unfold duplicateFindings at member
    split at member
    · exact ih member
    · rcases mem_append.1 member with here | later
      · obtain ⟨previous, -, rfl⟩ := mem_map.1 here
        exact ⟨_, previous, rfl⟩
      · exact ih later

theorem problem_of_undefinedFindings (member : f ∈ undefinedFindings scope code) :
    ∃ label, f.problem = .undefinedLabel label scope := by
  obtain ⟨i, -, found⟩ := mem_filterMap.1 member
  split at found
  · split at found
    · next label _ =>
      split at found
      · cases found
      · cases found
        exact ⟨label, rfl⟩
    · cases found
  · cases found

theorem problem_of_callFindings {funcs : List Func} (member : f ∈ callFindings known funcs code) :
    ∃ index, f.problem = .undefinedFunc index := by
  obtain ⟨i, -, found⟩ := mem_filterMap.1 member
  obtain ⟨⟨index, args⟩, -, found⟩ := Option.bind_eq_some_iff.1 found
  refine ⟨index, ?_⟩
  simp only [Option.ite_none_left_eq_some, Option.some.injEq] at found
  simp [← found.2, Finding.onLine]

theorem mem_unclosedFindings (member : f ∈ d.allFindings known)
    (unclosed : f.problem = .unclosed index) : f ∈ d.findings ∨ f ∈ d.unclosedFindings := by
  have ofLabels (scope : Scope) (code : List Instruction) (member : f ∈ labelFindings scope code) :
      False := by
    rcases mem_append.1 member with duplicate | undefined
    · obtain ⟨label, previous, problem⟩ := problem_of_duplicateFindings duplicate
      simp [problem] at unclosed
    · obtain ⟨label, problem⟩ := problem_of_undefinedFindings undefined
      simp [problem] at unclosed
  simp only [allFindings, mem_append] at member
  rcases member with ((((found | last) | outside) | labels) | labels) | calls
  · exact .inl (Array.mem_toList_iff.1 found)
  · exact .inr last
  · rcases problem_of_moduleFindings outside with problem | ⟨slot, problem⟩ <;>
      simp [problem] at unclosed
  · obtain ⟨g, -, inside⟩ := mem_flatMap.1 labels
    exact (ofLabels _ _ inside).elim
  · exact (ofLabels _ _ labels).elim
  · obtain ⟨index, problem⟩ := problem_of_callFindings calls
    simp [problem] at unclosed

end Draft

/-! ## Prefixes of a source -/

namespace Source

variable {n : Nat} {f : Finding} {text : String}

/-- The draft after the first lines of a source. -/
def draftAfter (known : UInt32) (s : Source) (n : Nat) : Draft :=
  .ofLines known ((s.tokenLines.take n).filter fun l => !l.tokens.isEmpty)

/-- How many blocks are open after the first lines of a source. -/
def depthAfter (s : Source) (n : Nat) : Nat :=
  blockDepth (s.lines.take n)

/-- The role of the line behind the first ones. -/
def roleAt (s : Source) (n : Nat) : Option LineRole :=
  s.lines[n]?.map LineRole.ofLine

/-- None of the first lines opens a block inside another one. -/
def FlatUpTo (s : Source) (n : Nat) : Prop :=
  ∀ k < n, s.roleAt k = some .opener → s.depthAfter k = 0

/-- The closers among the first lines that come while no block is open, by their numbers. -/
def strayClosers (s : Source) (n : Nat) : List Nat :=
  ((List.range n).filter fun k => s.roleAt k = some .closer ∧ s.depthAfter k = 0).map (· + 1)

theorem feed_empty {d : Draft} {l : SourceLine} (empty : l.tokens = []) : d.feed known l = d := by
  simp [Draft.feed, empty, LineForm.ofTokens]

/-- Lines without tokens do nothing, so that they need not be left out. -/
theorem ofLines_filter (lines : List SourceLine) :
    Draft.ofLines known (lines.filter fun l => !l.tokens.isEmpty) =
      lines.foldl (Draft.feed known) {} := by
  unfold Draft.ofLines
  generalize ({} : Draft) = d
  induction lines generalizing d with
  | nil => rfl
  | cons l lines ih =>
    by_cases empty : l.tokens = []
    · simp [empty, ih, feed_empty empty]
    · simp [empty, ih]

theorem draftAfter_zero : s.draftAfter known 0 = {} := by
  simp [draftAfter, Draft.ofLines]

theorem draftAfter_of_le (all : s.lines.length ≤ n) :
    s.draftAfter known n = .ofLines known s.significantLines := by
  rw [draftAfter, take_of_length_le (by simpa [tokenLines] using all)]
  rfl

theorem draftAfter_succ (here : s.lines[n]? = some text) : s.draftAfter known (n + 1) =
      (s.draftAfter known n).feed known ⟨n + 1, text, Token.ofLine (n + 1) text⟩ := by
  have line : s.tokenLines[n]? = some ⟨n + 1, text, Token.ofLine (n + 1) text⟩ := by
    simp [tokenLines, here, Nat.add_comm]
  rw [draftAfter, draftAfter, ofLines_filter, ofLines_filter, take_add_one, line,
    Option.toList_some, foldl_append]
  rfl

theorem depthAfter_succ (here : s.lines[n]? = some text) :
    s.depthAfter (n + 1) = LineRole.advance (s.depthAfter n) (LineRole.ofLine text) := by
  rw [depthAfter, depthAfter, blockDepth, blockDepth, take_add_one, here]
  simp

theorem strayClosers_succ : s.strayClosers (n + 1) = s.strayClosers n ++
    if s.roleAt n = some .closer ∧ s.depthAfter n = 0 then [n + 1] else [] := by
  unfold strayClosers
  rw [range_succ, filter_append, map_append]
  congr 1
  by_cases stray : s.roleAt n = some .closer ∧ s.depthAfter n = 0 <;> simp [stray]

/-- Behind the last line nothing changes any more. -/
theorem after_end (known : UInt32) (beyond : s.lines[n]? = none) :
    s.draftAfter known (n + 1) = s.draftAfter known n ∧ s.depthAfter (n + 1) = s.depthAfter n ∧
      s.roleAt n = none := by
  have all : s.lines.length ≤ n := List.getElem?_eq_none_iff.1 beyond
  refine ⟨?_, ?_, by simp [roleAt, beyond]⟩
  · rw [draftAfter_of_le all, draftAfter_of_le (by omega)]
  · rw [depthAfter, depthAfter, take_of_length_le all, take_of_length_le (by omega)]

theorem depthAfter_pos (inside : (s.draftAfter known n).current.isSome = true) :
    1 ≤ s.depthAfter n := by
  induction n with
  | zero => simp [draftAfter_zero] at inside
  | succ n ih =>
    cases here : s.lines[n]? with
    | none =>
      obtain ⟨draft, depth, -⟩ := after_end known here
      rw [draft] at inside
      rw [depth]
      exact ih inside
    | some text =>
      rw [draftAfter_succ here, Draft.isSome_current_feed, role_ofLine] at inside
      rw [depthAfter_succ here]
      cases role : LineRole.ofLine text with
      | opener => simp [LineRole.advance]
      | closer => simp [role, Draft.isOpenAfter] at inside
      | skip | plain =>
        rw [role] at inside
        exact ih inside

/-- The draft and the depth say the same about the first lines. -/
structure InStep (known : UInt32) (s : Source) (n : Nat) : Prop where
  isOpen : (s.draftAfter known n).current.isSome = true ↔ s.depthAfter n = 1
  shallow : s.depthAfter n ≤ 1
  unmatched : (s.draftAfter known n).unmatched =
    (s.strayClosers n).map (Finding.onLine .unmatchedClose)

/-- One more line keeps both in step, unless it opens a block inside another one. -/
theorem InStep.succ (inStep : InStep known s n)
    (flat : s.roleAt n = some .opener → s.depthAfter n = 0) : InStep known s (n + 1) := by
  obtain ⟨isOpen, shallow, unmatched⟩ := inStep
  cases here : s.lines[n]? with
  | none =>
    obtain ⟨draft, depth, role⟩ := after_end known here
    refine ⟨by rw [draft, depth, isOpen], by omega, ?_⟩
    rw [draft, unmatched, strayClosers_succ, role]
    simp
  | some text =>
    have role : s.roleAt n = some (LineRole.ofLine text) := by simp [roleAt, here]
    have closed : (s.draftAfter known n).current.isSome = false ↔ s.depthAfter n = 0 := by
      rw [← Bool.not_eq_true, isOpen]
      omega
    refine ⟨?_, ?_, ?_⟩
    · rw [draftAfter_succ here, depthAfter_succ here, Draft.isSome_current_feed, role_ofLine]
      cases roleHere : LineRole.ofLine text with
      | opener =>
        have zero := flat (by rw [role, roleHere])
        simp [LineRole.advance, Draft.isOpenAfter, zero]
      | closer => simp [LineRole.advance, Draft.isOpenAfter]; omega
      | skip | plain => exact isOpen
    · rw [depthAfter_succ here]
      cases roleHere : LineRole.ofLine text with
      | opener =>
        have zero := flat (by rw [role, roleHere])
        simp [LineRole.advance, zero]
      | closer => simp [LineRole.advance]; omega
      | skip | plain => exact shallow
    · rw [draftAfter_succ here, Draft.unmatched_feed, role_ofLine, unmatched, strayClosers_succ, role]
      simp only [closed, Option.some.injEq, map_append]
      split <;> rfl

theorem inStep_of_flat (flat : s.FlatUpTo n) : InStep known s n := by
  induction n with
  | zero => exact ⟨by simp [draftAfter_zero, depthAfter, blockDepth], by simp [depthAfter, blockDepth],
      by simp [draftAfter_zero, Draft.unmatched, strayClosers]⟩
  | succ n ih =>
    have before : s.FlatUpTo n := fun k less => flat k (by omega)
    exact (ih before).succ (flat n (by omega))

/-! ## Reports -/

theorem ne_unclosed_of_draftAfter (member : f ∈ (s.draftAfter known n).findings) (index : UInt32) :
    f.problem ≠ .unclosed index := by
  induction n with
  | zero => simp [draftAfter_zero] at member
  | succ n ih =>
    cases here : s.lines[n]? with
    | none => exact ih ((after_end known here).1 ▸ member)
    | some text =>
      rw [draftAfter_succ here, ← Array.mem_toList_iff, Draft.findings_feed, mem_append] at member
      rcases member with earlier | added
      · exact ih (Array.mem_toList_iff.1 earlier)
      · exact Draft.ne_unclosed_of_lineFindings added index

/-- Where the depth comes back to zero, no function is reported as never closed. -/
theorem ne_unclosed_of_depth (balanced : blockDepth s.lines = 0)
    (member : f ∈ (Draft.ofLines known s.significantLines).allFindings known) (index : UInt32) :
    f.problem ≠ .unclosed index := by
  intro unclosed
  have whole : s.draftAfter known s.lines.length = .ofLines known s.significantLines :=
    draftAfter_of_le (Nat.le_refl _)
  rw [← whole] at member
  rcases Draft.mem_unclosedFindings member unclosed with found | last
  · exact ne_unclosed_of_draftAfter found index unclosed
  · have inside : (s.draftAfter known s.lines.length).current.isSome = true := by
      obtain ⟨o, opened, -⟩ := mem_map.1 last
      exact Option.isSome_of_mem (Option.mem_toList.1 opened)
    have positive := depthAfter_pos inside
    rw [depthAfter, take_length, balanced] at positive
    omega

end Source

theorem exists_finding_of_kept (rejected : Program.parse s known = .error report) {d : Diagnostic}
    (member : d ∈ report.kept) :
    ∃ f ∈ (Draft.ofLines known s.significantLines).allFindings known, f.diagnostic s = d := by
  rw [Program.parse_eq] at rejected
  change ∃ f ∈ s.findings known, f.diagnostic s = d
  generalize s.findings known = findings at rejected ⊢
  split at rejected
  · cases rejected
  · rw [← Except.error.inj rejected, mem_map] at member
    obtain ⟨f, found, same⟩ := member
    exact ⟨f, mem_of_mem_take found, same⟩

theorem Problem.eq_unclosed_of_code {p : Problem} {index : UInt32}
    (same : p.code = (Problem.unclosed index).code) : ∃ index, p = .unclosed index := by
  cases p with
  | unclosed index => exact ⟨index, rfl⟩
  | ofLine fault => cases fault <;> simp [Problem.code, LineFault.code] at same
  | _ => simp [Problem.code] at same

/-- A report of a source whose depth comes back to zero mentions no function that is never closed. -/
theorem Source.code_ne_unclosed (balanced : blockDepth s.lines = 0)
    (rejected : Program.parse s known = .error report) :
    ∀ d ∈ report.kept, ∀ index, d.code ≠ (Problem.unclosed index).code := by
  intro d member index same
  obtain ⟨f, found, rfl⟩ := exists_finding_of_kept rejected member
  obtain ⟨index, unclosed⟩ := Problem.eq_unclosed_of_code same
  exact Source.ne_unclosed_of_depth balanced found index unclosed

/-! ## Snippets -/

theorem exists_dropReturns (cs : List Char) :
    ∃ blanks, (∀ c ∈ blanks, Text.isBlank c = true) ∧ cs = Text.dropReturns cs ++ blanks := by
  refine ⟨(cs.reverse.takeWhile (· = '\r')).reverse, fun c member => ?_, ?_⟩
  · have back := mem_takeWhile_imp (mem_reverse.1 member)
    rw [of_decide_eq_true back]
    rfl
  · rw [Text.dropReturns, ← reverse_append, takeWhile_append_dropWhile, reverse_reverse]

theorem role_dropReturns (cs : List Char) :
    LineRole.ofLine (String.ofList (Text.dropReturns cs)) = LineRole.ofLine (String.ofList cs) := by
  obtain ⟨blanks, all, same⟩ := exists_dropReturns cs
  conv_rhs => rw [same]
  rw [LineRole.ofLine, LineRole.ofLine, ofLine_append_blanks all]

namespace Shell

variable {line : String} {s : Shell}

/-- The lines of a snippet are those that were gathered, but for carriage returns at their ends. -/
theorem blockDepth_snippetSource {snippet : List String} (present : snippet ≠ [])
    (single : ∀ l ∈ snippet, '\n' ∉ l.toList) :
    blockDepth (snippetSource snippet).lines = blockDepth snippet := by
  have lines : (snippetSource snippet).lines =
      snippet.map fun l => String.ofList (Text.dropReturns l.toList) := by
    obtain ⟨l, ls, rfl⟩ := exists_cons_of_ne_nil present
    rw [Source.lines, snippetSource, Text.sourceLines, String.toList_intercalate, map_cons,
      show "\n".toList = ['\n'] from rfl, pieces_intercalate (by simpa using single)]
    simp
  have roles : (snippetSource snippet).lines.map LineRole.ofLine = snippet.map LineRole.ofLine := by
    rw [lines, map_map]
    refine map_congr_left fun l _ => ?_
    rw [Function.comp_apply, role_dropReturns, String.ofList_toList]
  rw [blockDepth, roles, blockDepth]

/-- What a shell says about a snippet: the faults of its lines, or why the session could not run it. -/
theorem err_submit (s : Shell) :
    s.submit.2.err = Text.unlines
        ((lineErrors (snippetSource s.buffer.toList).text).map fun (n, e) =>
          errorLine n e.fault.message) ∨
      s.submit.2.err = Text.unlines
        ((s.env.runSource s.limits (snippetSource s.buffer.toList)).error.toList.flatMap errorLines) := by
  have unit : (⟨unitName, "\n".intercalate s.buffer.toList⟩ : Source) =
      snippetSource s.buffer.toList := rfl
  unfold submit
  dsimp only
  split
  · right
    rw [runUnit, unit]
  · left
    rw [snippetSource]

theorem feed_of_submits (submits : s.Submits line) : s.feed line = s.submit := by
  obtain ⟨waiting, blank, closed⟩ := submits
  rw [feed_waiting waiting, blank, closed]
  rfl

theorem single_of_feedAll {limits : Limits} {lines : List String}
    (single : ∀ l ∈ lines, '\n' ∉ l.toList) :
    (feedAll { limits } lines).1.limits = limits ∧
      ∀ l ∈ (feedAll { limits } lines).1.buffer.toList, '\n' ∉ l.toList := by
  rw [feedAll_eq limits {} lines]
  exact ⟨rfl, fun l member => single l ((requests_waiting lines).1.subset member)⟩

/-- Submitting a snippet of single lines reports no function that is never closed. -/
theorem code_ne_unclosed (submits : s.Submits line)
    (single : ∀ l ∈ s.buffer.toList, '\n' ∉ l.toList) {report : Report}
    (rejected : (s.env.runSource s.limits (snippetSource s.buffer.toList)).error =
      some (.rejected report)) :
    ∀ d ∈ report.kept, ∀ index, d.code ≠ (Problem.unclosed index).code := by
  obtain ⟨waiting, -, closed⟩ := submits
  have balanced : blockDepth (snippetSource s.buffer.toList).lines = 0 := by
    rw [blockDepth_snippetSource (by simpa using waiting) single, closed]
  cases parsed : Program.parse (snippetSource s.buffer.toList) (UInt32.ofNat s.env.funcCount) with
  | error report =>
    rw [runSource_of_error parsed] at rejected
    cases rejected
    exact Source.code_ne_unclosed balanced parsed
  | ok p =>
    rw [runSource_of_ok parsed] at rejected
    simp at rejected

end Shell

/-- **The depth of lines and the builder see the same blocks.** After every prefix of the lines of a
source an open function means a positive depth. As long as no block was opened inside another one, a
function is open exactly at depth one, and the closers reported as unmatched are exactly those that
came at depth zero. So a source whose depth comes back to zero gets no report of a function that is
never closed, and neither does a snippet of a shell that is fed single lines. -/
theorem blocks_in_step (known : UInt32) (s : Source) :
    (∀ n, (s.draftAfter known n).current.isSome = true → 1 ≤ s.depthAfter n) ∧
      (∀ n, s.FlatUpTo n →
        ((s.draftAfter known n).current.isSome = true ↔ s.depthAfter n = 1) ∧
          (s.draftAfter known n).unmatched =
            (s.strayClosers n).map (Finding.onLine .unmatchedClose)) ∧
      (blockDepth s.lines = 0 →
        (∀ f ∈ (Draft.ofLines known s.significantLines).allFindings known, ∀ index,
          f.problem ≠ .unclosed index) ∧
        ∀ report, Program.parse s known = .error report →
          ∀ d ∈ report.kept, ∀ index, d.code ≠ (Problem.unclosed index).code) ∧
      ∀ (limits : Limits) (lines : List String), (∀ l ∈ lines, '\n' ∉ l.toList) →
        let shell := (Shell.feedAll { limits } lines).1
        let unit := Shell.snippetSource shell.buffer.toList
        ∀ line, shell.Submits line →
          ((shell.feed line).2.err = Text.unlines
              ((lineErrors unit.text).map fun (n, e) => Shell.errorLine n e.fault.message) ∨
            (shell.feed line).2.err = Text.unlines
              ((shell.env.runSource limits unit).error.toList.flatMap Shell.errorLines)) ∧
          ∀ report, (shell.env.runSource limits unit).error = some (.rejected report) →
            ∀ d ∈ report.kept, ∀ index, d.code ≠ (Problem.unclosed index).code := by
  refine ⟨fun n => Source.depthAfter_pos, fun n flat => ?_, fun balanced => ?_, ?_⟩
  · have inStep : Source.InStep known s n := Source.inStep_of_flat flat
    exact ⟨inStep.isOpen, inStep.unmatched⟩
  · exact ⟨fun f => Source.ne_unclosed_of_depth balanced, fun report => Source.code_ne_unclosed balanced⟩
  · intro limits lines single shell unit line submits
    obtain ⟨same, waiting⟩ : shell.limits = limits ∧ ∀ l ∈ shell.buffer.toList, '\n' ∉ l.toList :=
      Shell.single_of_feedAll single
    rw [Shell.feed_of_submits submits, ← same]
    exact ⟨shell.err_submit, fun report => Shell.code_ne_unclosed submits waiting⟩

end SlotLang
