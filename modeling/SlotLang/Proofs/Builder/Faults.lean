import SlotLang.Proofs.Builder.Blocks

/-!
# Faults of lines in a report

`lineErrors` checks the lines of a text one by one. The builder cuts the text in another way, mixes the
faults of lines with what it finds between them, and keeps the first findings only. What it finds about
single lines is nevertheless what `lineErrors` finds, in the same order (`Source.faults_findings`).
-/

open List

namespace SlotLang

/-- A finding about a single line. -/
def Finding.isFault (f : Finding) : Bool :=
  Category.ofCode f.problem.code = .ofLine

def LineError.finding (e : LineError) : Finding :=
  ⟨.ofLine e.fault, e.span⟩

theorem LineError.isFault_finding (e : LineError) : e.finding.isFault = true := by
  cases e with
  | mk fault span => cases fault <;> rfl

namespace Draft

variable {known : UInt32} {d : Draft}

theorem isFault_of_closeFindings {line : Nat} {f : Finding} (member : f ∈ d.closeFindings line) :
    f.isFault = false := by
  rcases problem_of_closeFindings member with problem | ⟨n, index, count, problem⟩ <;>
    simp [Finding.isFault, problem, Problem.code, Category.ofCode]

/-- Of what is found in a line, only its fault is about the line itself. -/
theorem faults_lineFindings (l : SourceLine) : (d.lineFindings known l).filter Finding.isFault =
    match LineForm.ofTokens l.number l.tokens with
    | .ok _ => []
    | .error e => [e.finding] := by
  have other {fs : List Finding} (all : ∀ f ∈ fs, f.isFault = false) : fs.filter Finding.isFault = [] :=
    filter_eq_nil_iff.2 fun f member => by simp [all f member]
  unfold lineFindings
  cases LineForm.ofTokens l.number l.tokens with
  | ok form =>
    cases form with
    | empty | instruction i => rfl
    | opener index paramCount =>
      refine other fun f member => ?_
      rcases problem_of_openFindings member with problem | problem | ⟨next, problem⟩ <;>
        simp [Finding.isFault, problem, Problem.code, Category.ofCode]
    | closer => exact other fun f => isFault_of_closeFindings
  | error e =>
    refine (filter_cons_of_pos e.isFault_finding).trans
      (congrArg (e.finding :: ·) (other fun f member => ?_))
    rcases problem_of_repairFindings member with problem | closed
    · simp [Finding.isFault, problem, Problem.code, Category.ofCode]
    · exact isFault_of_closeFindings closed

/-- What is found behind the last line is not about single lines. -/
theorem faults_allFindings : (d.allFindings known).filter Finding.isFault =
    d.findings.toList.filter Finding.isFault := by
  have labels (scope : Scope) (code : List Instruction) {f : Finding}
      (member : f ∈ labelFindings scope code) : f.isFault = false := by
    rcases mem_append.1 member with duplicate | undefined
    · obtain ⟨label, previous, problem⟩ := problem_of_duplicateFindings duplicate
      simp [Finding.isFault, problem, Problem.code, Category.ofCode]
    · obtain ⟨label, problem⟩ := problem_of_undefinedFindings undefined
      simp [Finding.isFault, problem, Problem.code, Category.ofCode]
  simp only [allFindings, append_assoc]
  rw [filter_append, append_right_eq_self, filter_eq_nil_iff]
  intro f member
  rw [Bool.not_eq_true]
  simp only [mem_append] at member
  rcases member with last | outside | inside | inside | calls
  · obtain ⟨o, -, rfl⟩ := mem_map.1 last
    rfl
  · rcases problem_of_moduleFindings outside with problem | ⟨slot, problem⟩ <;>
      simp [Finding.isFault, problem, Problem.code, Category.ofCode]
  · obtain ⟨g, -, inside⟩ := mem_flatMap.1 inside
    exact labels _ _ inside
  · exact labels _ _ inside
  · obtain ⟨index, problem⟩ := problem_of_callFindings calls
    simp [Finding.isFault, problem, Problem.code, Category.ofCode]

end Draft

/-! ## Two ways to cut a text -/

theorem lineErrors_eq_lines (s : Source) :
    lineErrors s.text = (s.lines.zipIdx 1).filterMap errorAt := by
  rw [lineErrors_eq, Source.lines, Text.sourceLines, map_map, zipIdx_map, zipIdx_map,
    filterMap_map, filterMap_map]
  refine filterMap_congr fun line _ => ?_
  obtain ⟨blanks, all, same⟩ := exists_dropReturns line.1
  simp only [Function.comp_apply, Prod.map, errorAt, LineForm.ofText]
  conv_lhs => rw [same, ofLine_append_blanks all]

theorem line_of_errorAt {line : String × Nat} {n : Nat} {e : LineError}
    (found : errorAt line = some (n, e)) : e.span.line = n := by
  have moved := LineForm.ofTokens_moved (fun s => { s with line := line.2 }) line.2 line.2
    (Token.ofLine line.2 line.1)
  rw [← ofLine_moved] at moved
  unfold errorAt LineForm.ofText at found
  cases formed : LineForm.ofTokens line.2 (Token.ofLine line.2 line.1) with
  | ok form => simp [formed] at found
  | error e' =>
    rw [formed] at moved found
    cases found
    exact congrArg (fun e => e.span.line) (Except.error.inj moved)

/-- What the builder finds about single lines is what the check of the lines finds. -/
theorem Source.faults_findings (known : UInt32) (s : Source) :
    (s.findings known).filter Finding.isFault = (lineErrors s.text).map fun e => e.2.finding := by
  have folded (lines : List (String × Nat)) (d : Draft) :
      ((lines.map fun l => (⟨l.2, l.1, Token.ofLine l.2 l.1⟩ : SourceLine)).foldl (Draft.feed known)
          d).findings.toList.filter Finding.isFault =
        d.findings.toList.filter Finding.isFault ++
          (lines.filterMap errorAt).map fun e => e.2.finding := by
    induction lines generalizing d with
    | nil => simp
    | cons line lines ih =>
      rw [map_cons, foldl_cons, ih, Draft.findings_feed, filter_append,
        Draft.faults_lineFindings, append_assoc, filterMap_cons, errorAt, LineForm.ofText]
      dsimp only
      cases LineForm.ofTokens line.2 (Token.ofLine line.2 line.1) <;> rfl
  have listed : s.tokenLines =
      (s.lines.zipIdx 1).map fun l => (⟨l.2, l.1, Token.ofLine l.2 l.1⟩ : SourceLine) := rfl
  rw [findings, Draft.faults_allFindings, significantLines, ofLines_filter, lineErrors_eq_lines, listed,
    folded]
  simp

/-! ## Reports -/

/-- What the builder reports about a source. -/
def Source.report (known : UInt32) (s : Source) : Report :=
  match Program.parse s known with
  | .ok _ => {}
  | .error report => report

theorem Source.report_eq (known : UInt32) (s : Source) : s.report known =
    ⟨((s.findings known).take Report.capacity).map (Finding.diagnostic s),
      .ofNat (s.findings known).length⟩ := by
  rw [report, Program.parse_eq]
  generalize s.findings known = findings
  by_cases none : findings = []
  · subst none
    rfl
  · rw [if_neg none]

/-- **The check of single lines and the builder report the same faults.** Those that the builder keeps
are the first ones, and all of them if it keeps everything it counts. Where no line has a fault, the
builder reports nothing about single lines, and where a line has one it reports something. -/
theorem line_faults_agree (known : UInt32) (s : Source) :
    let report := s.report known
    let errors := (lineErrors s.text).map fun e => (e.1, e.2.fault.code, e.2.fault.message, e.2.span)
    let faults := (report.kept.filter fun d => d.category = .ofLine).map
      fun d => (d.span.line, d.code, d.message, d.span)
    faults <+: errors ∧
      ((s.findings known).length < UInt64.size → report.total.toNat ≤ Report.capacity →
        faults = errors) ∧
      (lineErrors s.text = [] → ∀ d ∈ report.kept, d.category = .ofStructure) ∧
      (lineErrors s.text ≠ [] → ∃ r, Program.parse s known = .error r) := by
  intro report errors faults
  have errors_eq : errors = ((s.findings known).filter Finding.isFault).map
      fun f => (f.span.line, f.problem.code, f.problem.message, f.span) := by
    rw [Source.faults_findings, List.map_map]
    refine List.map_congr_left fun e member => ?_
    obtain ⟨line, -, found⟩ := List.mem_filterMap.1 (lineErrors_eq_lines s ▸ member)
    simp only [Function.comp_apply, LineError.finding, line_of_errorAt found]
    rfl
  have faults_eq : faults =
      (((s.findings known).take Report.capacity).filter Finding.isFault).map
        fun f => (f.span.line, f.problem.code, f.problem.message, f.span) := by
    simp only [faults, report, Source.report_eq, List.filter_map, List.map_map]
    rfl
  refine ⟨?_, fun counted few => ?_, fun none d member => ?_, fun some => ?_⟩
  · rw [errors_eq, faults_eq]
    exact ((List.take_prefix _ _).filter _).map _
  · have whole : (s.findings known).length ≤ Report.capacity := by
      simpa only [report, Source.report_eq, UInt64.toNat_ofNat_of_lt' counted] using few
    rw [errors_eq, faults_eq, List.take_of_length_le whole]
  · simp only [report, Source.report_eq, List.mem_map] at member
    obtain ⟨f, found, rfl⟩ := member
    have fine := Source.faults_findings known s
    rw [none, List.map_nil, List.filter_eq_nil_iff] at fine
    have other := fine f (List.mem_of_mem_take found)
    cases category : (f.diagnostic s).category with
    | ofLine => exact absurd (decide_eq_true category) other
    | ofStructure => rfl
  · have found : s.findings known ≠ [] := by
      intro none
      have faults := Source.faults_findings known s
      rw [none] at faults
      exact some (List.map_eq_nil_iff.1 faults.symm)
    exact ⟨_, (Program.parse_eq s known).trans (if_neg found)⟩

end SlotLang
