import SlotLang.Proofs.Positions
import SlotLang.Proofs.Sessions.Soundness
import SlotLang.Shell

/-!
# What a shell runs

The lines that a shell is fed make `requests`, which are found by looking at the lines alone: commands,
and snippets that each go on up to the first blank line outside all blocks. What a session becomes
under these requests is `replay`, where a snippet is run if it is accepted and does nothing otherwise.
A shell that gathers lines one by one ends where `replay` does (`feedAll_eq`).
-/

open List

namespace SlotLang.Shell

variable {e : Environment} {snippet : List String}

/-! ## Requests -/

/-- What a shell compares with its commands. -/
def commandWord (line : String) : String :=
  String.ofList (Text.trim line.toList)

/-- A line that is a command when no lines are waiting. -/
def isCommand (line : String) : Bool :=
  [".exit", ".quit", ".reset"].contains (commandWord line)

/-- What a shell is asked to do. -/
inductive Request where
  | exit
  | reset
  /-- Run some lines as one unit. -/
  | submit (snippet : List String)
  deriving DecidableEq

def command (line : String) : Request :=
  if commandWord line = ".reset" then .reset else .exit

/-- The whole snippet that starts with some lines, and the lines behind it: it goes on up to the first
blank line that comes while no block is open. -/
def splitSnippet (gathered : List String) : List String → Option (List String × List String)
  | [] => none
  | line :: rest =>
    if Text.isBlankText line && blockDepth gathered == 0 then some (gathered, rest)
    else splitSnippet (gathered ++ [line]) rest

theorem suffix_of_splitSnippet {gathered lines later : List String}
    (found : splitSnippet gathered lines = some (snippet, later)) :
    ∃ last, last :: later <:+ lines := by
  induction lines generalizing gathered with
  | nil => cases found
  | cons line rest ih =>
    rw [splitSnippet] at found
    split at found
    · cases found
      exact ⟨line, suffix_rfl⟩
    · obtain ⟨last, suffix⟩ := ih found
      exact ⟨last, suffix.trans (suffix_cons _ _)⟩

/-- The requests of some lines, and the lines of a snippet that has not ended. -/
def requests : List String → List Request × List String
  | [] => ([], [])
  | line :: rest =>
    if Text.isBlankText line then requests rest
    else if isCommand line then (requests rest).map (command line :: ·) id
    else match _h : splitSnippet [line] rest with
      | some (snippet, later) => (requests later).map (.submit snippet :: ·) id
      | none => ([], line :: rest)
termination_by lines => lines.length
decreasing_by
  all_goals simp only [length_cons]
  · omega
  · omega
  · obtain ⟨last, suffix⟩ := suffix_of_splitSnippet _h
    have := suffix.length_le
    simp only [length_cons] at this
    omega

section

variable {line : String} {rest : List String}

theorem requests_blank (blank : Text.isBlankText line = true) :
    requests (line :: rest) = requests rest := by
  rw [requests, if_pos blank]

theorem requests_command (visible : Text.isBlankText line = false) (named : isCommand line = true) :
    requests (line :: rest) = (requests rest).map (command line :: ·) id := by
  rw [requests, visible, if_neg Bool.false_ne_true, if_pos named]

theorem requests_snippet {snippet later : List String} (visible : Text.isBlankText line = false)
    (text : isCommand line = false) (found : splitSnippet [line] rest = some (snippet, later)) :
    requests (line :: rest) = (requests later).map (.submit snippet :: ·) id := by
  rw [requests, visible, if_neg Bool.false_ne_true, text, if_neg Bool.false_ne_true]
  split
  · next found' =>
    cases found.symm.trans found'
    rfl
  · next none => cases found.symm.trans none

theorem requests_open (visible : Text.isBlankText line = false) (text : isCommand line = false)
    (none : splitSnippet [line] rest = none) : requests (line :: rest) = ([], line :: rest) := by
  rw [requests, visible, if_neg Bool.false_ne_true, text, if_neg Bool.false_ne_true]
  split
  · next found => cases none.symm.trans found
  · rfl

end

/-- The unit that a snippet is run as. -/
def snippetSource (snippet : List String) : Source :=
  ⟨unitName, "\n".intercalate snippet⟩

/-- Every line of a snippet passes its check, and the session can build its program. -/
def accepts (e : Environment) (snippet : List String) : Bool :=
  (lineErrors (snippetSource snippet).text).isEmpty &&
    (Program.parse (snippetSource snippet) (UInt32.ofNat e.funcCount)).isOk

/-- What a request makes of a session, and what it prints. -/
def Request.perform (limits : Limits) (e : Environment) : Request → Environment × String
  | .exit => (e, "")
  | .reset => ({}, "State reset.\n")
  | .submit snippet =>
    if accepts e snippet then
      let r := e.runSource limits (snippetSource snippet)
      (r.env, outputText r.outputs)
    else (e, "")

theorem accepts_of_lineErrors (invalid : lineErrors (snippetSource snippet).text ≠ []) :
    accepts e snippet = false := by
  rw [accepts, isEmpty_eq_false_iff.2 invalid, Bool.false_and]

theorem Request.perform_of_refused {limits : Limits} (refused : accepts e snippet = false) :
    (Request.submit snippet).perform limits e = (e, "") := by
  rw [Request.perform, refused, if_neg Bool.false_ne_true]

/-- What requests make of a session one after the other, and all that they print. -/
def replay (limits : Limits) (e : Environment) : List Request → Environment × String
  | [] => (e, "")
  | r :: rest =>
    let (next, out) := r.perform limits e
    (replay limits next rest).map id (out ++ ·)

/-! ## Lines -/

theorem commandWord_eq_empty {line : String} :
    commandWord line = "" ↔ Text.isBlankText line = true := by
  have trimmed : Text.trim line.toList = [] ↔ ∀ c ∈ line.toList, Text.isBlank c = true := by
    rw [Text.trim, Text.trimEnd, reverse_eq_nil_iff, Text.trimStart, dropWhile_eq_nil_iff,
      Text.trimStart]
    simp only [mem_reverse]
    constructor
    · intro blank c member
      rw [← takeWhile_append_dropWhile (p := Text.isBlank) (l := line.toList)] at member
      rcases mem_append.1 member with first | later
      · exact mem_takeWhile_imp first
      · exact blank c later
    · intro blank c member
      exact blank c ((dropWhile_suffix _).mem member)
  rw [commandWord, Text.isBlankText, all_eq_true, ← trimmed]
  constructor
  · intro same
    simpa using congrArg String.toList same
  · intro same
    rw [same]

variable {s : Shell} {line : String}

/-- The line ends the snippet that is waiting. -/
def Submits (s : Shell) (line : String) : Prop :=
  s.buffer ≠ #[] ∧ Text.isBlankText line = true ∧ blockDepth s.buffer.toList = 0

theorem feed_idle (idle : s.buffer = #[]) :
    s.feed line = match commandWord line with
      | ".exit" | ".quit" => (s, { exit := true })
      | ".reset" => ({ s with env := {} }, { out := "State reset.\n" })
      | "" => (s, {})
      | _ => s.feedUnit line := by
  have waiting : s.isBuffering = false := by simp [isBuffering, idle]
  unfold feed
  rw [waiting, if_neg Bool.false_ne_true]
  rfl

theorem feed_blank (idle : s.buffer = #[]) (blank : Text.isBlankText line = true) :
    s.feed line = (s, {}) := by
  simp [feed_idle idle, commandWord_eq_empty.2 blank]

theorem feed_command (idle : s.buffer = #[]) (named : isCommand line = true) :
    ∃ exit, s.feed line =
      ({ s with env := ((command line).perform s.limits s.env).1 },
        { exit, out := ((command line).perform s.limits s.env).2 }) := by
  rw [feed_idle idle, command]
  simp only [isCommand, contains_eq_mem, mem_cons, not_mem_nil, or_false,
    decide_eq_true_eq] at named
  rcases named with exit | quit | reset
  · exact ⟨true, by simp [exit, Request.perform]⟩
  · exact ⟨true, by simp [quit, Request.perform]⟩
  · exact ⟨false, by simp [reset, Request.perform]⟩

theorem feed_opening (idle : s.buffer = #[]) (visible : Text.isBlankText line = false)
    (text : isCommand line = false) : s.feed line = ({ s with buffer := #[line] }, {}) := by
  simp only [isCommand, contains_eq_mem, mem_cons, not_mem_nil, or_false,
    decide_eq_false_iff_not, not_or] at text
  rw [feed_idle idle]
  split
  · next exit => exact absurd exit text.1
  · next quit => exact absurd quit text.2.1
  · next reset => exact absurd reset text.2.2
  · next blank =>
    rw [commandWord_eq_empty.1 blank] at visible
    cases visible
  · simp [feedUnit, visible, idle]

/-- With waiting lines a shell ends the snippet or takes in one more line. -/
theorem feed_waiting (waiting : s.buffer ≠ #[]) :
    s.feed line =
      if Text.isBlankText line && blockDepth s.buffer.toList == 0 then s.submit
      else ({ s with buffer := s.buffer.push line }, {}) := by
  have buffering : s.isBuffering = true := by
    simpa [isBuffering] using waiting
  unfold feed
  rw [buffering, if_pos rfl]
  rfl

/-- A snippet is run if it is accepted; otherwise nothing is changed and nothing printed. -/
theorem submit_eq (s : Shell) :
    ∃ err, s.submit =
      ({ s with env := ((Request.submit s.buffer.toList).perform s.limits s.env).1, buffer := #[] },
        { out := ((Request.submit s.buffer.toList).perform s.limits s.env).2, err }) := by
  have unit : (⟨unitName, "\n".intercalate s.buffer.toList⟩ : Source) =
      snippetSource s.buffer.toList := rfl
  unfold submit
  dsimp only
  split
  · next valid =>
    cases parsed : Program.parse (snippetSource s.buffer.toList) (UInt32.ofNat s.env.funcCount) with
    | error report =>
      have refused : accepts s.env s.buffer.toList = false := by
        rw [accepts, parsed]
        exact Bool.and_false _
      rw [Request.perform_of_refused refused, runUnit, unit, runSource_of_error parsed]
      exact ⟨_, rfl⟩
    | ok p =>
      have accepted : accepts s.env s.buffer.toList = true := by
        rw [accepts, parsed, snippetSource, valid]
        rfl
      rw [Request.perform, if_pos accepted, runUnit, unit]
      dsimp only
      exact ⟨_, rfl⟩
  · next errors invalid =>
    rw [Request.perform_of_refused (accepts_of_lineErrors invalid)]
    exact ⟨_, rfl⟩

/-! ## Sessions -/

/-- Feeds lines to a shell, and gathers what it prints. -/
def feedAll (s : Shell) : List String → Shell × String
  | [] => (s, "")
  | line :: rest =>
    let (next, reply) := s.feed line
    (next.feedAll rest).map id (reply.out ++ ·)

theorem feedAll_cons (s : Shell) (line : String) (rest : List String) :
    s.feedAll (line :: rest) =
      ((s.feed line).1.feedAll rest).map id ((s.feed line).2.out ++ ·) := rfl

/-- From the lines gathered so far a shell gets to the end of their snippet. -/
theorem feedAll_waiting {lines : List String} (waiting : s.buffer ≠ #[]) :
    s.feedAll lines =
      match splitSnippet s.buffer.toList lines with
      | some (snippet, later) =>
        (({ s with
          env := ((Request.submit snippet).perform s.limits s.env).1, buffer := #[] } : Shell).feedAll
            later).map id (((Request.submit snippet).perform s.limits s.env).2 ++ ·)
      | none => ({ s with buffer := s.buffer ++ lines.toArray }, "") := by
  induction lines generalizing s with
  | nil => simp [feedAll, splitSnippet]
  | cons line rest ih =>
    rw [feedAll_cons, feed_waiting waiting, splitSnippet]
    split
    · obtain ⟨err, submitted⟩ := s.submit_eq
      rw [submitted]
    · have more : (s.buffer.push line) ≠ #[] := by simp
      rw [ih (s := { s with buffer := s.buffer.push line }) more]
      simp only [Array.toList_push]
      split <;> simp [Prod.map]

theorem feedAll_eq (limits : Limits) (e : Environment) (lines : List String) :
    Shell.feedAll ⟨limits, e, #[]⟩ lines =
      (⟨limits, (replay limits e (requests lines).1).1, (requests lines).2.toArray⟩,
        (replay limits e (requests lines).1).2) := by
  induction lines using requests.induct generalizing e with
  | case1 => simp [feedAll, requests, replay]
  | case2 line rest blank ih =>
    rw [feedAll_cons, feed_blank rfl blank, requests_blank blank, ih]
    simp [Prod.map]
  | case3 line rest visible named ih =>
    rw [Bool.not_eq_true] at visible
    obtain ⟨exit, answered⟩ := feed_command (s := ⟨limits, e, #[]⟩) rfl named
    rw [feedAll_cons, answered, requests_command visible named, ih]
    simp [replay, Prod.map]
  | case4 line rest visible text snippet later found ih =>
    rw [Bool.not_eq_true] at visible text
    rw [feedAll_cons, feed_opening rfl visible text, feedAll_waiting (by simp),
      requests_snippet visible text found]
    simp [found, ih, replay, Prod.map]
  | case5 line rest visible text none =>
    rw [Bool.not_eq_true] at visible text
    rw [feedAll_cons, feed_opening rfl visible text, feedAll_waiting (by simp),
      requests_open visible text none]
    simp [none, replay, Prod.map]

/-- What waits is the end of the lines, and begins with a line that opens a snippet. -/
theorem requests_waiting (lines : List String) :
    (requests lines).2 <:+ lines ∧
      ∀ first ∈ (requests lines).2.head?, Text.isBlankText first = false ∧ isCommand first = false := by
  induction lines using requests.induct with
  | case1 => simp [requests]
  | case2 line rest blank ih =>
    rw [requests_blank blank]
    exact ⟨ih.1.trans (suffix_cons _ _), ih.2⟩
  | case3 line rest visible named ih =>
    rw [requests_command (by simpa using visible) named]
    exact ⟨ih.1.trans (suffix_cons _ _), ih.2⟩
  | case4 line rest visible text snippet later found ih =>
    rw [requests_snippet (by simpa using visible) (by simpa using text) found]
    obtain ⟨last, suffix⟩ := suffix_of_splitSnippet found
    exact ⟨ih.1.trans (((suffix_cons _ _).trans suffix).trans (suffix_cons _ _)), ih.2⟩
  | case5 line rest visible text none =>
    rw [Bool.not_eq_true] at visible text
    rw [requests_open visible text none]
    simpa using And.intro visible text

/-! ## Submissions -/

/-- A snippet with a line that fails its check, or that cannot be built, is not accepted. -/
theorem accepts_eq_false (present : snippet ≠ []) (single : ∀ l ∈ snippet, '\n' ∉ l.toList)
    (fault : (∃ l ∈ snippet, ¬ LineForm.Passes l) ∨
      ∃ report, Program.parse (snippetSource snippet) (UInt32.ofNat e.funcCount) = .error report) :
    accepts e snippet = false := by
  rcases fault with ⟨l, member, fails⟩ | ⟨report, rejected⟩
  · have some : lineErrors (snippetSource snippet).text ≠ [] := by
      intro all
      obtain ⟨k, ks, rfl⟩ := exists_cons_of_ne_nil present
      rw [lineErrors_eq_nil_iff, snippetSource, String.toList_intercalate, map_cons,
        show "\n".toList = ['\n'] from rfl, pieces_intercalate (by simpa using single)] at all
      apply fails
      rw [← String.ofList_toList (s := l)]
      exact all l.toList (mem_map_of_mem (l := k :: ks) member)
    exact accepts_of_lineErrors some
  · rw [accepts, rejected]
    exact Bool.and_false _

/-- Of all lines only a command that finds nothing waiting ends a session. -/
theorem idle_of_exit {s : Shell} {line : String} (exit : (s.feed line).2.exit = true) :
    s.buffer = #[] := by
  by_contra waiting
  rw [feed_waiting waiting] at exit
  split at exit
  · obtain ⟨err, submitted⟩ := s.submit_eq
    rw [submitted] at exit
    cases exit
  · cases exit

/-- **Only accepted snippets act.** A fresh shell that was fed any lines holds the session of `replay`
and has printed what `replay` prints. When a snippet is submitted no lines are left waiting, and unless
all its lines pass their check and the session can build its program, nothing is changed and nothing
printed. What waits begins with a line that is neither blank nor a command, and the shell is left only
when nothing waits. -/
theorem shell_runs_accepted_snippets (limits : Limits) (lines : List String)
    (single : ∀ l ∈ lines, '\n' ∉ l.toList) :
    let s := (Shell.feedAll { limits } lines).1
    (s.env, (Shell.feedAll { limits } lines).2) = replay limits {} (requests lines).1 ∧
      s.buffer.toList = (requests lines).2 ∧
      (∀ line, s.Submits line →
        (s.feed line).1.buffer = #[] ∧
        ((s.feed line).1.env, (s.feed line).2.out) =
          (Request.submit s.buffer.toList).perform limits s.env ∧
        (((∃ l ∈ s.buffer.toList, ¬ LineForm.Passes l) ∨
            ∃ report, Program.parse (snippetSource s.buffer.toList) (UInt32.ofNat s.env.funcCount) =
              .error report) →
          (s.feed line).1.env = s.env ∧ (s.feed line).2.out = "")) ∧
      (∀ first ∈ s.buffer.toList.head?, Text.isBlankText first = false ∧ isCommand first = false) ∧
      ∀ line, (s.feed line).2.exit = true → s.buffer = #[] := by
  obtain ⟨suffix, opening⟩ := requests_waiting lines
  simp only [feedAll_eq, true_and]
  refine ⟨?_, opening, fun line => idle_of_exit⟩
  rintro line ⟨waiting, blank, closed⟩
  rw [feed_waiting waiting, if_pos (by simpa [blank] using closed)]
  obtain ⟨err, submitted⟩ := submit_eq
    ⟨limits, (replay limits {} (requests lines).1).1, (requests lines).2.toArray⟩
  simp only [submitted, true_and]
  intro fault
  have refused := accepts_eq_false (by simpa using waiting)
    (fun l member => single l (suffix.mem member)) fault
  simp [Request.perform_of_refused refused]

/-- A snippet that prints, one with a stray word, a command, and a function that is not closed. -/
def mixedLines : List String :=
  ["= g0 7", ". g0", "", ". g0", "stray", "", " .reset ", ".reset g0", "", "# 0 1 \x7b", "", ".exit"]

set_option maxRecDepth 4000 in
theorem shell_runs_accepted_snippets_mixedLines :
    (∀ l ∈ mixedLines, '\n' ∉ l.toList) ∧
      (Shell.feedAll {} mixedLines).2 = "7\nState reset.\n" ∧
      (Shell.feedAll {} mixedLines).1.buffer.toList = ["# 0 1 \x7b", "", ".exit"] := by
  have single : ∀ l ∈ mixedLines, '\n' ∉ l.toList := by decide
  have found : requests mixedLines =
      ([.submit ["= g0 7", ". g0"], .submit [". g0", "stray"], .reset, .submit [".reset g0"]],
        ["# 0 1 \x7b", "", ".exit"]) := by
    simp +decide [mixedLines, requests, splitSnippet, command]
  have seven : ((Request.submit ["= g0 7", ". g0"]).perform {} {}).2 = "7\n" := by cbv
  have stray (e : Environment) : (Request.submit [". g0", "stray"]).perform {} e = (e, "") :=
    Request.perform_of_refused (accepts_of_lineErrors (isEmpty_eq_false_iff.1 (by cbv)))
  have operand (e : Environment) : (Request.submit [".reset g0"]).perform {} e = (e, "") :=
    Request.perform_of_refused (accepts_of_lineErrors (isEmpty_eq_false_iff.1 (by cbv)))
  have printed : (replay {} {} (requests mixedLines).1).2 = "7\nState reset.\n" := by
    have reset (e : Environment) : Request.reset.perform {} e = ({}, "State reset.\n") := rfl
    simp only [found, replay, stray, operand, reset, Prod.map, seven]
    rfl
  obtain ⟨acted, waiting, -⟩ := shell_runs_accepted_snippets {} mixedLines single
  refine ⟨single, ?_, waiting.trans (congrArg Prod.snd found)⟩
  rw [← printed, ← acted]

end SlotLang.Shell
