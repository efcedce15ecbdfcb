import SlotLang.Proofs.Canonical.Lines

/-!
# Lines wherever they stand

Where its tokens stand matters for a line only in so far as faults are reported there
(`LineForm.ofTokens_moved`). So a line keeps its form under another number, and with blanks added at
its end, where a carriage return counts as a blank. Lines that are joined by line feeds are the pieces
that are found again.
-/

open List

namespace SlotLang

/-! ## Forms -/

/-- A token at another place. -/
def Token.moved (move : Span → Span) (t : Token) : Token :=
  { t with span := move t.span }

/-- An error at another place. -/
def LineError.moved (move : Span → Span) (e : LineError) : LineError :=
  { e with span := move e.span }

namespace LineForm

theorem checkOperands_moved (move : Span → Span) (op : Opcode) (expected : List OperandKind)
    (ts : List Token) : checkOperands op expected (ts.map (Token.moved move)) =
      (checkOperands op expected ts).mapError (LineError.moved move) := by
  induction ts generalizing expected with
  | nil => rfl
  | cons t ts ih =>
    have here (kind : OperandKind) : checkOperand op kind (t.moved move) =
        (checkOperand op kind t).mapError (LineError.moved move) := by
      dsimp only [checkOperand, Token.moved]
      split
      · rfl
      · cases accept? kind t.kind <;> rfl
    rw [map_cons, checkOperands, checkOperands, here, ih]
    cases checkOperand op (expected.headD .value) t with
    | error e => rfl
    | ok first => cases checkOperands op expected.tail ts <;> rfl

/-- Tokens that are moved have the same form on another line, or the same fault at another place. -/
theorem ofTokens_moved (move : Span → Span) (line line' : Nat) (ts : List Token) :
    ofTokens line' (ts.map (Token.moved move)) =
      ((ofTokens line ts).map (onLine line')).mapError (LineError.moved move) := by
  cases ts with
  | nil => rfl
  | cons head operands =>
    have last : (operands.map (Token.moved move)).getLast?.map Token.kind =
        operands.getLast?.map Token.kind := by
      rw [getLast?_map, Option.map_map]
      rfl
    rw [map_cons, ofTokens, ofTokens]
    dsimp only [Token.moved]
    split
    · next op _ =>
      unfold ofOpcode
      rw [checkOperands_moved, last, length_map]
      by_cases brace : op = .defineFunc ∧ operands.getLast?.map Token.kind ≠ some .blockOpen
      · simp only [if_pos brace]
        rfl
      by_cases count : op.takesCount operands.length = false
      · simp only [if_neg brace, if_pos count]
        rfl
      simp only [if_neg brace, if_neg count]
      cases checkOperands op op.signature operands with
      | error e => rfl
      | ok os => cases op <;> rfl
    · rfl

end LineForm

theorem LineRole.ofTokens_moved (move : Span → Span) (ts : List Token) :
    LineRole.ofTokens (ts.map (Token.moved move)) = LineRole.ofTokens ts := by
  cases ts with
  | nil => rfl
  | cons first rest =>
    rw [map_cons, ofTokens, ofTokens, getLast?_map, Option.getD_map]
    rfl

theorem ofLine_moved (line line' : Nat) (text : String) : Token.ofLine line' text =
    (Token.ofLine line text).map (Token.moved fun s => { s with line := line' }) := by
  rw [Token.ofLine, Token.ofLine, map_map]
  rfl

theorem LineForm.ofText_of_ofText {line : Nat} {text : String} {form : LineForm}
    (formed : ofText line text = .ok form) (line' : Nat) :
    ofText line' text = .ok (form.onLine line') := by
  rw [ofText] at formed
  rw [ofText, ofLine_moved line, ofTokens_moved _ line, formed]
  rfl

/-! ## Blanks at the end of a line -/

/-- Blanks at its end change nothing about a line. -/
theorem ofLine_append_blanks {blanks : List Char} (all : ∀ c ∈ blanks, Text.isBlank c = true)
    (line : Nat) (cs : List Char) :
    Token.ofLine line (String.ofList (cs ++ blanks)) = Token.ofLine line (String.ofList cs) := by
  have words (column : Nat) : Word.fromColumn column (cs ++ blanks) = Word.fromColumn column cs := by
    induction blanks generalizing cs with
    | nil => rw [append_nil]
    | cons c blanks ih =>
      rw [forall_mem_cons] at all
      rw [← singleton_append, ← append_assoc, ih all.2, fromColumn_split all.1]
      exact append_nil _
  simp only [Token.ofLine, String.toList_ofList]
  exact congrArg (fun ws : List Word => (ws.takeWhile fun w => !w.isComment).map (Token.ofWord line))
    (words 1)

theorem exists_dropReturn (cs : List Char) :
    ∃ blanks, (∀ c ∈ blanks, Text.isBlank c = true) ∧ cs = Text.dropReturn cs ++ blanks := by
  unfold Text.dropReturn
  split
  · next rest reversed =>
    refine ⟨['\r'], forall_mem_singleton.2 rfl, ?_⟩
    rw [← reverse_cons, ← reversed, reverse_reverse]
  · exact ⟨[], by simp, (append_nil _).symm⟩

theorem ofText_dropReturn (line : Nat) (cs : List Char) :
    LineForm.ofText line (String.ofList (Text.dropReturn cs)) =
      LineForm.ofText line (String.ofList cs) := by
  obtain ⟨blanks, all, same⟩ := exists_dropReturn cs
  conv_rhs => rw [same]
  rw [LineForm.ofText, LineForm.ofText, ofLine_append_blanks all]

/-! ## Lines joined by line feeds -/

theorem cutAtFeeds_single {l : List Char} (single : '\n' ∉ l) : Text.cutAtFeeds l = (l, []) := by
  induction l with
  | nil => rfl
  | cons c l ih =>
    have other : c ≠ '\n' := fun same => single (same ▸ mem_cons_self)
    have step : Text.cutAtFeeds (c :: l) = (c :: (Text.cutAtFeeds l).1, (Text.cutAtFeeds l).2) :=
      if_neg other
    rw [step, ih fun member => single (mem_cons_of_mem _ member)]

theorem pieces_intercalate {l : List Char} {lines : List (List Char)}
    (single : ∀ k ∈ l :: lines, '\n' ∉ k) :
    Text.pieces (['\n'].intercalate (l :: lines)) = l :: lines := by
  induction lines generalizing l with
  | nil =>
    rw [intercalate_singleton, Text.pieces, cutAtFeeds_single (single l mem_cons_self)]
  | cons k lines ih =>
    rw [forall_mem_cons] at single
    rw [intercalate_cons_cons, append_assoc, singleton_append, Text.pieces,
      cutAtFeeds_append single.1, ih single.2]

def LineForm.Passes (text : String) : Prop :=
  ∃ form, LineForm.ofText 1 text = .ok form

/-- The fault of a line, with its number. -/
def errorAt (line : String × Nat) : Option (Nat × LineError) :=
  match LineForm.ofText line.2 line.1 with
  | .ok _ => none
  | .error e => some (line.2, e)

theorem errorAt_eq_none (line : String × Nat) : errorAt line = none ↔ LineForm.Passes line.1 := by
  unfold errorAt
  constructor
  · intro none
    cases formed : LineForm.ofText line.2 line.1 with
    | ok form => exact ⟨_, LineForm.ofText_of_ofText formed 1⟩
    | error e => simp [formed] at none
  · rintro ⟨form, formed⟩
    rw [LineForm.ofText_of_ofText formed line.2]

/-- What ends a line makes no difference to its fault, and neither does a last line that is empty. -/
theorem errors_endedLines (pieces : List (List Char)) (n : Nat) :
    (((Text.endedLines pieces).map String.ofList).zipIdx n).filterMap errorAt =
      ((pieces.map String.ofList).zipIdx n).filterMap errorAt := by
  induction pieces generalizing n with
  | nil => rfl
  | cons piece rest ih =>
    cases rest with
    | nil =>
      unfold Text.endedLines
      by_cases nothing : piece = []
      · subst nothing
        rfl
      · simp [nothing]
    | cons next rest =>
      have same : errorAt (String.ofList (Text.dropReturn piece), n) =
          errorAt (String.ofList piece, n) := by
        rw [errorAt, errorAt, ofText_dropReturn]
      rw [Text.endedLines, map_cons, map_cons, zipIdx_cons, zipIdx_cons,
        filterMap_cons, filterMap_cons, same, ih]
      exact cons_ne_nil next rest

theorem lineErrors_eq (text : String) : lineErrors text =
    (((Text.pieces text.toList).map String.ofList).zipIdx 1).filterMap errorAt :=
  errors_endedLines _ 1

theorem lineErrors_eq_nil_iff {text : String} :
    lineErrors text = [] ↔
      ∀ cs ∈ Text.pieces text.toList, LineForm.Passes (String.ofList cs) := by
  rw [lineErrors_eq, filterMap_eq_nil_iff]
  constructor
  · intro none cs member
    obtain ⟨n, there, here⟩ := getElem_of_mem member
    refine (errorAt_eq_none (String.ofList cs, 1 + n)).1 (none _ ?_)
    rw [mk_add_mem_zipIdx_iff_getElem?]
    simp [there, here]
  · intro all line member
    obtain ⟨cs, there, same⟩ := mem_map.1 (fst_mem_of_mem_zipIdx member)
    exact (errorAt_eq_none line).2 (same ▸ all cs there)

end SlotLang
