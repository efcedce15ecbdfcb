import SlotLang.Proofs.Reader.Statements
import SlotLang.Proofs.Script.Reading

/-!
# What scripts are read as

The text of a known script is read as the trees of its statements. A block is read by induction: its
rows are laid out one level deeper than the row in front of it, and nothing that follows it continues
the statement that it belongs to.
-/

open List

namespace SlotLang.Script

open Reader.TextLine

variable {body : List Stmt} {d : Def} {newline : Lexeme} {ps : List Piece} {rest : List Lexeme}

open Reader Reader.Parsing

/-! ## Trees and lines -/

mutual

def Stmt.height : Stmt → Nat
  | .whenNonzero _ body | .whenPc _ body | .forever body => blockHeight body + 1
  | .assign .. | .print _ | .ret _ | .raise _ | .note _ | .setPc _ | .again | .leave => 1

def blockHeight : List Stmt → Nat
  | [] => 0
  | s :: rest => s.height + blockHeight rest

end

mutual

def Stmt.levels : Stmt → Nat
  | .whenNonzero _ body | .whenPc _ body | .forever body => blockLevels body + 1
  | .assign .. | .print _ | .ret _ | .raise _ | .note _ | .setPc _ | .again | .leave => 0

/-- How many levels of blocks some statements have. -/
def blockLevels : List Stmt → Nat
  | [] => 0
  | s :: rest => max s.levels (blockLevels rest)

end

/-- The tree of a test of `_pc`. -/
def pcTree (line k : Nat) : Reader.Expr :=
  .compare (.name pcName line) [(.eq, .constant (.int k) line)] line

mutual

/-- The tree of a statement that starts on a line; a comment has none. -/
def Stmt.trees (line : Nat) : Stmt → List Reader.Stmt
  | .assign dest t => [.assign [operandTree line dest] (t.tree line) line]
  | .print o => [.expr (callTree line "print" [operandTree line o]) line]
  | .ret o => [.ret (some (operandTree line o)) line]
  | .raise _ | .note _ => []
  | .whenNonzero o body => [.cond (nonzeroTree line o) (blockTrees (line + 1) body) [] line]
  | .setPc k => [.assign [.name pcName line] (.constant (.int k) line) line]
  | .again => [.continueLoop line]
  | .leave => [.breakLoop line]
  | .whenPc k body => [.cond (pcTree line k) (blockTrees (line + 1) body) [] line]
  | .forever body =>
    [.whileLoop (.constant (.bool true) line) (blockTrees (line + 1) body) [] line]

/-- The trees of statements that start on a line. -/
def blockTrees (line : Nat) : List Stmt → List Reader.Stmt
  | [] => []
  | s :: rest => s.trees line ++ blockTrees (line + s.height) rest

end

mutual

theorem Stmt.length_source (s : Stmt) (depth : Nat) : (s.source depth).length = s.height := by
  cases s with
  | whenNonzero o body | whenPc k body | forever body =>
    rw [Stmt.source, Stmt.height, length_cons, length_blockSource]
  | _ => rfl

theorem length_blockSource (body : List Stmt) (depth : Nat) :
    (blockSource depth body).length = blockHeight body := by
  cases body with
  | nil => rfl
  | cons s rest =>
    rw [blockSource, blockHeight, length_append, s.length_source, length_blockSource]

end

/-! ## Rows -/

theorem rowsFrom_append (line : Nat) (xs ys : List TextLine) :
    rowsFrom line (xs ++ ys) =
      rowsFrom line xs ++ rowsFrom (line + xs.length) ys := by
  induction xs generalizing line with
  | nil => rfl
  | cons x xs ih =>
    have shifted := ih (line + 1)
    rw [Nat.add_assoc, Nat.add_comm 1] at shifted
    cases x with
    | silent cs => exact shifted
    | code depth ps => exact congrArg (_ :: ·) shifted

theorem rowsFrom_blockSource_cons (line depth : Nat) (s : Stmt) (body : List Stmt) :
    rowsFrom line (blockSource depth (s :: body)) =
      rowsFrom line (s.source depth) ++
        rowsFrom (line + s.height) (blockSource depth body) := by
  rw [blockSource, rowsFrom_append, s.length_source]

/-- A row that neither continues the statement before it nor ends a block. -/
def IsPlainRow (r : Row) : Prop :=
  ∃ l ls, Piece.lexemes r.line r.pieces = l :: ls ∧ isUnrelated l.kind = true ∧ opensRow l.kind = true

theorem isUnrelated_of_laid (laid : Laid depth rows ls) (plain : ∀ r ∈ rows, IsPlainRow r) :
    isUnrelated (kindOf ls) = true := by
  cases laid with
  | @done _ dedents last closed ended =>
    cases dedents with
    | nil => exact (congrArg isUnrelated ended).trans rfl
    | cons l dedents =>
      have kind : l.kind = .dedent := by
        have member : l.kind ∈ List.replicate depth Kind.dedent := closed ▸ mem_cons_self
        exact (mem_replicate.1 member).2
      exact (congrArg isUnrelated kind).trans rfl
  | @row _ r rows shifts rest newline shifted ended more =>
    cases shifts with
    | nil =>
      obtain ⟨l, ls, lexemes, unrelated, -⟩ := plain r mem_cons_self
      rw [lexemes]
      exact unrelated
    | cons l shifts =>
      have member : l.kind ∈ shift depth r.depth := shifted ▸ mem_cons_self
      unfold shift at member
      split at member
      · exact (congrArg isUnrelated (mem_singleton.1 member)).trans rfl
      · exact (congrArg isUnrelated (mem_replicate.1 member).2).trans rfl

theorem isPlainRow_word {text : String} (ps : List Piece)
    (unrelated : text ≠ "elif" ∧ text ≠ "else") : IsPlainRow ⟨depth, line, .word text :: ps⟩ := by
  by_cases reserved : reservedWords.contains text = true
  · refine ⟨_, _, lexemes_word reserved line ps, ?_, rfl⟩
    simp [isUnrelated, Lexeme.onLine, unrelated]
  · exact ⟨_, _, lexemes_name (Bool.eq_false_iff.2 reserved) line ps, rfl, rfl⟩

theorem unrelated_numbered {text : String} {letter : Char} {n : Nat}
    (shape : text.toList = letter :: digits n) : text ≠ "elif" ∧ text ≠ "else" := by
  have outside := contains_numbered shape ["elif", "else"] (by decide)
  simpa using outside

mutual

theorem Stmt.isPlainRow_source {s : Stmt} (known : s.IsKnown) (line depth : Nat) :
    ∀ r ∈ rowsFrom line (s.source depth), IsPlainRow r := by
  have only {ps : List Piece} (plain : IsPlainRow ⟨depth, line, ps⟩) :
      ∀ r ∈ rowsFrom line [.code depth ps], IsPlainRow r := by
    intro r member
    obtain rfl := mem_singleton.1 member
    exact plain
  cases s with
  | assign dest t =>
    rw [Stmt.source]
    have slot := known.1
    cases dest with
    | lit v => cases slot
    | global n | var n | arg n =>
      exact only (isPlainRow_word _ (unrelated_numbered (toList_slot slot)))
  | print o | ret o | setPc k | again | leave =>
    rw [Stmt.source]
    exact only (isPlainRow_word _ (by decide))
  | raise message => cases known
  | note label => exact nofun
  | whenNonzero o body | whenPc k body | forever body =>
    rw [Stmt.source]
    exact forall_mem_cons.2 ⟨isPlainRow_word _ (by decide),
      isPlainRow_blockSource known.2 (line + 1) (depth + 1)⟩

theorem isPlainRow_blockSource {body : List Stmt} (known : AllKnown body) (line depth : Nat) :
    ∀ r ∈ rowsFrom line (blockSource depth body), IsPlainRow r := by
  cases body with
  | nil => exact nofun
  | cons s rest =>
    rw [rowsFrom_blockSource_cons]
    exact forall_mem_append.2 ⟨s.isPlainRow_source known.1 line depth,
      isPlainRow_blockSource known.2 (line + s.height) depth⟩

end

/-- What stands on the lines of a statement: nothing for a comment, else a row first. -/
theorem Stmt.rows_cases {s : Stmt} (known : s.IsKnown) (line depth : Nat) :
    (s.isNote = true ∧ rowsFrom line (s.source depth) = [] ∧ s.trees line = []) ∨
      (s.isNote = false ∧ (∃ ps more, rowsFrom line (s.source depth) =
        ⟨depth, line, ps⟩ :: more) ∧ ∃ t, s.trees line = [t]) := by
  cases s with
  | raise message => cases known
  | note label => exact .inl ⟨rfl, rfl, rfl⟩
  | whenNonzero o body | whenPc k body | forever body =>
    refine .inr ⟨rfl, ?_, ?_⟩
    · rw [Stmt.source]
      exact ⟨_, _, rfl⟩
    · rw [Stmt.trees]
      exact ⟨_, rfl⟩
  | _ => exact .inr ⟨rfl, ⟨_, _, rfl⟩, _, rfl⟩

/-- The first row of a block stands at its depth, unless nothing but comments are there. -/
theorem rows_block_cases (known : AllKnown body) (line depth : Nat) :
    (body.all Stmt.isNote = true ∧ rowsFrom line (blockSource depth body) = [] ∧
        blockTrees line body = []) ∨
      (body.all Stmt.isNote = false ∧ (∃ r more, rowsFrom line (blockSource depth body) =
        r :: more ∧ r.depth = depth) ∧ blockTrees line body ≠ []) := by
  induction body generalizing line with
  | nil => exact .inl ⟨rfl, rfl, rfl⟩
  | cons s body ih =>
    rw [rowsFrom_blockSource_cons, blockTrees, all_cons]
    rcases s.rows_cases known.1 line depth with ⟨note, none, noTree⟩ | ⟨code, ⟨ps, more, rows⟩, t, tree⟩
    · rw [note, none, noTree]
      exact ih known.2 (line + s.height)
    · rw [code, rows, tree]
      exact .inr ⟨rfl, ⟨_, _, rfl, rfl⟩, cons_ne_nil _ _⟩

theorem head_depth_le (known : AllKnown body) (line : Nat)
    (shallow : ∀ r ∈ rows.head?, r.depth ≤ depth) :
    ∀ r ∈ (rowsFrom line (blockSource depth body) ++ rows).head?, r.depth ≤ depth := by
  rcases rows_block_cases known line depth with ⟨-, none, -⟩ | ⟨-, ⟨r, more, some, same⟩, -⟩
  · rw [none]
    exact shallow
  · rw [some]
    rintro _ ⟨⟩
    exact Nat.le_of_eq same

/-! ## Reading -/

/-- A parser of expressions that nest as deep as terms do. -/
abbrev deep (depth : Nat) : Nested :=
  nested (depth + 6)

abbrev blockParser (depth fuel : Nat) : Parsing (List Reader.Stmt) :=
  statements (deep depth) fuel (suiteOfDepth (deep depth) fuel)

variable {depth fuel level line : Nat} {rows : List Row} {ls : List Lexeme}

def Yields (depth fuel level : Nat) (ls : List Lexeme) (trees : List Reader.Stmt) (rows : List Row) :
    Prop :=
  ∃ rest, Laid level rows rest ∧
    Many opensRow (blockParser depth fuel) ls (trees.map ([·])) rest

theorem yields_simple {t : Reader.Stmt} (laid : Laid level (⟨level, line, ps⟩ :: rows) ls)
    (plain : IsPlainRow ⟨level, line, ps⟩)
    (opens : ∀ rest, opensSimple (kindOf (Piece.lexemes line ps ++ rest)) = true)
    (read : ∀ newline rest, newline.kind = .newline → simpleStatement (deep depth)
      (Piece.lexemes line ps ++ newline :: rest) = .ok (t, newline :: rest)) :
    Yields depth fuel level ls [t] rows := by
  obtain ⟨newline, rest, ended, rfl, more⟩ := laid.first rfl
  obtain ⟨l, others, lexemes, -, starts⟩ := plain
  refine ⟨rest, more, .cons ?_ ?_ ?_ (.nil rest)⟩
  · rw [lexemes]
    exact starts
  · rw [blockParser, statements_simple (opens _)]
    exact simpleLine_of_statement (read newline rest ended) ended
  · simp only [length_append, length_cons]
    omega

theorem flatten_map_singleton {α : Type} (xs : List α) : (xs.map ([·])).flatten = xs := by
  induction xs with
  | nil => rfl
  | cons x xs ih => exact congrArg (x :: ·) ih

theorem yields_compound {inner : List Row} {trees : List Reader.Stmt}
    (whole : List Reader.Stmt → Reader.Stmt)
    (laid : Laid level (⟨level, line, ps⟩ :: (inner ++ rows)) ls)
    (plain : IsPlainRow ⟨level, line, ps⟩)
    (visible : (∃ r more, inner = r :: more ∧ r.depth = level + 1) ∧ trees ≠ [])
    (shallow : ∀ r ∈ rows.head?, r.depth ≤ level) (unrelated : ∀ r ∈ rows, IsPlainRow r)
    (block : ∀ ls, Laid (level + 1) (inner ++ rows) ls → Yields depth fuel (level + 1) ls trees rows)
    (read : ∀ rest rest' ss, suiteOfDepth (deep depth) (fuel + 1) rest = .ok (ss, rest') →
      isUnrelated (kindOf rest') = true →
      blockParser depth (fuel + 1) (Piece.lexemes line ps ++ rest) = .ok ([whole ss], rest')) :
    Yields depth (fuel + 1) level ls [whole trees] rows := by
  obtain ⟨newline, rest, ended, rfl, more⟩ := laid.first rfl
  obtain ⟨⟨r, others, rfl, same⟩, nonempty⟩ := visible
  obtain ⟨indent, inside, isIndent, rfl, laidInside⟩ := more.indent same
  obtain ⟨behind, laidBehind, many⟩ := block inside laidInside
  obtain ⟨dedent, after, isDedent, rfl, laidAfter⟩ := laidBehind.dedent shallow
  obtain ⟨t, ts, rfl⟩ := exists_cons_of_ne_nil nonempty
  have suite := suiteAround_of_many ended isIndent many isDedent
  rw [show ((fun x => [x]) t :: ts.map ([·])).flatten = t :: ts from
    flatten_map_singleton (t :: ts)] at suite
  obtain ⟨l, lexemes, shape, -, starts⟩ := plain
  refine ⟨after, laidAfter, .cons ?_ (read _ _ _ suite (isUnrelated_of_laid laidAfter unrelated)) ?_
    (.nil after)⟩
  · rw [shape]
    exact starts
  · have shorter := many.length_le
    simp only [length_append, length_cons] at shorter ⊢
    omega

theorem condition_nonzero (o : Operand) :
    condition (deep depth) (Piece.lexemes line (between o (.sign "!=") (.lit 0)) ++
      .onLine (.sign ":") line :: rest) =
      .ok (nonzeroTree line o, .onLine (.sign ":") line :: rest) :=
  condition_of_test (test_comparison (depth + 3) o (.lit 0) .ne (by rw [kindOf_sign]; decide))
    (second_between line o (.lit 0) rfl _)

/-- `_pc` and a number are read like operands. -/
theorem condition_pc (k : Nat) :
    condition (deep depth) (.onLine (.name pcName) line :: .onLine (.sign "==") line ::
      .onLine (.int k) line :: .onLine (.sign ":") line :: rest) =
      .ok (pcTree line k, .onLine (.sign ":") line :: rest) := by
  have colon : kindOf (.onLine (.sign ":") line :: rest) ∈ afterTest := by
    rw [kindOf_sign]
    decide
  have equals : kindOf (.onLine (.sign "==") line :: .onLine (.int k) line ::
      .onLine (.sign ":") line :: rest) ∈ afterExpression := by
    rw [kindOf_sign]
    decide
  have further := mem_afterInversion colon
  have first := expression_of_factor (n := nested (depth + 5)) (factor_unsigned (n := nested (depth + 4))
    (atom_name _ pcName line line _) rfl nofun (mem_append_left _ equals)) equals
  have second := expression_of_factor (n := nested (depth + 5)) (factor_unsigned (n := nested (depth + 4))
    (atom_int _ k line line _) rfl nofun (mem_append_left _ (mem_afterExpression further)))
    (mem_afterExpression further)
  exact condition_of_test (n := deep depth) (test_of_disjunction (n := nested (depth + 5))
    (disjunction_of_inversion (inversion_of_comparison (comparison_pair .eq first rfl second further)
      rfl) colon) rfl colon) rfl

theorem condition_true :
    condition (deep depth) (.onLine (.word "True") line :: .onLine (.sign ":") line :: rest) =
      .ok (.constant (.bool true) line, .onLine (.sign ":") line :: rest) := by
  have colon : kindOf (.onLine (.sign ":") line :: rest) ∈ afterTest := by
    rw [kindOf_sign]
    decide
  have further := mem_afterExpression (mem_afterInversion colon)
  exact condition_of_test (n := deep depth) (test_of_expression (n := nested (depth + 5))
    (expression_of_factor (factor_unsigned (n := nested (depth + 4)) (atom_true _ line line _) rfl nofun
      (mem_append_left _ further)) further) rfl colon) rfl

theorem simpleStatement_assign {target : String} (free : reservedWords.contains target = false)
    {e : Reader.Expr} (ended : newline.kind = .newline)
    (read : (deep depth).test (Piece.lexemes line ps ++ newline :: rest) = .ok (e, newline :: rest))
    (opens : opensTest (kindOf (Piece.lexemes line ps ++ newline :: rest)) = true) :
    simpleStatement (deep depth) (Piece.lexemes line (.word target :: .gap :: .sign "=" :: .gap :: ps) ++
      newline :: rest) = .ok (.assign [.name target line] e line, newline :: rest) := by
  rw [lexemes_name free, lexemes_gap, lexemes_sign, lexemes_gap]
  change simpleStatement (deep depth) (.onLine (.name target) line :: .onLine (.sign "=") line ::
    (Piece.lexemes line ps ++ newline :: rest)) = _
  rw [simpleStatement_name rfl]
  have equals : kindOf (.onLine (.sign "=") line :: (Piece.lexemes line ps ++ newline :: rest)) ∈
      afterTest := by
    rw [kindOf_sign]
    decide
  have further := mem_afterExpression (mem_afterInversion equals)
  have first := test_of_expression (n := nested (depth + 5)) (expression_of_factor
    (factor_unsigned (n := nested (depth + 4)) (atom_name _ target line line _) rfl nofun
      (mem_append_left _ further)) further) rfl equals
  refine expressionStatement_assign first rfl rfl rfl read opens ended ?_
  simp

theorem newline_mem (ended : newline.kind = .newline) (rest : List Lexeme) :
    kindOf (newline :: rest) ∈ afterTest := by
  rw [show kindOf (newline :: rest) = .newline from ended]
  decide

theorem opensTest_term (t : Term) (rest : List Lexeme) :
    opensTest (kindOf (Piece.lexemes line t.pieces ++ rest)) = true := by
  have applied_opens {name : String} {inside : List Piece}
      (free : reservedWords.contains name = false) :
      opensTest (kindOf (Piece.lexemes line (applied name inside) ++ rest)) = true := by
    rw [lexemes_applied free]
    rfl
  cases t with
  | operand o => exact opensTest_of_opensOperand (opensOperand_operand line o _).1
  | call f args => exact applied_opens (free_numbered (toList_funcName f))
  | _ => exact applied_opens (by decide)

theorem operandPieces_slot {o : Operand} (line : Nat) (slot : o.isSlot = true) :
    operandPieces o = [.word o.text] ∧ operandTree line o = .name o.text line := by
  cases o with
  | lit v => cases slot
  | global n | var n | arg n => exact ⟨rfl, rfl⟩

theorem simpleStatement_print (o : Operand) (ended : newline.kind = .newline) :
    simpleStatement (deep depth) (Piece.lexemes line (applied "print" (operandPieces o)) ++
      newline :: rest) =
      .ok (.expr (callTree line "print" [operandTree line o]) line, newline :: rest) := by
  have free : reservedWords.contains "print" = false := by decide
  have read : (deep depth).test (Piece.lexemes line (applied "print" (operandPieces o)) ++
      newline :: rest) = .ok (callTree line "print" [operandTree line o], newline :: rest) :=
    test_applied (depth + 4) free (arguments_operands (depth + 1) line [o] (newline :: rest))
      (newline_mem ended rest)
  rw [lexemes_applied free] at read ⊢
  rw [simpleStatement_name rfl]
  exact expressionStatement_expr read rfl rfl ended

theorem test_number (k : Nat) (ended : newline.kind = .newline) :
    (deep depth).test (Piece.lexemes line [.number k] ++ newline :: rest) =
      .ok (.constant (.int k) line, newline :: rest) := by
  have follows := newline_mem ended rest
  have further := mem_afterExpression (mem_afterInversion follows)
  exact test_of_expression (n := nested (depth + 5)) (expression_of_factor (factor_unsigned
    (n := nested (depth + 4)) (atom_int _ k line line _) rfl nofun (mem_append_left _ further))
    further) rfl follows

theorem shallow_of_le (shallow : ∀ r ∈ rows.head?, r.depth ≤ level) :
    ∀ r ∈ rows.head?, r.depth ≤ level + 1 :=
  fun r first => Nat.le_succ_of_le (shallow r first)

theorem block_visible (visible : body.all Stmt.isNote = false) (known : AllKnown body)
    (line depth : Nat) :
    (∃ r more, rowsFrom line (blockSource depth body) = r :: more ∧ r.depth = depth) ∧
      blockTrees line body ≠ [] := by
  rcases rows_block_cases known line depth with ⟨notes, -, -⟩ | ⟨-, some, nonempty⟩
  · rw [notes] at visible
    cases visible
  · exact ⟨some, nonempty⟩

mutual

theorem Stmt.yields (depth fuel : Nat) {level line : Nat} {rows : List Row} {ls : List Lexeme} {s : Stmt}
    (known : s.IsKnown) (enough : s.levels ≤ fuel)
    (laid : Laid level (rowsFrom line (s.source level) ++ rows) ls)
    (shallow : ∀ r ∈ rows.head?, r.depth ≤ level) (unrelated : ∀ r ∈ rows, IsPlainRow r) :
    Yields depth fuel level ls (s.trees line) rows := by
  have plain := s.isPlainRow_source known line level
  cases s <;> rw [Stmt.source] at laid plain <;> rw [Stmt.trees]
  case assign dest t =>
    obtain ⟨pieces, tree⟩ := operandPieces_slot line known.1
    have row := plain _ mem_cons_self
    rw [pieces] at laid row
    rw [tree]
    refine yields_simple laid row (fun rest => ?_) fun newline rest ended => ?_
    · change opensSimple (kindOf (Piece.lexemes line (.word dest.text :: _) ++ rest)) = true
      rw [lexemes_name (free_slot known.1)]
      rfl
    · exact simpleStatement_assign (free_slot known.1) ended
        (test_term depth known.2 (newline_mem ended rest)) (opensTest_term t _)
  case print o =>
    refine yields_simple laid (plain _ mem_cons_self) (fun rest => ?_) fun newline rest ended => ?_
    · rw [lexemes_applied (by decide)]
      rfl
    · exact simpleStatement_print o ended
  case ret o =>
    refine yields_simple laid (plain _ mem_cons_self) (fun rest => ?_) fun newline rest ended => ?_
    · rw [lexemes_word (by decide)]
      rfl
    · rw [lexemes_word (by decide), lexemes_gap]
      exact simpleStatement_return rfl (test_operand (depth + 3) o (newline_mem ended rest))
        (opensTest_of_opensOperand (opensOperand_operand line o _).1) ended
  case raise message => cases known
  case note label => exact ⟨ls, laid, .nil ls⟩
  case setPc k =>
    refine yields_simple laid (plain _ mem_cons_self) (fun rest => rfl) fun newline rest ended => ?_
    exact simpleStatement_assign (by decide) ended (test_number k ended) rfl
  case again =>
    refine yields_simple laid (plain _ mem_cons_self) (fun rest => ?_) fun newline rest ended => ?_
    · rw [lexemes_word (by decide)]
      rfl
    · rw [lexemes_word (by decide)]
      exact simpleStatement_continue rfl
  case leave =>
    refine yields_simple laid (plain _ mem_cons_self) (fun rest => ?_) fun newline rest ended => ?_
    · rw [lexemes_word (by decide)]
      rfl
    · rw [lexemes_word (by decide)]
      exact simpleStatement_break rfl
  case' whenNonzero | whenPc | forever =>
    rw [Stmt.levels] at enough
    obtain ⟨fuel, rfl⟩ := Nat.exists_eq_add_of_le' (show 1 ≤ fuel by omega)
    have compound := fun whole => yields_compound whole laid
      (plain _ mem_cons_self) (block_visible known.1 known.2 _ _) shallow unrelated fun ls laid =>
        yields_block depth fuel known.2 (by omega) laid (shallow_of_le shallow) unrelated
  case whenNonzero o body =>
    refine compound (fun ss => .cond (nonzeroTree line o) ss [] line) fun rest rest' ss read follows => ?_
    rw [lexemes_word (by decide), lexemes_gap, lexemes_append, cons_append, append_assoc]
    exact statements_if rfl (condition_nonzero o) rfl read follows
  case whenPc k body =>
    refine compound (fun ss => .cond (pcTree line k) ss [] line) fun rest rest' ss read follows => ?_
    exact statements_if rfl (condition_pc k) rfl read follows
  case forever body =>
    refine compound (fun ss => .whileLoop (.constant (.bool true) line) ss [] line)
      fun rest rest' ss read follows => ?_
    exact statements_while rfl condition_true rfl read follows

theorem yields_block (depth fuel : Nat) {level line : Nat} {rows : List Row} {ls : List Lexeme}
    {body : List Stmt} (known : AllKnown body) (enough : blockLevels body ≤ fuel)
    (laid : Laid level (rowsFrom line (blockSource level body) ++ rows) ls)
    (shallow : ∀ r ∈ rows.head?, r.depth ≤ level) (unrelated : ∀ r ∈ rows, IsPlainRow r) :
    Yields depth fuel level ls (blockTrees line body) rows := by
  cases body with
  | nil => exact ⟨ls, laid, .nil ls⟩
  | cons s body =>
    rw [blockLevels] at enough
    rw [rowsFrom_blockSource_cons, append_assoc] at laid
    obtain ⟨between, laidBetween, first⟩ := s.yields depth fuel known.1 (by omega) laid
      (head_depth_le known.2 _ shallow) (forall_mem_append.2
        ⟨isPlainRow_blockSource known.2 _ _, unrelated⟩)
    obtain ⟨rest, laidRest, second⟩ :=
      yields_block depth fuel known.2 (by omega) laidBetween shallow unrelated
    refine ⟨rest, laidRest, ?_⟩
    rw [blockTrees, map_append]
    exact first.append second

end

/-! ## Functions -/

/-- The tree of the declaration of globals, if there is one. -/
def Def.declarationTrees (line : Nat) (d : Def) : List Reader.Stmt :=
  if d.globals.isEmpty then [] else [.global (d.globals.map fun n => (Operand.global n).text) line]

/-- The tree of a function that starts on a line. -/
def Def.tree (line : Nat) (d : Def) : Reader.Stmt :=
  .funcDef (funcName d.index) (plainParams d.params) false false
    (d.declarationTrees (line + 1) ++ blockTrees (line + 1 + d.declaration.length) d.stmts) line

theorem further_names {names : List String} (free : ∀ id ∈ names, reservedWords.contains id = false)
    (rest : List Lexeme) (ended : newline.kind = .newline) : Further (fun _ => true) identifier
      ((names.flatMap fun id => Piece.lexemes line [.sign ",", .gap, .word id]) ++ newline :: rest) names
      (newline :: rest) := by
  have stop : kindOf (newline :: rest) ≠ .sign "," := by
    rw [show kindOf (newline :: rest) = .newline from ended]
    decide
  induction names with
  | nil => exact .nil stop
  | cons id names ih =>
    rw [flatMap_cons, append_assoc, lexemes_sign, lexemes_gap, lexemes_name (free id mem_cons_self)]
    exact .cons rfl rfl (identifier_name id line line _) (Nat.lt_succ_self _)
      (ih fun id member => free id (mem_cons_of_mem _ member))

theorem lexemes_listed_names (line : Nat) (id : String) (names : List String) :
    Piece.lexemes line (listed ((id :: names).map fun id => [.word id])) =
      Piece.lexemes line [.word id] ++
        names.flatMap fun id => Piece.lexemes line [.sign ",", .gap, .word id] := by
  induction names generalizing id with
  | nil => exact (append_nil _).symm
  | cons id' names ih =>
    change Piece.lexemes line ([.word id] ++ .sign "," :: .gap ::
      listed ((id' :: names).map fun id => [.word id])) = _
    rw [lexemes_append, lexemes_sign, lexemes_gap, ih id', flatMap_cons, lexemes_sign, lexemes_gap]
    rfl

theorem yields_declaration (depth fuel : Nat)
    (laid : Laid 1 (rowsFrom line d.declaration ++ rows) ls) :
    Yields depth fuel 1 ls (d.declarationTrees line) rows := by
  unfold Def.declaration at laid
  unfold Def.declarationTrees
  by_cases none : d.globals.isEmpty = true
  · rw [if_pos none] at laid ⊢
    exact ⟨ls, laid, .nil ls⟩
  · rw [if_neg none] at laid ⊢
    obtain ⟨n, ns, shape⟩ := exists_cons_of_ne_nil (l := d.globals)
      fun empty => none (by rw [empty]; rfl)
    have free : ∀ id ∈ ns.map (fun n => (Operand.global n).text), reservedWords.contains id = false := by
      intro id member
      obtain ⟨n, -, rfl⟩ := mem_map.1 member
      exact free_slot rfl
    have names : d.globals.map (fun n => [Piece.word (Operand.global n).text]) =
        ((Operand.global n).text :: ns.map fun n => (Operand.global n).text).map
          fun id => [.word id] := by
      rw [shape]
      simp
    rw [names] at laid
    refine yields_simple laid (isPlainRow_word _ (by decide)) (fun rest => ?_)
      fun newline rest ended => ?_
    · rw [lexemes_word (by decide)]
      rfl
    · rw [lexemes_word (by decide), lexemes_gap, lexemes_listed_names,
        lexemes_name (free_slot rfl), shape]
      refine simpleStatement_global rfl ?_
      change oneOrMore identifier
        (.onLine (.name (Operand.global n).text) line :: (_ ++ newline :: rest)) = _
      exact oneOrMore_of_further (identifier_name _ line line _) (further_names free rest ended)

theorem lexemes_params (line : Nat) (id : String) (names : List String)
    (free : ∀ name ∈ id :: names, reservedWords.contains name = false) (rest : List Lexeme) :
    Piece.lexemes line (listed ((id :: names).map fun id => [.word id])) ++
        .onLine (.sign ")") line :: rest =
      .onLine (.name id) line :: nameTail line names rest := by
  have tail : ∀ names : List String, (∀ name ∈ names, reservedWords.contains name = false) →
      (names.flatMap fun id => Piece.lexemes line [.sign ",", .gap, .word id]) ++
        .onLine (.sign ")") line :: rest = nameTail line names rest := by
    intro names free
    induction names with
    | nil => rfl
    | cons id names ih =>
      rw [flatMap_cons, append_assoc, ih fun name member => free name
        (mem_cons_of_mem _ member), lexemes_sign, lexemes_gap, lexemes_name (free id mem_cons_self)]
      rfl
  rw [lexemes_listed_names, append_assoc,
    tail names fun name member => free name (mem_cons_of_mem _ member),
    lexemes_name (free id mem_cons_self)]
  rfl

theorem free_params : ∀ name ∈ d.params, reservedWords.contains name = false := by
  intro name member
  obtain ⟨n, -, rfl⟩ := mem_map.1 member
  exact free_numbered (show _ = 'a' :: digits n by simp [digits])

theorem parameters_params (d : Def) (test unpacked : Parsing Reader.Expr) (line : Nat)
    (rest : List Lexeme) :
    parameters test unpacked true ")" (Piece.lexemes line (listed (d.params.map fun id => [.word id])) ++
        .onLine (.sign ")") line :: rest) =
      .ok (plainDraft line d.params, .onLine (.sign ")") line :: rest) := by
  have free := free_params (d := d)
  generalize d.params = names at free
  cases names with
  | nil => exact parameters_none test unpacked line rest
  | cons id names =>
    rw [lexemes_params line id names free]
    exact parameters_names test unpacked line id names rest

/-- How many levels of blocks a function has. -/
def Def.levels (d : Def) : Nat :=
  blockLevels d.stmts + 1

theorem Def.yields (depth fuel : Nat) (known : AllKnown d.body) (enough : d.levels ≤ fuel)
    (laid : Laid 0 (rowsFrom line d.source ++ rows) ls)
    (shallow : ∀ r ∈ rows.head?, r.depth ≤ 0) (unrelated : ∀ r ∈ rows, IsPlainRow r) :
    Yields depth fuel 0 ls [d.tree line] rows := by
  rw [Def.levels] at enough
  obtain ⟨fuel, rfl⟩ := Nat.exists_eq_add_of_le' (show 1 ≤ fuel by omega)
  have stmts := Def.allKnown_stmts known
  have visible : d.stmts.all Stmt.isNote = false := by
    simp [Def.stmts, Stmt.isNote]
  obtain ⟨⟨r, more, rest, same⟩, nonempty⟩ :=
    block_visible visible stmts (line + 1 + d.declaration.length) 1
  have deeper : ∃ r more, rowsFrom (line + 1) (d.declaration ++ blockSource 1 d.stmts) =
      r :: more ∧ r.depth = 0 + 1 := by
    rw [rowsFrom_append, rest]
    unfold Def.declaration
    split
    · exact ⟨r, more, rfl, same⟩
    · exact ⟨_, _, rfl, rfl⟩
  rw [Def.source] at laid
  refine yields_compound (fun ss => .funcDef (funcName d.index) (plainParams d.params) false
    false ss line) laid (isPlainRow_word _ (by decide)) ⟨deeper, by simp [nonempty]⟩ shallow unrelated
    (fun ls laid => ?_) fun rest rest' ss read _ => ?_
  · rw [rowsFrom_append, append_assoc] at laid
    obtain ⟨between, laidBetween, first⟩ := yields_declaration depth fuel laid
    obtain ⟨after, laidAfter, second⟩ := yields_block depth fuel stmts (by omega)
      laidBetween (shallow_of_le shallow) unrelated
    refine ⟨after, laidAfter, ?_⟩
    rw [map_append]
    exact first.append second
  · rw [lexemes_word (by decide), lexemes_gap, lexemes_append, cons_append, append_assoc,
      lexemes_applied (free_numbered (toList_funcName d.index))]
    exact statements_def (nodup_params d) (parameters_params d _ _ line _) read

end SlotLang.Script
