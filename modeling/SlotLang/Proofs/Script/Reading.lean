import SlotLang.Proofs.Reader.Expressions
import SlotLang.Proofs.Script.Spelling

/-!
# What terms are read as

The lexemes of a term are read as the tree of the term, at any place where an expression can stand
and in front of anything that can follow one.
-/

open List

namespace SlotLang.Script

variable {op : Reader.Comparator} {sign text word : String} {e : Reader.Expr} {ls : List Lexeme}
  {n : Nested} {name : String} {o : Operand}

open Reader Reader.Parsing

/-! ## Trees -/

def operandTree (line : Nat) : Operand → Reader.Expr
  | .lit v =>
    if v.toInt < 0 then .unary .minus (.constant (.int v.toInt.natAbs) line) line
    else .constant (.int v.toInt.natAbs) line
  | o => .name o.text line

/-- The operator of a sum, difference or product. -/
def operatorOf (sign : Char) : Reader.Operator :=
  if sign = '+' then .add else if sign = '-' then .sub else .mul

/-- The operator of a comparison. -/
def comparatorOf (sign : String) : Reader.Comparator :=
  if sign = "<" then .lt else if sign = ">" then .gt else .eq

/-- The tree of a test for zero. -/
def nonzeroTree (line : Nat) (o : Operand) : Reader.Expr :=
  .compare (operandTree line o) [(.ne, operandTree line (.lit 0))] line

def callTree (line : Nat) (name : String) (args : List Reader.Expr) : Reader.Expr :=
  .call (.name name line) args false line

def Term.tree (line : Nat) : Term → Reader.Expr
  | operand o => operandTree line o
  | wrapped sign a b =>
    callTree line "_wrap" [.binary (operatorOf sign) (operandTree line a) (operandTree line b) line]
  | quotient a b => callTree line "_div" [operandTree line a, operandTree line b]
  | remainder a b => callTree line "_rem" [operandTree line a, operandTree line b]
  | comparison sign a b =>
    callTree line "int" [.compare (operandTree line a) [(comparatorOf sign, operandTree line b)] line]
  | both a b => callTree line "int" [.bool .and [nonzeroTree line a, nonzeroTree line b] line]
  | either a b => callTree line "int" [.bool .or [nonzeroTree line a, nonzeroTree line b] line]
  | negation a => callTree line "int" [.unary .not (operandTree line a) line]
  | call f args => callTree line (funcName f) (args.map (operandTree line))

/-! ## Lexemes -/

variable {line depth : Nat} {rest : List Lexeme}

theorem lexemes_append (line : Nat) (ps qs : List Piece) :
    Piece.lexemes line (ps ++ qs) = Piece.lexemes line ps ++ Piece.lexemes line qs := by
  simp [Piece.lexemes]

theorem lexemes_gap (line : Nat) (ps : List Piece) :
    Piece.lexemes line (.gap :: ps) = Piece.lexemes line ps :=
  rfl

theorem lexemes_sign (line : Nat) (text : String) (ps : List Piece) :
    Piece.lexemes line (.sign text :: ps) = .onLine (.sign text) line :: Piece.lexemes line ps :=
  rfl

theorem lexemes_name (free : reservedWords.contains text = false) (line : Nat) (ps : List Piece) :
    Piece.lexemes line (.word text :: ps) = .onLine (.name text) line :: Piece.lexemes line ps := by
  simp only [Piece.lexemes, flatMap_cons, Piece.kinds, free]
  rfl

theorem lexemes_word (reserved : reservedWords.contains text = true) (line : Nat) (ps : List Piece) :
    Piece.lexemes line (.word text :: ps) = .onLine (.word text) line :: Piece.lexemes line ps := by
  simp only [Piece.lexemes, flatMap_cons, Piece.kinds, reserved]
  rfl

theorem lexemes_nil (line : Nat) : Piece.lexemes line [] = [] :=
  rfl

theorem free_numbered {letter : Char} {n : Nat} (shape : text.toList = letter :: digits n) :
    reservedWords.contains text = false :=
  contains_numbered shape _ (by decide)

theorem free_slot (slot : o.isSlot = true) : reservedWords.contains o.text = false :=
  free_numbered (toList_slot slot)

/-- The lexemes of an operand in front of others. -/
def operandLexemes (line : Nat) (o : Operand) (rest : List Lexeme) : List Lexeme :=
  Piece.lexemes line (operandPieces o) ++ rest

theorem operandLexemes_slot (slot : o.isSlot = true) :
    operandLexemes line o rest = .onLine (.name o.text) line :: rest := by
  cases o with
  | lit v => cases slot
  | global n | var n | arg n =>
    rw [operandLexemes, operandPieces, lexemes_name (free_slot rfl)]
    · rfl
    · simp

theorem operandLexemes_lit (v : Value) :
    operandLexemes line (.lit v) rest =
      if v.toInt < 0 then .onLine (.sign "-") line :: .onLine (.int v.toInt.natAbs) line :: rest
      else .onLine (.int v.toInt.natAbs) line :: rest := by
  rw [operandLexemes, operandPieces]
  split <;> rfl

theorem opensOperand_operand (line : Nat) (o : Operand) (rest : List Lexeme) :
    opensOperand (kindOf (operandLexemes line o rest)) = true ∧
      lineOf (operandLexemes line o rest) = line := by
  cases o with
  | lit v =>
    rw [operandLexemes_lit]
    split <;> exact ⟨rfl, rfl⟩
  | global n | var n | arg n =>
    rw [operandLexemes_slot rfl]
    exact ⟨rfl, rfl⟩

theorem isPlainSecond_operand (o : Operand) (plain : isPlainSecond (kindOf rest) = true) :
    isPlainSecond (kindOf (operandLexemes line o rest).tail) = true := by
  cases o with
  | lit v =>
    rw [operandLexemes_lit]
    split
    · rfl
    · exact plain
  | global n | var n | arg n =>
    rw [operandLexemes_slot rfl]
    exact plain

/-! ## Operands -/

theorem ne_power {k : Kind} (follows : k ∈ afterFactor) : k ≠ .sign "**" := by
  have missing : Kind.sign "**" ∉ afterFactor := by decide
  exact fun same => missing (same ▸ follows)

theorem factor_unsigned (read : atom n ls = .ok (e, rest)) (opens : opensOperand (kindOf ls) = true)
    (unsigned : kindOf ls ≠ .sign "-") (follows : kindOf rest ∈ afterFactor) :
    factor n ls = .ok (e, rest) :=
  factor_of_primary (primary_of_atom read follows) opens unsigned (ne_power follows)

theorem factor_operand (depth line : Nat) (o : Operand) (follows : kindOf rest ∈ afterFactor) :
    (nested (depth + 2)).factor (operandLexemes line o rest) = .ok (operandTree line o, rest) := by
  change factor (nested (depth + 1)) _ = _
  cases o with
  | lit v =>
    rw [operandLexemes_lit, operandTree]
    split
    · refine factor_minus rfl ?_
      exact factor_unsigned (n := nested depth) (atom_int _ _ _ _ _) rfl nofun follows
    · exact factor_unsigned (atom_int _ _ _ _ _) rfl nofun follows
  | global n | var n | arg n =>
    rw [operandLexemes_slot rfl]
    exact factor_unsigned (atom_name _ _ _ _ _) rfl nofun follows

theorem expression_operand (depth line : Nat) (o : Operand) (follows : kindOf rest ∈ afterExpression) :
    expression (nested (depth + 2)) (operandLexemes line o rest) = .ok (operandTree line o, rest) :=
  expression_of_factor (factor_operand depth line o (mem_append_left _ follows)) follows

theorem test_of_expression (read : expression n ls = .ok (e, rest))
    (opens : opensOperand (kindOf ls) = true) (follows : kindOf rest ∈ afterTest) :
    test n ls = .ok (e, rest) :=
  test_of_disjunction (disjunction_of_inversion (inversion_of_comparison (comparison_of_expression read
    (mem_afterInversion follows)) opens) follows) (opensTest_of_opensOperand opens) follows

theorem test_operand (depth : Nat) (o : Operand) (follows : kindOf rest ∈ afterTest) :
    (nested (depth + 3)).test (operandLexemes line o rest) = .ok (operandTree line o, rest) :=
  test_of_expression (expression_operand depth line o (mem_afterExpression (mem_afterInversion follows)))
    (opensOperand_operand line o _).1 follows

/-! ## Terms -/

theorem kindOf_sign (text : String) (line : Nat) (ls : List Lexeme) :
    kindOf (.onLine (.sign text) line :: ls) = .sign text :=
  rfl

theorem lexemes_between (line : Nat) (a b : Operand) (text : String) (rest : List Lexeme) :
    Piece.lexemes line (between a (.sign text) b) ++ rest =
      operandLexemes line a (.onLine (.sign text) line :: operandLexemes line b rest) := by
  simp [between, operandLexemes, lexemes_append, lexemes_gap, lexemes_sign]

theorem signOf_operatorOf {sign : Char} (known : sign = '+' ∨ sign = '-' ∨ sign = '*') :
    SignOf sign.toString (operatorOf sign) := by
  rcases known with rfl | rfl | rfl
  · exact .add
  · exact .sub
  · exact .mul

theorem expression_between (depth : Nat) (a b : Operand) {sign : Char}
    (known : sign = '+' ∨ sign = '-' ∨ sign = '*') (follows : kindOf rest ∈ afterTest) :
    expression (nested (depth + 2))
      (Piece.lexemes line (between a (.sign sign.toString) b) ++ rest) =
      .ok (.binary (operatorOf sign) (operandTree line a) (operandTree line b) line, rest) := by
  have further := mem_afterExpression (mem_afterInversion follows)
  rw [lexemes_between]
  have read := expression_binary (signOf_operatorOf known)
    (factor_operand depth line a (?_ : kindOf (.onLine (.sign sign.toString) line ::
      operandLexemes line b rest) ∈ _)) rfl
    (factor_operand depth line b (mem_append_left _ further)) further
  · rwa [(opensOperand_operand line a _).2] at read
  · rw [kindOf_sign]
    rcases known with rfl | rfl | rfl <;> decide

theorem comparison_between (depth : Nat) (a b : Operand) (known : ComparatorOf sign op)
    (follows : kindOf rest ∈ afterInversion) :
    comparison (nested (depth + 2)) (Piece.lexemes line (between a (.sign sign) b) ++ rest) =
      .ok (.compare (operandTree line a) [(op, operandTree line b)] line, rest) := by
  rw [lexemes_between]
  have read := comparison_pair known
    (expression_operand depth line a
      (?_ : kindOf (.onLine (.sign sign) line :: operandLexemes line b rest) ∈ _)) rfl
    (expression_operand depth line b (mem_afterExpression follows)) follows
  · rwa [(opensOperand_operand line a _).2] at read
  · rw [kindOf_sign]
    cases known <;> decide

theorem opens_between (line : Nat) (a b : Operand) (text : String) (rest : List Lexeme) :
    opensOperand (kindOf (Piece.lexemes line (between a (.sign text) b) ++ rest)) = true ∧
      lineOf (Piece.lexemes line (between a (.sign text) b) ++ rest) = line := by
  rw [lexemes_between]
  exact opensOperand_operand line a _

theorem inversion_between (depth line : Nat) (a b : Operand) (known : ComparatorOf sign op)
    (follows : kindOf rest ∈ afterInversion) :
    inversion (nested (depth + 2)) (Piece.lexemes line (between a (.sign sign) b) ++ rest) =
      .ok (.compare (operandTree line a) [(op, operandTree line b)] line, rest) :=
  inversion_of_comparison (comparison_between depth a b known follows) (opens_between ..).1

theorem test_comparison (depth : Nat) (a b : Operand) (known : ComparatorOf sign op)
    (follows : kindOf rest ∈ afterTest) :
    (nested (depth + 3)).test (Piece.lexemes line (between a (.sign sign) b) ++ rest) =
      .ok (.compare (operandTree line a) [(op, operandTree line b)] line, rest) :=
  test_of_disjunction (disjunction_of_inversion (inversion_between depth line a b known
    (mem_afterInversion follows)) follows) (opensTest_of_opensOperand (opens_between ..).1) follows

theorem lexemes_applied (free : reservedWords.contains name = false) (line : Nat)
    (inside : List Piece) (rest : List Lexeme) :
    Piece.lexemes line (applied name inside) ++ rest = .onLine (.name name) line ::
      .onLine (.sign "(") line :: (Piece.lexemes line inside ++ .onLine (.sign ")") line :: rest) := by
  rw [applied, lexemes_name free, lexemes_sign, lexemes_append]
  simp [lexemes_sign, lexemes_nil]

/-- A call is read as an operand. -/
theorem test_applied (depth : Nat) {name : String} (free : reservedWords.contains name = false)
    {inside : List Piece} {es : List Reader.Expr}
    (read : arguments (nested depth) (Piece.lexemes line inside ++ .onLine (.sign ")") line :: rest) =
      .ok ((es, false), rest)) (follows : kindOf rest ∈ afterTest) :
    (nested (depth + 2)).test (Piece.lexemes line (applied name inside) ++ rest) =
      .ok (callTree line name es, rest) := by
  have further := mem_afterExpression (mem_afterInversion follows)
  have operand : kindOf rest ∈ afterFactor := mem_append_left _ further
  rw [lexemes_applied free]
  refine test_of_expression (n := nested (depth + 1)) (expression_of_factor ?_ further) rfl follows
  exact factor_of_primary (primary_call rfl read operand) rfl nofun (ne_power operand)

theorem closer_mem (line : Nat) (rest : List Lexeme) :
    kindOf (.onLine (.sign ")") line :: rest) ∈ afterTest := by
  rw [kindOf_sign]
  decide

theorem arguments_one (line : Nat) {n : Nested} {ls : List Lexeme} {e : Reader.Expr}
    (read : n.test ls = .ok (e, .onLine (.sign ")") line :: rest))
    (opens : opensTest (kindOf ls) = true) (plain : isPlainSecond (kindOf ls.tail) = true) :
    arguments n ls = .ok (([e], false), rest) :=
  @arguments_of_further _ _ _ _ _ [] _ opens (argument_of_test read opens plain (closer_mem line rest))
    (.nil (by rw [kindOf_sign]; decide)) rfl

theorem comma_mem (line : Nat) (rest : List Lexeme) :
    kindOf (.onLine (.sign ",") line :: rest) ∈ afterTest := by
  rw [kindOf_sign]
  decide

theorem argument_operand (depth : Nat) (o : Operand) (follows : kindOf rest ∈ afterTest)
    (plain : isPlainSecond (kindOf rest) = true) :
    argument (nested (depth + 3)) (operandLexemes line o rest) =
      .ok (.positional (operandTree line o), rest) :=
  argument_of_test (test_operand depth o follows)
    (opensTest_of_opensOperand (opensOperand_operand line o _).1) (isPlainSecond_operand o plain) follows

theorem length_operandLexemes (line : Nat) (o : Operand) (rest : List Lexeme) :
    rest.length < (operandLexemes line o rest).length := by
  cases o with
  | lit v =>
    rw [operandLexemes_lit]
    split
    · exact Nat.lt_add_of_pos_right (k := 2) (by decide)
    · exact Nat.lt_succ_self _
  | global n | var n | arg n =>
    rw [operandLexemes_slot rfl]
    exact Nat.lt_succ_self _

/-- Operands behind commas, up to a closing bracket. -/
def operandTail (line : Nat) (os : List Operand) (rest : List Lexeme) : List Lexeme :=
  os.foldr (fun o rest => .onLine (.sign ",") line :: operandLexemes line o rest)
    (.onLine (.sign ")") line :: rest)

theorem lexemes_listed (line : Nat) (o : Operand) (os : List Operand) (rest : List Lexeme) :
    Piece.lexemes line (listed ((o :: os).map operandPieces)) ++ .onLine (.sign ")") line :: rest =
      operandLexemes line o (operandTail line os rest) := by
  induction os generalizing o with
  | nil => rfl
  | cons o' os ih =>
    change Piece.lexemes line (operandPieces o ++ .sign "," :: .gap ::
      listed ((o' :: os).map operandPieces)) ++ _ = _
    rw [lexemes_append, lexemes_sign, lexemes_gap, append_assoc, cons_append, ih o']
    rfl

theorem operandTail_starts (line : Nat) (os : List Operand) (rest : List Lexeme) :
    kindOf (operandTail line os rest) ∈ afterTest ∧
      isPlainSecond (kindOf (operandTail line os rest)) = true := by
  cases os with
  | nil => exact ⟨closer_mem line rest, rfl⟩
  | cons o os => exact ⟨comma_mem line _, rfl⟩

theorem further_operandTail (depth line : Nat) (os : List Operand) (rest : List Lexeme) :
    Further startsArgument (argument (nested (depth + 3))) (operandTail line os rest)
      ((os.map (operandTree line)).map .positional) (.onLine (.sign ")") line :: rest) := by
  induction os with
  | nil => exact .nil (by change Kind.sign ")" ≠ _; decide)
  | cons o os ih =>
    obtain ⟨follows, plain⟩ := operandTail_starts line os rest
    refine .cons rfl ?_ (argument_operand depth o follows plain) (length_operandLexemes line o _) ih
    exact startsArgument_of_opensTest (opensTest_of_opensOperand (opensOperand_operand line o _).1)

theorem arguments_operands (depth line : Nat) (os : List Operand) (rest : List Lexeme) :
    arguments (nested (depth + 3))
      (Piece.lexemes line (listed (os.map operandPieces)) ++ .onLine (.sign ")") line :: rest) =
      .ok ((os.map (operandTree line), false), rest) := by
  cases os with
  | nil => exact arguments_none rfl
  | cons o os =>
    obtain ⟨follows, plain⟩ := operandTail_starts line os rest
    rw [lexemes_listed]
    exact arguments_of_further (opensTest_of_opensOperand (opensOperand_operand line o _).1)
      (argument_operand depth o follows plain) (further_operandTail depth line os rest) rfl

theorem lexemes_both (line : Nat) (a b : Operand) (reserved : reservedWords.contains word = true)
    (rest : List Lexeme) : Piece.lexemes line (between a (.sign "!=") (.lit 0) ++
        .gap :: .word word :: .gap :: between b (.sign "!=") (.lit 0)) ++ rest =
      Piece.lexemes line (between a (.sign "!=") (.lit 0)) ++ .onLine (.word word) line ::
        (Piece.lexemes line (between b (.sign "!=") (.lit 0)) ++ rest) := by
  rw [lexemes_append, lexemes_gap, lexemes_word reserved, lexemes_gap, append_assoc]
  rfl

theorem comparatorOf_known (known : sign = "<" ∨ sign = ">" ∨ sign = "==") :
    ComparatorOf sign (comparatorOf sign) := by
  rcases known with rfl | rfl | rfl
  · exact .lt
  · exact .gt
  · exact .eq

theorem second_between (line : Nat) (a b : Operand) (sign : isPlainSecond (.sign text) = true)
    (rest : List Lexeme) :
    isPlainSecond (kindOf (Piece.lexemes line (between a (.sign text) b) ++ rest).tail) = true := by
  rw [lexemes_between]
  exact isPlainSecond_operand a sign

/-- The words of the connectives. -/
inductive WordOf : String → Reader.Connective → Prop where
  | and : WordOf "and" .and
  | or : WordOf "or" .or

/-- Two tests for zero with a connective between them. -/
theorem test_joined (depth : Nat) (a b : Operand) {op : Reader.Connective} (known : WordOf word op)
    (follows : kindOf rest ∈ afterTest) :
    (nested (depth + 3)).test (Piece.lexemes line (between a (.sign "!=") (.lit 0) ++
        .gap :: .word word :: .gap :: between b (.sign "!=") (.lit 0)) ++ rest) =
      .ok (.bool op [nonzeroTree line a, nonzeroTree line b] line, rest) := by
  have reserved : reservedWords.contains word = true := by cases known <;> rfl
  rw [lexemes_both line a b reserved]
  have opens := opens_between line a (.lit 0) "!=" (.onLine (.word word) line ::
    (Piece.lexemes line (between b (.sign "!=") (.lit 0)) ++ rest))
  have first := inversion_between depth line a (.lit 0) .ne
    (show kindOf (.onLine (.word word) line ::
      (Piece.lexemes line (between b (.sign "!=") (.lit 0)) ++ rest)) ∈ afterInversion by
        cases known <;> (change Kind.word _ ∈ afterInversion; decide))
  have second := inversion_between depth line b (.lit 0) .ne (mem_afterInversion follows)
  refine test_of_disjunction (n := nested (depth + 2)) ?_ (opensTest_of_opensOperand opens.1) follows
  cases known with
  | and =>
    have read := disjunction_and first rfl second follows
    rwa [opens.2] at read
  | or =>
    have read := disjunction_or first rfl second follows
    rwa [opens.2] at read

theorem opens_joined (line : Nat) (a b : Operand) (reserved : reservedWords.contains word = true)
    (rest : List Lexeme) :
    opensOperand (kindOf (Piece.lexemes line (between a (.sign "!=") (.lit 0) ++
        .gap :: .word word :: .gap :: between b (.sign "!=") (.lit 0)) ++ rest)) = true ∧
      lineOf (Piece.lexemes line (between a (.sign "!=") (.lit 0) ++
        .gap :: .word word :: .gap :: between b (.sign "!=") (.lit 0)) ++ rest) = line := by
  rw [lexemes_both line a b reserved]
  exact opens_between ..

theorem second_joined (line : Nat) (a b : Operand) (reserved : reservedWords.contains word = true)
    (rest : List Lexeme) :
    isPlainSecond (kindOf (Piece.lexemes line (between a (.sign "!=") (.lit 0) ++
        .gap :: .word word :: .gap :: between b (.sign "!=") (.lit 0)) ++ rest).tail) = true := by
  rw [lexemes_both line a b reserved]
  exact second_between line a (.lit 0) rfl _

theorem test_negation (depth : Nat) (a : Operand) (follows : kindOf rest ∈ afterTest) :
    (nested (depth + 4)).test (Piece.lexemes line (.word "not" :: .gap :: operandPieces a) ++ rest) =
      .ok (.unary .not (operandTree line a) line, rest) := by
  rw [lexemes_word (by decide), lexemes_gap]
  refine test_of_disjunction (n := nested (depth + 3)) (disjunction_of_inversion (inversion_not rfl ?_)
    follows) rfl follows
  exact inversion_of_comparison (n := nested (depth + 2)) (comparison_of_expression
    (expression_operand depth line a (mem_afterExpression (mem_afterInversion follows)))
    (mem_afterInversion follows)) (opensOperand_operand line a _).1

theorem test_term (depth : Nat) {t : Term} (known : t.IsKnown) (follows : kindOf rest ∈ afterTest) :
    (nested (depth + 6)).test (Piece.lexemes line t.pieces ++ rest) = .ok (t.tree line, rest) := by
  have closed := closer_mem line rest
  cases t with
  | operand o => exact test_operand (depth + 3) o follows
  | wrapped sign a b =>
    refine test_applied (depth + 4) (by decide) (arguments_one line (test_of_expression
      (expression_between (depth + 1) a b known closed) (opens_between ..).1 closed) ?_ ?_) follows
    · exact opensTest_of_opensOperand (opens_between ..).1
    · refine second_between line a b ?_ _
      rcases known with rfl | rfl | rfl <;> decide
  | quotient a b | remainder a b =>
    exact test_applied (depth + 4) (by decide) (arguments_operands (depth + 1) line [a, b] rest) follows
  | comparison sign a b =>
    refine test_applied (depth + 4) (by decide) (arguments_one line
      (test_comparison (depth + 1) a b (comparatorOf_known known) closed) ?_ ?_) follows
    · exact opensTest_of_opensOperand (opens_between ..).1
    · refine second_between line a b ?_ _
      rcases known with rfl | rfl | rfl <;> decide
  | both a b =>
    refine test_applied (depth + 4) (by decide) (arguments_one line ?_ ?_ ?_) follows
    · exact test_joined (depth + 1) a b .and closed
    · exact opensTest_of_opensOperand (opens_joined line a b rfl _).1
    · exact second_joined line a b rfl _
  | either a b =>
    refine test_applied (depth + 4) (by decide) (arguments_one line ?_ ?_ ?_) follows
    · exact test_joined (depth + 1) a b .or closed
    · exact opensTest_of_opensOperand (opens_joined line a b rfl _).1
    · exact second_joined line a b rfl _
  | negation a =>
    refine test_applied (depth + 4) (by decide) (arguments_one line (test_negation depth a closed) rfl ?_)
      follows
    have first := opensOperand_operand line a (.onLine (.sign ")") line :: rest)
    change isPlainSecond (kindOf (operandLexemes line a _)) = true
    generalize kindOf (operandLexemes line a _) = k at first
    cases k with
    | sign s =>
      obtain rfl : s = "-" := of_decide_eq_true first.1
      rfl
    | _ => rfl
  | call f args =>
    exact test_applied (depth + 4) (free_numbered (toList_funcName f))
      (arguments_operands (depth + 1) line args rest) follows

end SlotLang.Script
