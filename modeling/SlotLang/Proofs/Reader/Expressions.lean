import Mathlib.Data.List.Basic
import SlotLang.Reader.Expression

/-!
# How expressions are read

What a parser makes of the lexemes in front of it is said by equations of the form
`p ls = .ok (a, rest)`. There is one lemma for each level of precedence and each form of it that
simple programs use; a level that finds no operator of its own passes on what the level below has
read.
-/

open List

namespace SlotLang.Reader

variable {k : Kind} {s : String}

namespace Parsing

variable {α β : Type} {p : Parsing α} {a b : α} {kind : Kind} {ls rest after : List Lexeme}
  {text : String}

/-- The kind of the first lexeme. -/
def kindOf (ls : List Lexeme) : Kind :=
  (ls.headD (.onLine .eof 1)).kind

/-- The line of the first lexeme. -/
def lineOf (ls : List Lexeme) : Nat :=
  (ls.headD (.onLine .eof 1)).line

theorem peek_eq (ls : List Lexeme) : peek ls = .ok (kindOf ls, ls) :=
  rfl

theorem peekSecond_eq (ls : List Lexeme) : peekSecond ls = .ok (kindOf ls.tail, ls) :=
  rfl

theorem here_eq (ls : List Lexeme) : here ls = .ok (lineOf ls, ls) :=
  rfl

theorem advance_eq (ls : List Lexeme) : advance ls = .ok ((), ls.tail) :=
  rfl

theorem bind_eq {f : α → Parsing β} (read : p ls = .ok (a, rest)) : (p >>= f) ls = f a rest := by
  change Except.bind (p ls) (fun x => f x.1 x.2) = _
  rw [read]
  rfl

theorem accept_of_eq (same : kindOf ls = kind) : accept kind ls = .ok (true, ls.tail) := by
  unfold accept
  rw [bind_eq (peek_eq ls), if_pos same]
  rfl

theorem accept_of_ne (other : kindOf ls ≠ kind) : accept kind ls = .ok (false, ls) := by
  unfold accept
  rw [bind_eq (peek_eq ls), if_neg other]
  rfl

theorem expect_of_eq (same : kindOf ls = kind) : expect kind ls = .ok ((), ls.tail) := by
  unfold expect
  rw [bind_eq (accept_of_eq same)]
  rfl

theorem atSign_of_ne (other : kindOf ls ≠ .sign text) : atSign text ls = .ok (false, ls) := by
  unfold atSign
  rw [bind_eq (peek_eq ls)]
  exact congrArg (fun b => Except.ok (b, ls)) (decide_eq_false other)

theorem atSign_of_eq (same : kindOf ls = .sign text) : atSign text ls = .ok (true, ls) := by
  unfold atSign
  rw [bind_eq (peek_eq ls)]
  exact congrArg (fun b => Except.ok (b, ls)) (decide_eq_true same)

theorem atWord_of_ne (other : kindOf ls ≠ .word text) : atWord text ls = .ok (false, ls) := by
  unfold atWord
  rw [bind_eq (peek_eq ls)]
  exact congrArg (fun b => Except.ok (b, ls)) (decide_eq_false other)

/-! ## Repetition -/

/-- Rounds of a repeated step, each of which takes a lexeme. -/
inductive Loops (step : α → Parsing (Option α)) : α → List Lexeme → α → List Lexeme → Prop where
  | stop {a : α} {ls rest : List Lexeme} (none : step a ls = .ok (none, rest)) : Loops step a ls a rest
  | more {a b c : α} {ls ls' rest : List Lexeme} (some : step a ls = .ok (some b, ls'))
    (shorter : ls'.length < ls.length) (later : Loops step b ls' c rest) : Loops step a ls c rest

variable {step : α → Parsing (Option α)}

theorem loop_of_loops (loops : Loops step a ls b rest) {fuel : Nat} (enough : ls.length < fuel) :
    loop step fuel a ls = .ok (b, rest) := by
  induction loops generalizing fuel with
  | stop none =>
    obtain ⟨fuel, rfl⟩ := Nat.exists_eq_add_of_le' (show 1 ≤ fuel by omega)
    rw [loop, bind_eq none]
    rfl
  | more some shorter later ih =>
    obtain ⟨fuel, rfl⟩ := Nat.exists_eq_add_of_le' (show 1 ≤ fuel by omega)
    rw [loop, bind_eq some]
    exact ih (by omega)

theorem repeating_of_loops (loops : Loops step a ls b rest) :
    repeating step a ls = .ok (b, rest) :=
  loop_of_loops loops (Nat.lt_succ_self _)

theorem repeating_once (rest : List Lexeme) (none : step a ls = .ok (none, rest)) :
    repeating step a ls = .ok (a, rest) :=
  repeating_of_loops (.stop none)

theorem repeating_twice (ls' rest : List Lexeme) (some : step a ls = .ok (some b, ls'))
    (none : step b ls' = .ok (none, rest)) (nonempty : ls ≠ []) :
    repeating step a ls = .ok (b, rest) := by
  obtain ⟨l, ls, rfl⟩ := exists_cons_of_ne_nil nonempty
  change loop step (ls.length + 2) a _ = _
  rw [loop, bind_eq some]
  change loop step (ls.length + 1) b _ = _
  rw [loop, bind_eq none]
  rfl

/-- Items that a parser reads one after the other. -/
inductive Many (continues : Kind → Bool) (item : Parsing α) :
    List Lexeme → List α → List Lexeme → Prop where
  | nil (ls : List Lexeme) : Many continues item ls [] ls
  | cons {a : α} {as : List α} {ls ls' rest : List Lexeme} (starts : continues (kindOf ls) = true)
    (read : item ls = .ok (a, ls')) (shorter : ls'.length < ls.length)
    (later : Many continues item ls' as rest) : Many continues item ls (a :: as) rest

variable {continues : Kind → Bool} {as bs : List α}

theorem Many.append (first : Many continues p ls as rest) (second : Many continues p rest bs after) :
    Many continues p ls (as ++ bs) after := by
  induction first with
  | nil ls => exact second
  | cons starts read shorter later ih => exact .cons starts read shorter (ih second)

theorem Many.length_le (many : Many continues p ls as rest) : rest.length ≤ ls.length := by
  induction many with
  | nil ls => exact Nat.le_refl _
  | cons starts read shorter later ih => omega

/-- Items are collected as long as the next lexeme starts one. -/
theorem whileKind_of_many (many : Many continues p ls as rest) (stops : continues (kindOf rest) = false) :
    whileKind continues p ls = .ok (as, rest) := by
  have loops : ∀ items : Array α, Loops (fun items => do
      if continues (← peek) then return some (items.push (← p)) else return none) items ls
      (items ++ as.toArray) rest := by
    induction many with
    | nil ls =>
      intro items
      rw [Array.append_empty]
      refine .stop ?_
      rw [bind_eq (peek_eq ls), if_neg (Bool.eq_false_iff.1 stops)]
      rfl
    | @cons a as ls ls' rest starts read shorter later ih =>
      intro items
      refine .more (b := items.push a) ?_ shorter ?_
      · rw [bind_eq (peek_eq ls), if_pos starts, bind_eq read]
        rfl
      · have shape : items ++ (a :: as).toArray = items.push a ++ as.toArray := by simp
        rw [shape]
        exact ih stops _
  unfold whileKind
  rw [bind_eq (repeating_of_loops (loops #[]))]
  exact congrArg (fun items => Except.ok (items, rest)) (by simp)

theorem optional_of_starts (there : starts (kindOf ls) = true) (read : p ls = .ok (a, rest)) :
    Parsing.optional starts p ls = .ok (some a, rest) := by
  unfold Parsing.optional
  rw [bind_eq (peek_eq ls), if_pos there, bind_eq read]
  rfl

theorem optional_of_not (missing : starts (kindOf ls) = false) :
    Parsing.optional starts p ls = .ok (none, ls) := by
  unfold Parsing.optional
  rw [bind_eq (peek_eq ls), if_neg (Bool.eq_false_iff.1 missing)]
  rfl

/-! ## Items with commas -/

/-- Further items, each behind a comma. -/
inductive Further (starts : Kind → Bool) (item : Parsing α) :
    List Lexeme → List α → List Lexeme → Prop where
  | nil {ls : List Lexeme} (ends : kindOf ls ≠ .sign ",") : Further starts item ls [] ls
  | cons {a : α} {as : List α} {comma : Lexeme} {ls ls' rest : List Lexeme}
    (isComma : comma.kind = .sign ",") (there : starts (kindOf ls) = true)
    (read : item ls = .ok (a, ls')) (shorter : ls'.length < ls.length)
    (later : Further starts item ls' as rest) : Further starts item (comma :: ls) (a :: as) rest

variable {starts : Kind → Bool}

theorem loops_of_further {step : β → Parsing (Option β)} (state : Array α → β)
    (stop : ∀ items {ls}, kindOf ls ≠ .sign "," → step (state items) ls = .ok (none, ls))
    (more : ∀ items {a comma ls ls'}, comma.kind = .sign "," → starts (kindOf ls) = true →
      p ls = .ok (a, ls') → step (state items) (comma :: ls) = .ok (some (state (items.push a)), ls'))
    (further : Further starts p ls as rest) (items : Array α) :
    Loops step (state items) ls (state (items ++ as.toArray)) rest := by
  induction further generalizing items with
  | nil ends =>
    rw [Array.append_empty]
    exact .stop (stop items ends)
  | @cons a as comma ls ls' rest isComma there read shorter later ih =>
    refine .more (more items isComma there read) (Nat.lt_succ_of_lt shorter) ?_
    rw [show items ++ (a :: as).toArray = items.push a ++ as.toArray by simp]
    exact ih _

theorem commaTail_of_further (further : Further starts p ls as rest) (first : α) :
    commaTail starts p first ls = .ok ((first :: as, false), rest) := by
  refine (bind_eq (repeating_of_loops (loops_of_further (·, false) ?_ ?_ further #[first]))).trans ?_
  · intro items ls ends
    dsimp only
    rw [if_neg Bool.false_ne_true, acceptSign, bind_eq (accept_of_ne ends)]
    rfl
  · intro items a comma ls ls' isComma there read
    dsimp only
    rw [if_neg Bool.false_ne_true, acceptSign, bind_eq (@accept_of_eq _ (comma :: ls) isComma),
      if_pos rfl, bind_eq (peek_eq _)]
    change (if starts (kindOf ls) = true then _ else _ : Parsing _) ls = _
    rw [if_pos there, bind_eq read]
    rfl
  · exact congrArg (fun items => Except.ok ((items, false), rest)) (by simp)

theorem commaSeparated_of_further (read : p ls = .ok (a, ls'))
    (further : Further starts p ls' as rest) :
    commaSeparated starts p ls = .ok ((a :: as, false), rest) := by
  unfold commaSeparated
  rw [bind_eq read]
  exact commaTail_of_further further a

theorem oneOrMore_of_further (read : p ls = .ok (a, ls')) (further : Further starts p ls' as rest) :
    oneOrMore p ls = .ok (a :: as, rest) := by
  unfold oneOrMore
  rw [bind_eq read]
  refine (bind_eq (repeating_of_loops (loops_of_further id ?_ ?_ further #[a]))).trans ?_
  · intro items ls ends
    rw [acceptSign, bind_eq (accept_of_ne ends)]
    rfl
  · intro items a comma ls ls' isComma there read
    rw [acceptSign, bind_eq (@accept_of_eq _ (comma :: ls) isComma), if_pos rfl]
    change (p >>= _) ls = _
    rw [bind_eq read]
    rfl
  · exact congrArg (fun items => Except.ok (items, rest)) (by simp)

end Parsing

open Parsing

/-! ## What follows -/

/-- Lexemes behind an expression. -/
def afterTest : List Kind :=
  [.newline, .sign ")", .sign ",", .sign ":", .sign "="]

/-- Lexemes behind an operand of a connective. -/
def afterInversion : List Kind :=
  afterTest ++ [.word "and", .word "or"]

/-- Lexemes behind an operand of a comparison. -/
def afterExpression : List Kind :=
  afterInversion ++ [.sign "<", .sign ">", .sign "==", .sign "!="]

/-- Lexemes behind an operand of a sum or a product. -/
def afterFactor : List Kind :=
  afterExpression ++ [.sign "+", .sign "-", .sign "*"]

def opensOperand : Kind → Bool
  | .name _ | .int _ => true
  | .sign s => s = "-"
  | .word w => w = "True"
  | _ => false

/-- Whether a lexeme starts an expression. -/
def opensTest : Kind → Bool
  | .word w => w = "True" || w = "not"
  | k => opensOperand k

theorem opensTest_of_opensOperand (opens : opensOperand k = true) : opensTest k = true := by
  cases k with
  | word w => exact Bool.or_eq_true_iff.2 (.inl opens)
  | _ => exact opens

variable {n : Nested} {ls ls' rest : List Lexeme} {e a b : Expr} {l : Lexeme}

/-! ## Atoms and calls -/

theorem atom_name (n : Nested) (id : String) (line endLine : Nat) (rest : List Lexeme) :
    atom n (⟨.name id, line, endLine⟩ :: rest) = .ok (.name id line, rest) :=
  rfl

theorem atom_int (n : Nested) (value line endLine : Nat) (rest : List Lexeme) :
    atom n (⟨.int value, line, endLine⟩ :: rest) = .ok (.constant (.int value) line, rest) :=
  rfl

theorem atom_true (n : Nested) (line endLine : Nat) (rest : List Lexeme) :
    atom n (⟨.word "True", line, endLine⟩ :: rest) = .ok (.constant (.bool true) line, rest) :=
  rfl

@[elab_as_elim]
theorem of_mem_kinds {motive : Kind → Prop} {kinds : List Kind} (follows : k ∈ kinds)
    (all : kinds.Forall motive) : motive k :=
  forall_iff_forall_mem.1 all k follows

theorem primary_of_atom (read : atom n ls = .ok (e, rest)) (follows : kindOf rest ∈ afterFactor) :
    primary n ls = .ok (e, rest) := by
  unfold primary
  rw [bind_eq (here_eq ls), bind_eq read]
  refine repeating_once rest ?_
  rw [bind_eq (peek_eq rest)]
  generalize kindOf rest = k at follows ⊢
  refine of_mem_kinds follows ?_
  repeat' constructor

theorem primary_call {id : String} {line endLine : Nat} {opener : Lexeme} {es : List Expr}
    (opens : opener.kind = .sign "(") (read : arguments n ls = .ok ((es, false), rest))
    (follows : kindOf rest ∈ afterFactor) :
    primary n (⟨.name id, line, endLine⟩ :: opener :: ls) =
      .ok (.call (.name id line) es false line, rest) := by
  unfold primary
  rw [bind_eq (here_eq _), bind_eq (atom_name n id line endLine _)]
  refine repeating_twice rest rest ?_ ?_ (cons_ne_nil _ _)
  · rw [bind_eq (peek_eq _), show kindOf (opener :: ls) = .sign "(" from opens]
    change (advance >>= _) (opener :: ls) = _
    rw [bind_eq (advance_eq _), tail_cons, bind_eq read]
    rfl
  · rw [bind_eq (peek_eq rest)]
    generalize kindOf rest = k at follows ⊢
    refine of_mem_kinds follows ?_
    repeat' constructor

/-! ## Signs in front of operands -/

theorem ne_of_opensTest {k' : Kind} (opens : opensTest k = true) (closed : opensTest k' = false) :
    k ≠ k' := by
  rintro rfl
  rw [opens] at closed
  cases closed

theorem ne_of_opensOperand {k' : Kind} (opens : opensOperand k = true)
    (closed : opensOperand k' = false) : k ≠ k' := by
  rintro rfl
  rw [opens] at closed
  cases closed

/-- What binds tightest has no sign in front of it. -/
theorem factor_of_primary (read : primary n ls = .ok (e, rest))
    (opens : opensOperand (kindOf ls) = true) (unsigned : kindOf ls ≠ .sign "-")
    (follows : kindOf rest ≠ .sign "**") : factor n ls = .ok (e, rest) := by
  unfold factor power awaited
  rw [bind_eq (here_eq ls), acceptSign, bind_eq (accept_of_ne unsigned)]
  change (acceptSign "+" >>= _) ls = _
  rw [acceptSign, bind_eq (accept_of_ne (ne_of_opensOperand opens rfl))]
  change (acceptSign "~" >>= _) ls = _
  rw [acceptSign, bind_eq (accept_of_ne (ne_of_opensOperand opens rfl))]
  change (here >>= _) ls = _
  have awaited : (do
      let start ← here
      if ← acceptWord "await" then
        let _ ← primary n
        return .other .awaiting start
      primary n : Parsing Expr) ls = .ok (e, rest) := by
    rw [bind_eq (here_eq ls), acceptWord, bind_eq (accept_of_ne (ne_of_opensOperand opens rfl))]
    exact read
  rw [bind_eq (here_eq ls), bind_eq awaited, acceptSign, bind_eq (accept_of_ne follows)]
  rfl

theorem factor_minus (sign : kindOf ls = .sign "-") (read : n.factor ls.tail = .ok (e, rest)) :
    factor n ls = .ok (.unary .minus e (lineOf ls), rest) := by
  unfold factor
  rw [bind_eq (here_eq ls), acceptSign, bind_eq (accept_of_eq sign), if_pos rfl, bind_eq read]
  rfl

/-! ## Sums and products -/

/-- Whether a lexeme is none of some operators. -/
def isNoneOf (operators : List (String × Operator)) : Kind → Bool
  | .sign s => (operators.lookup s).isNone
  | _ => true

section Chains

variable {operators : List (String × Operator)} {operand : Parsing Expr} {op : Operator}

theorem chain_step_stop (left : Expr) (start : Nat) (stops : isNoneOf operators (kindOf rest) = true) :
    (do
      match ← peek with
      | .sign s =>
        match operators.lookup s with
        | some op =>
          advance
          return some (.binary op left (← operand) start)
        | none => return none
      | _ => return none : Parsing (Option Expr)) rest = .ok (none, rest) := by
  rw [bind_eq (peek_eq rest)]
  cases kind : kindOf rest with
  | sign s =>
    rw [kind] at stops
    dsimp only
    rw [Option.isNone_iff_eq_none.1 stops]
    rfl
  | _ => rfl

theorem chain_of_operand (read : operand ls = .ok (e, rest))
    (stops : isNoneOf operators (kindOf rest) = true) : chain operators operand ls = .ok (e, rest) := by
  unfold chain
  rw [bind_eq (here_eq ls), bind_eq read]
  exact repeating_once rest (chain_step_stop e (lineOf ls) stops)

theorem chain_pair {s : String} (first : operand ls = .ok (a, l :: ls')) (sign : l.kind = .sign s)
    (found : operators.lookup s = some op) (second : operand ls' = .ok (b, rest))
    (stops : isNoneOf operators (kindOf rest) = true) :
    chain operators operand ls = .ok (.binary op a b (lineOf ls), rest) := by
  unfold chain
  rw [bind_eq (here_eq ls), bind_eq first]
  refine repeating_twice rest rest ?_ (chain_step_stop _ (lineOf ls) stops) (cons_ne_nil _ _)
  rw [bind_eq (peek_eq _), show kindOf (l :: ls') = .sign s from sign]
  dsimp only
  rw [found]
  dsimp only
  rw [bind_eq (advance_eq _), tail_cons, bind_eq second]
  rfl

end Chains

/-- A sum is an operand of all operators that bind less tightly. -/
theorem expression_of_sum (read : chain [("+", .add), ("-", .sub)] (term n) ls = .ok (e, rest))
    (follows : kindOf rest ∈ afterExpression) : expression n ls = .ok (e, rest) := by
  unfold expression
  refine chain_of_operand (chain_of_operand (chain_of_operand (chain_of_operand read ?_) ?_) ?_) ?_
  all_goals
    refine of_mem_kinds follows ?_
    repeat' constructor

theorem expression_of_term (read : term n ls = .ok (e, rest))
    (follows : kindOf rest ∈ afterExpression) : expression n ls = .ok (e, rest) := by
  refine expression_of_sum (chain_of_operand read ?_) follows
  refine of_mem_kinds follows ?_
  repeat' constructor

theorem term_of_factor (read : n.factor ls = .ok (e, rest))
    (stops : kindOf rest ∈ afterExpression ∨ kindOf rest = .sign "+" ∨ kindOf rest = .sign "-") :
    term n ls = .ok (e, rest) := by
  refine chain_of_operand read ?_
  rcases stops with follows | same | same
  · refine of_mem_kinds follows ?_
    repeat' constructor
  · rw [same]; rfl
  · rw [same]; rfl

theorem expression_of_factor (read : n.factor ls = .ok (e, rest))
    (follows : kindOf rest ∈ afterExpression) : expression n ls = .ok (e, rest) :=
  expression_of_term (term_of_factor read (.inl follows)) follows

/-- The operators of sums and products with their signs. -/
inductive SignOf : String → Operator → Prop where
  | add : SignOf "+" .add
  | sub : SignOf "-" .sub
  | mul : SignOf "*" .mul

theorem expression_binary {op : Operator} (sign : SignOf s op)
    (first : n.factor ls = .ok (a, l :: ls')) (kind : l.kind = .sign s)
    (second : n.factor ls' = .ok (b, rest)) (follows : kindOf rest ∈ afterExpression) :
    expression n ls = .ok (.binary op a b (lineOf ls), rest) := by
  cases sign with
  | add =>
    refine expression_of_sum (chain_pair (term_of_factor first (.inr (.inl kind))) kind rfl
      (term_of_factor second (.inl follows)) ?_) follows
    refine of_mem_kinds follows ?_
    repeat' constructor
  | sub =>
    refine expression_of_sum (chain_pair (term_of_factor first (.inr (.inr kind))) kind rfl
      (term_of_factor second (.inl follows)) ?_) follows
    refine of_mem_kinds follows ?_
    repeat' constructor
  | mul =>
    refine expression_of_term (chain_pair first kind rfl second ?_) follows
    refine of_mem_kinds follows ?_
    repeat' constructor

/-! ## Comparisons and connectives -/

theorem mem_afterExpression (follows : k ∈ afterInversion) : k ∈ afterExpression :=
  mem_append_left _ follows

theorem mem_afterInversion (follows : k ∈ afterTest) : k ∈ afterInversion :=
  mem_append_left _ follows

theorem comparator?_stop (follows : kindOf rest ∈ afterInversion) :
    comparator? rest = .ok (none, rest) := by
  unfold comparator?
  rw [bind_eq (peek_eq rest)]
  refine of_mem_kinds follows ?_
  repeat' constructor

theorem comparison_step_stop (follows : kindOf rest ∈ afterInversion)
    (found : Array (Comparator × Expr)) :
    (do
      match ← comparator? with
      | some op => return some (found.push (op, ← expression n))
      | none => return none : Parsing (Option (Array (Comparator × Expr)))) rest =
      .ok (none, rest) := by
  rw [bind_eq (comparator?_stop follows)]
  rfl

theorem comparison_of_expression (read : expression n ls = .ok (e, rest))
    (follows : kindOf rest ∈ afterInversion) : comparison n ls = .ok (e, rest) := by
  unfold comparison
  rw [bind_eq (here_eq ls), bind_eq read,
    bind_eq (repeating_once rest (comparison_step_stop follows #[]))]
  rfl

/-- The signs of comparisons. -/
inductive ComparatorOf : String → Comparator → Prop where
  | lt : ComparatorOf "<" .lt
  | gt : ComparatorOf ">" .gt
  | eq : ComparatorOf "==" .eq
  | ne : ComparatorOf "!=" .ne

theorem comparator?_sign {op : Comparator} (sign : ComparatorOf s op) (kind : l.kind = .sign s) :
    comparator? (l :: ls) = .ok (some op, ls) := by
  unfold comparator?
  rw [bind_eq (peek_eq _), show kindOf (l :: ls) = .sign s from kind]
  cases sign <;> rfl

theorem comparison_pair {op : Comparator} (sign : ComparatorOf s op)
    (first : expression n ls = .ok (a, l :: ls')) (kind : l.kind = .sign s)
    (second : expression n ls' = .ok (b, rest)) (follows : kindOf rest ∈ afterInversion) :
    comparison n ls = .ok (.compare a [(op, b)] (lineOf ls), rest) := by
  unfold comparison
  rw [bind_eq (here_eq ls), bind_eq first, bind_eq (repeating_twice (b := #[(op, b)]) rest
    rest ?_ (comparison_step_stop follows _) (cons_ne_nil _ _))]
  · rfl
  · rw [bind_eq (comparator?_sign sign kind)]
    dsimp only
    rw [bind_eq second]
    rfl

theorem inversion_of_comparison (read : comparison n ls = .ok (e, rest))
    (opens : opensOperand (kindOf ls) = true) : inversion n ls = .ok (e, rest) := by
  unfold inversion
  rw [bind_eq (here_eq ls), acceptWord, bind_eq (accept_of_ne (ne_of_opensOperand opens rfl))]
  exact read

theorem inversion_not (word : kindOf ls = .word "not") (read : n.inversion ls.tail = .ok (e, rest)) :
    inversion n ls = .ok (.unary .not e (lineOf ls), rest) := by
  unfold inversion
  rw [bind_eq (here_eq ls), acceptWord, bind_eq (accept_of_eq word), if_pos rfl, bind_eq read]
  rfl

section Joined

variable {op : Connective} {word : String} {operand : Parsing Expr}

theorem joined_of_operand (read : operand ls = .ok (e, rest)) (stops : kindOf rest ≠ .word word) :
    joined op word operand ls = .ok (e, rest) := by
  unfold joined
  rw [bind_eq (here_eq ls), bind_eq read, bind_eq (repeating_once rest ?_)]
  · rfl
  · rw [acceptWord, bind_eq (accept_of_ne stops)]
    rfl

theorem joined_pair (first : operand ls = .ok (a, l :: ls')) (kind : l.kind = .word word)
    (second : operand ls' = .ok (b, rest)) (stops : kindOf rest ≠ .word word) :
    joined op word operand ls = .ok (.bool op [a, b] (lineOf ls), rest) := by
  unfold joined
  rw [bind_eq (here_eq ls), bind_eq first, bind_eq (repeating_twice (b := #[a, b]) rest
    rest ?_ ?_ (cons_ne_nil _ _))]
  · rfl
  · rw [acceptWord, bind_eq (@accept_of_eq _ (l :: ls') kind), if_pos rfl, tail_cons,
      bind_eq second]
    rfl
  · rw [acceptWord, bind_eq (accept_of_ne stops)]
    rfl

end Joined

theorem ne_word_of_mem_afterTest (follows : k ∈ afterTest) (text : String) : k ≠ .word text := by
  simp only [afterTest, mem_cons, not_mem_nil, or_false] at follows
  rcases follows with rfl | rfl | rfl | rfl | rfl <;> nofun

theorem disjunction_of_inversion (read : inversion n ls = .ok (e, rest))
    (follows : kindOf rest ∈ afterTest) : disjunction n ls = .ok (e, rest) :=
  joined_of_operand (joined_of_operand read (ne_word_of_mem_afterTest follows _))
    (ne_word_of_mem_afterTest follows _)

theorem disjunction_and (first : inversion n ls = .ok (a, l :: ls')) (kind : l.kind = .word "and")
    (second : inversion n ls' = .ok (b, rest)) (follows : kindOf rest ∈ afterTest) :
    disjunction n ls = .ok (.bool .and [a, b] (lineOf ls), rest) :=
  joined_of_operand (joined_pair first kind second (ne_word_of_mem_afterTest follows _))
    (ne_word_of_mem_afterTest follows _)

theorem disjunction_or (first : inversion n ls = .ok (a, l :: ls')) (kind : l.kind = .word "or")
    (second : inversion n ls' = .ok (b, rest)) (follows : kindOf rest ∈ afterTest) :
    disjunction n ls = .ok (.bool .or [a, b] (lineOf ls), rest) := by
  refine joined_pair (joined_of_operand first ?_) kind
    (joined_of_operand second (ne_word_of_mem_afterTest follows _))
    (ne_word_of_mem_afterTest follows _)
  rw [show kindOf (l :: ls') = .word "or" from kind]
  decide

theorem test_of_disjunction (read : disjunction n ls = .ok (e, rest))
    (opens : opensTest (kindOf ls) = true) (follows : kindOf rest ∈ afterTest) :
    test n ls = .ok (e, rest) := by
  unfold test
  rw [bind_eq (atWord_of_ne (ne_of_opensTest opens rfl))]
  change (here >>= _) ls = _
  rw [bind_eq (here_eq ls), bind_eq read, acceptWord,
    bind_eq (accept_of_ne (ne_word_of_mem_afterTest follows _))]
  rfl

/-! ## Arguments -/

/-- Neither an assignment expression nor a keyword argument. -/
def isPlainSecond (k : Kind) : Bool :=
  k != .sign "=" && k != .sign ":="

theorem namedTest_of_test (read : n.test ls = .ok (e, rest))
    (plain : isPlainSecond (kindOf ls.tail) = true) : namedTest n ls = .ok ((.test, e), rest) := by
  unfold namedTest
  rw [bind_eq (peek_eq ls), bind_eq (peekSecond_eq ls)]
  generalize kindOf ls = first
  generalize kindOf ls.tail = second at plain
  split
  · exact absurd plain (by decide)
  · rw [bind_eq read]
    rfl

theorem condition_of_test (read : n.test ls = .ok (e, rest))
    (plain : isPlainSecond (kindOf ls.tail) = true) : condition n ls = .ok (e, rest) := by
  unfold condition
  rw [bind_eq (namedTest_of_test read plain)]
  rfl

theorem argument_of_test (read : n.test ls = .ok (e, rest)) (opens : opensTest (kindOf ls) = true)
    (plain : isPlainSecond (kindOf ls.tail) = true) (follows : kindOf rest ∈ afterTest) :
    argument n ls = .ok (.positional e, rest) := by
  have noLoop : startsLoop (kindOf rest) = false := by
    simp [startsLoop, ne_word_of_mem_afterTest follows]
  unfold argument
  have condition := condition_of_test read plain
  rw [bind_eq (peek_eq ls), bind_eq (peekSecond_eq ls)]
  generalize kindOf ls = first at opens ⊢
  generalize kindOf ls.tail = second at plain ⊢
  split
  · cases opens
  · cases opens
  · exact absurd plain (by decide)
  · rw [bind_eq (here_eq ls), bind_eq condition, bind_eq (peek_eq rest),
      if_neg (Bool.eq_false_iff.1 noLoop)]
    rfl

theorem foldlM_positional (es : List Expr) (scan : ArgumentScan) (noKeywords : scan.hasKeywords = false) :
    (es.map Argument.positional).foldlM ArgumentScan.add scan =
      .ok { scan with values := scan.values ++ es.toArray } := by
  induction es generalizing scan with
  | nil =>
    rw [Array.append_empty]
    rfl
  | cons e es ih =>
    have added : scan.add (.positional e) = .ok { scan with values := scan.values.push e } := by
      unfold ArgumentScan.add
      rw [noKeywords]
      rfl
    rw [map_cons, foldlM_cons, added]
    refine (ih { scan with values := scan.values.push e } noKeywords).trans ?_
    simp

theorem startsElement_of_opensTest (opens : opensTest k = true) : startsElement k = true := by
  unfold startsElement startsTest
  cases k with
  | word w =>
    simp only [opensTest, Bool.or_eq_true, decide_eq_true_eq] at opens
    rcases opens with rfl | rfl <;> rfl
  | sign s =>
    obtain rfl : s = "-" := of_decide_eq_true opens
    rfl
  | name id => rfl
  | int value => rfl
  | _ => cases opens

theorem startsArgument_of_opensTest (opens : opensTest k = true) : startsArgument k = true :=
  Bool.or_eq_true_iff.2 (.inl (startsElement_of_opensTest opens))

theorem arguments_of_further {es : List Expr} {closer : Lexeme} (opens : opensTest (kindOf ls) = true)
    (first : argument n ls = .ok (.positional e, ls'))
    (further : Further startsArgument (argument n) ls' (es.map .positional) (closer :: rest))
    (closes : closer.kind = .sign ")") : arguments n ls = .ok ((e :: es, false), rest) := by
  have starts := startsArgument_of_opensTest opens
  have scanned := foldlM_positional (e :: es) {} rfl
  unfold arguments
  rw [bind_eq (optional_of_starts starts (commaSeparated_of_further first further)),
    bind_eq (@atSign_of_eq (closer :: rest) _ closes)]
  rw [map_cons] at scanned
  rw [if_pos rfl, Option.elim_some, scanned]
  exact congrArg (fun es => Except.ok ((es, false), rest)) (by simp)

theorem arguments_none {closer : Lexeme} (closes : closer.kind = .sign ")") :
    arguments n (closer :: rest) = .ok (([], false), rest) := by
  have starts : startsArgument (kindOf (closer :: rest)) = false := by
    rw [show kindOf (closer :: rest) = .sign ")" from closes]
    rfl
  unfold arguments
  rw [bind_eq (optional_of_not starts), bind_eq (@atSign_of_eq (closer :: rest) _ closes)]
  rfl

end SlotLang.Reader
