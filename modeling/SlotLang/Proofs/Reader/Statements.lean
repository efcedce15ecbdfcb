import Mathlib.Data.List.TakeWhile
import SlotLang.Proofs.Reader.Expressions
import SlotLang.Proofs.Reader.Layout
import SlotLang.Reader.Statement

/-!
# How statements are read

One lemma for each form of statement that simple programs use. What a row of a text starts with
decides which form is read, and a suite reads the rows that are laid out one level deeper.
-/

open List

namespace SlotLang.Reader

open Parsing

variable {n : Nested} {ls ls' rest : List Lexeme} {e target value : Expr} {l : Lexeme}

/-! ## Lists of one expression -/

theorem testOrStar_of_test (read : n.test ls = .ok (e, rest)) (opens : opensTest (kindOf ls) = true) :
    testOrStar n ls = .ok (e, rest) := by
  unfold testOrStar
  rw [bind_eq (atSign_of_ne (ne_of_opensTest opens rfl))]
  exact read

theorem items_of_test (read : n.test ls = .ok (e, rest)) (opens : opensTest (kindOf ls) = true)
    (single : kindOf rest ≠ .sign ",") :
    commaSeparated startsElement (testOrStar n) ls = .ok (([e], false), rest) :=
  commaSeparated_of_further (testOrStar_of_test read opens) (.nil single)

theorem testList_of_test (read : n.test ls = .ok (e, rest)) (opens : opensTest (kindOf ls) = true)
    (single : kindOf rest ≠ .sign ",") : testList n ls = .ok (e, rest) := by
  unfold testList
  rw [bind_eq (here_eq ls), bind_eq (items_of_test read opens single)]
  rfl

theorem assigned_of_test (read : n.test ls = .ok (e, rest)) (opens : opensTest (kindOf ls) = true)
    (single : kindOf rest ≠ .sign ",") : assigned n ls = .ok (e, rest) := by
  unfold assigned
  rw [bind_eq (atWord_of_ne (ne_of_opensTest opens rfl))]
  exact testList_of_test read opens single

/-! ## Simple statements -/

/-- Whether an expression is an unpacked one. -/
def Expr.isStarred : Expr → Bool
  | .other .starred _ => true
  | _ => false

theorem augmentOperator?_none (plain : isNoneOf augmentOperators (kindOf ls) = true) :
    augmentOperator? ls = .ok (none, ls) := by
  unfold augmentOperator?
  rw [bind_eq (peek_eq ls)]
  cases kind : kindOf ls with
  | sign s =>
    rw [kind] at plain
    exact congrArg (fun op => Except.ok (op, ls)) (Option.isNone_iff_eq_none.1 plain)
  | _ => rfl

theorem expressionStatement_of_test {values : List Expr} (read : n.test ls = .ok (e, ls'))
    (opens : opensTest (kindOf ls) = true) (plain : e.isStarred = false)
    (single : kindOf ls' ≠ .sign ",") (untyped : kindOf ls' ≠ .sign ":")
    (unaugmented : isNoneOf augmentOperators (kindOf ls') = true)
    (assigns : whileKind (· = .sign "=") (do advance; assigned n) ls' = .ok (values, rest)) :
    expressionStatement n ls = .ok (match values.getLast? with
      | some value => .assign (e :: values.dropLast) value (lineOf ls)
      | none => .expr e (lineOf ls), rest) := by
  unfold expressionStatement
  rw [bind_eq (here_eq ls), bind_eq (items_of_test read opens single)]
  refine (congrFun (if_pos ?_) ls').trans ?_
  · change (!e.isStarred) = true
    rw [plain]
    rfl
  · rw [acceptSign, bind_eq (accept_of_ne untyped)]
    refine (bind_eq (augmentOperator?_none unaugmented)).trans ?_
    refine (bind_eq assigns).trans ?_
    cases values.getLast? <;> rfl

theorem expressionStatement_assign (first : n.test ls = .ok (target, l :: ls'))
    (opens : opensTest (kindOf ls) = true) (plain : target.isStarred = false)
    (equals : l.kind = .sign "=") (second : n.test ls' = .ok (value, rest))
    (opens' : opensTest (kindOf ls') = true) (ended : kindOf rest = .newline)
    (shorter : rest.length ≤ ls'.length) :
    expressionStatement n ls = .ok (.assign [target] value (lineOf ls), rest) := by
  have kind : kindOf (l :: ls') = .sign "=" := equals
  have values : Many (· = .sign "=") (do advance; assigned n) (l :: ls') [value] rest := by
    refine .cons (decide_eq_true kind) ?_ (Nat.lt_succ_of_le shorter) (.nil rest)
    rw [bind_eq (advance_eq _)]
    exact assigned_of_test second opens' (by rw [ended]; decide)
  exact expressionStatement_of_test first opens plain (by rw [kind]; decide) (by rw [kind]; decide)
    (by rw [kind]; rfl) (whileKind_of_many values (by rw [ended]; rfl))

theorem expressionStatement_expr (read : n.test ls = .ok (e, rest))
    (opens : opensTest (kindOf ls) = true) (plain : e.isStarred = false)
    (ended : kindOf rest = .newline) :
    expressionStatement n ls = .ok (.expr e (lineOf ls), rest) :=
  expressionStatement_of_test read opens plain (by rw [ended]; decide) (by rw [ended]; decide)
    (by rw [ended]; rfl) (whileKind_of_many (.nil rest) (by rw [ended]; rfl))

theorem simpleStatement_name {id : String} (name : kindOf ls = .name id) :
    simpleStatement n ls = expressionStatement n ls := by
  unfold simpleStatement
  rw [bind_eq (peek_eq ls), name]

theorem simpleStatement_word {word : String} (kind : kindOf ls = .word word) :
    simpleStatement n ls = wordStatement n word (lineOf ls) ls := by
  unfold simpleStatement
  rw [bind_eq (peek_eq ls), kind]
  exact bind_eq (here_eq ls)

theorem simpleStatement_return (kind : kindOf ls = .word "return")
    (read : n.test ls.tail = .ok (e, rest)) (opens : opensTest (kindOf ls.tail) = true)
    (ended : kindOf rest = .newline) :
    simpleStatement n ls = .ok (.ret (some e) (lineOf ls), rest) := by
  rw [simpleStatement_word kind]
  change (advance >>= _) ls = _
  rw [bind_eq (advance_eq ls), bind_eq (optional_of_starts (startsElement_of_opensTest opens)
    (testList_of_test read opens (by rw [ended]; decide)))]
  rfl

theorem simpleStatement_continue (kind : kindOf ls = .word "continue") :
    simpleStatement n ls = .ok (.continueLoop (lineOf ls), ls.tail) := by
  rw [simpleStatement_word kind]
  rfl

theorem simpleStatement_break (kind : kindOf ls = .word "break") :
    simpleStatement n ls = .ok (.breakLoop (lineOf ls), ls.tail) := by
  rw [simpleStatement_word kind]
  rfl

theorem simpleStatement_global {names : List String} (kind : kindOf ls = .word "global")
    (read : oneOrMore identifier ls.tail = .ok (names, rest)) :
    simpleStatement n ls = .ok (.global names (lineOf ls), rest) := by
  rw [simpleStatement_word kind]
  change (advance >>= _) ls = _
  rw [bind_eq (advance_eq ls), bind_eq read]
  rfl

/-! ## Lines -/

def opensSimple : Kind → Bool
  | .name _ => true
  | .word w => ["return", "continue", "break", "global"].contains w
  | _ => false

theorem simpleLine_of_statement {s : Stmt} {newline : Lexeme}
    (read : simpleStatement n ls = .ok (s, newline :: rest)) (ended : newline.kind = .newline) :
    simpleLine n ls = .ok ([s], rest) := by
  have kind : kindOf (newline :: rest) = .newline := ended
  unfold simpleLine
  rw [bind_eq read, bind_eq (repeating_once (newline :: rest) ?_)]
  · dsimp only
    rw [bind_eq (expect_of_eq kind)]
    rfl
  · dsimp only
    rw [if_neg Bool.false_ne_true, acceptSign, bind_eq (accept_of_ne (by rw [kind]; decide))]
    rfl

variable {depth : Nat} {suite : Parsing (List Stmt)}

theorem statements_simple (opens : opensSimple (kindOf ls) = true) :
    statements n depth suite ls = simpleLine n ls := by
  unfold statements
  rw [bind_eq (here_eq ls), bind_eq (peek_eq ls)]
  cases kind : kindOf ls with
  | name id => rfl
  | word w =>
    rw [kind] at opens
    have known : w ∈ ["return", "continue", "break", "global"] := contains_iff_mem.1 opens
    simp only [mem_cons, not_mem_nil, or_false] at known
    rcases known with rfl | rfl | rfl | rfl <;> rfl
  | sign s =>
    rw [kind] at opens
    cases opens
  | _ => rfl

/-! ## Compound statements -/

/-- Neither a further condition nor an alternative. -/
def isUnrelated (k : Kind) : Bool :=
  k != .word "elif" && k != .word "else"

theorem ne_of_isUnrelated {k : Kind} (unrelated : isUnrelated k = true) :
    k ≠ .word "elif" ∧ k ≠ .word "else" := by
  simpa [isUnrelated] using unrelated

theorem clause?_none {word : String} (missing : kindOf ls ≠ .word word) :
    clause? suite word ls = .ok (none, ls) := by
  unfold clause?
  rw [acceptWord, bind_eq (accept_of_ne missing)]
  rfl

theorem body_of_suite {colon : Lexeme} {ss : List Stmt} (kind : colon.kind = .sign ":")
    (read : suite ls = .ok (ss, rest)) : body suite (colon :: ls) = .ok (ss, rest) := by
  unfold body
  rw [expectSign, bind_eq (@expect_of_eq _ (colon :: ls) kind)]
  exact read

theorem statements_if {colon : Lexeme} {ss : List Stmt} (kind : kindOf ls = .word "if")
    (test : condition n ls.tail = .ok (e, colon :: ls')) (ends : colon.kind = .sign ":")
    (read : suite ls' = .ok (ss, rest)) (unrelated : isUnrelated (kindOf rest) = true) :
    statements n depth suite ls = .ok ([.cond e ss [] (lineOf ls)], rest) := by
  obtain ⟨noElif, noElse⟩ := ne_of_isUnrelated unrelated
  have cond : conditional n suite (lineOf ls) ls = .ok (.cond e ss [] (lineOf ls), rest) := by
    unfold conditional
    rw [expectWord, bind_eq (expect_of_eq kind), bind_eq test, bind_eq (body_of_suite ends read),
      bind_eq (whileKind_of_many (.nil rest) (decide_eq_false noElif)), bind_eq (clause?_none noElse)]
    rfl
  unfold statements
  rw [bind_eq (here_eq ls), bind_eq (peek_eq ls), kind]
  exact bind_eq cond

theorem statements_while {colon : Lexeme} {ss : List Stmt} (kind : kindOf ls = .word "while")
    (test : condition n ls.tail = .ok (e, colon :: ls')) (ends : colon.kind = .sign ":")
    (read : suite ls' = .ok (ss, rest)) (unrelated : isUnrelated (kindOf rest) = true) :
    statements n depth suite ls = .ok ([.whileLoop e ss [] (lineOf ls)], rest) := by
  have loop : whileStatement n suite (lineOf ls) ls = .ok (.whileLoop e ss [] (lineOf ls), rest) := by
    unfold whileStatement
    rw [expectWord, bind_eq (expect_of_eq kind), bind_eq test, bind_eq (body_of_suite ends read),
      bind_eq (clause?_none (ne_of_isUnrelated unrelated).2)]
    rfl
  unfold statements
  rw [bind_eq (here_eq ls), bind_eq (peek_eq ls), kind]
  exact bind_eq loop

/-! ## Parameters -/

theorem identifier_name (id : String) (line endLine : Nat) (rest : List Lexeme) :
    identifier (⟨.name id, line, endLine⟩ :: rest) = .ok (id, rest) :=
  rfl

/-- Parameters without types and defaults. -/
def plainParams (names : List String) : Params :=
  { plain := names.map fun name => ⟨name, false, false⟩ }

/-- A list of parameters without types and defaults. -/
def plainDraft (line : Nat) (names : List String) : ParamDraft where
  params := plainParams names
  names := names.map (·, line)
  defaults := names.map fun _ => (false, line)

theorem plainDraft_add (line : Nat) (names : List String) (id : String) :
    (plainDraft line names).add ⟨id, false, false⟩ line = plainDraft line (names ++ [id]) := by
  unfold ParamDraft.add plainDraft plainParams
  simp

theorem parameter_name {test unpacked : Parsing Expr} {line : Nat} {id : String} (names : List String)
    (follows : kindOf rest = .sign "," ∨ kindOf rest = .sign ")") :
    parameter test unpacked true (plainDraft line names) (.onLine (.name id) line :: rest) =
      .ok (plainDraft line (names ++ [id]), rest) := by
  have noColon : kindOf rest ≠ .sign ":" := by rcases follows with same | same <;> rw [same] <;> decide
  have noEquals : kindOf rest ≠ .sign "=" := by rcases follows with same | same <;> rw [same] <;> decide
  have untyped : typeHint true test rest = .ok (false, rest) := by
    unfold typeHint
    rw [if_pos rfl, acceptSign, bind_eq (accept_of_ne noColon)]
    rfl
  have name : kindOf (.onLine (.name id) line :: rest) = .name id := rfl
  rw [← plainDraft_add]
  unfold parameter
  rw [bind_eq (here_eq _), bind_eq (peek_eq _)]
  refine (congrFun (if_neg (by rw [name]; exact Bool.true_eq_false_eq_False)) _).trans ?_
  refine (bind_eq (@accept_of_ne (.sign "/") _ (by rw [name]; rintro ⟨⟩))).trans ?_
  refine (bind_eq (@accept_of_ne (.sign "*") _ (by rw [name]; rintro ⟨⟩))).trans ?_
  refine (bind_eq (@accept_of_ne (.sign "**") _ (by rw [name]; rintro ⟨⟩))).trans ?_
  refine (bind_eq (identifier_name id line line rest)).trans ?_
  rw [bind_eq untyped, acceptSign, bind_eq (accept_of_ne noEquals)]
  rfl

/-- Names behind commas, up to a closing bracket. -/
def nameTail (line : Nat) (names : List String) (rest : List Lexeme) : List Lexeme :=
  names.foldr (fun id rest => .onLine (.sign ",") line :: .onLine (.name id) line :: rest)
    (.onLine (.sign ")") line :: rest)

theorem kindOf_nameTail (line : Nat) (names : List String) (rest : List Lexeme) :
    kindOf (nameTail line names rest) = .sign "," ∨ kindOf (nameTail line names rest) = .sign ")" := by
  cases names with
  | nil => exact .inr rfl
  | cons id names => exact .inl rfl

theorem missingDefault?_plainDraft (line : Nat) (names : List String) :
    (plainDraft line names).missingDefault? = none := by
  have dropped : (plainDraft line names).defaults.dropWhile (fun p => !p.1) = [] := by
    refine dropWhile_eq_nil_iff.2 fun p member => ?_
    obtain ⟨-, -, rfl⟩ := mem_map.1 member
    rfl
  unfold ParamDraft.missingDefault?
  rw [dropped]
  rfl

theorem duplicate?_plain {seen names : List String} (line : Nat) (distinct : (seen ++ names).Nodup) :
    ParamDraft.duplicate? seen (names.map (·, line)) = none := by
  induction names generalizing seen with
  | nil => rfl
  | cons id names ih =>
    have fresh : ¬ seen.contains id = true := fun there =>
      (nodup_append.1 distinct).2.2 id (contains_iff_mem.1 there) id mem_cons_self rfl
    rw [map_cons, ParamDraft.duplicate?, if_neg fresh]
    exact ih (perm_middle.nodup_iff.1 distinct)

theorem parameters_names (test unpacked : Parsing Expr) (line : Nat) (id : String)
    (names : List String) (rest : List Lexeme) :
    parameters test unpacked true ")" (.onLine (.name id) line :: nameTail line names rest) =
      .ok (plainDraft line (id :: names), .onLine (.sign ")") line :: rest) := by
  have loops : ∀ done : List String, Loops (fun draft : ParamDraft × Bool => do
      if draft.2 then return none
      else if ← acceptSign "," then
        if draft.1.takes (← peek) then return some (← parameter test unpacked true draft.1, false)
        else return some (draft.1, true)
      else return none) (plainDraft line done, false) (nameTail line names rest)
        (plainDraft line (done ++ names), false) (.onLine (.sign ")") line :: rest) := by
    induction names with
    | nil =>
      intro done
      rw [append_nil]
      exact .stop rfl
    | cons id names ih =>
      intro done
      refine .more (b := (plainDraft line (done ++ [id]), false)) ?_
        (?_ : (nameTail line names rest).length < _) ?_
      · refine (bind_eq (@accept_of_eq _ (nameTail line (id :: names) rest) rfl)).trans ?_
        refine (bind_eq (peek_eq _)).trans ?_
        refine (bind_eq (parameter_name done (kindOf_nameTail line names rest))).trans ?_
        rfl
      · exact Nat.lt_add_of_pos_right (k := 2) (by decide)
      · have shape : done ++ id :: names = (done ++ [id]) ++ names := by simp
        rw [shape]
        exact ih _
  unfold parameters
  rw [bind_eq (@atSign_of_ne (.onLine (.name id) line :: nameTail line names rest) _ (by rintro ⟨⟩))]
  refine (bind_eq (parameter_name [] (kindOf_nameTail line names rest))).trans ?_
  refine (bind_eq (repeating_of_loops (loops [id]))).trans ?_
  refine (bind_eq (@atSign_of_eq (.onLine (.sign ")") line :: rest) _ rfl)).trans ?_
  rw [missingDefault?_plainDraft]
  rfl

theorem parameters_none (test unpacked : Parsing Expr) (line : Nat) (rest : List Lexeme) :
    parameters test unpacked true ")" (.onLine (.sign ")") line :: rest) =
      .ok (plainDraft line [], .onLine (.sign ")") line :: rest) :=
  rfl

/-! ## Functions -/

theorem statements_def {line : Nat} {id : String} {names : List String} {ss : List Stmt}
    (distinct : names.Nodup)
    (read : parameters n.test (testOrStar n) true ")" ls =
      .ok (plainDraft line names, .onLine (.sign ")") line :: .onLine (.sign ":") line :: ls'))
    (block : suite ls' = .ok (ss, rest)) :
    statements n depth suite (.onLine (.word "def") line :: .onLine (.name id) line ::
      .onLine (.sign "(") line :: ls) =
      .ok ([.funcDef id (plainParams names) false false ss line], rest) := by
  have func : funcStatement n suite false line (.onLine (.word "def") line ::
      .onLine (.name id) line :: .onLine (.sign "(") line :: ls) =
      .ok (.funcDef id (plainParams names) false false ss line, rest) := by
    have checked : checkDuplicates followsParameters (plainDraft line names)
        (.onLine (.sign ":") line :: ls') = .ok ((), .onLine (.sign ":") line :: ls') := by
      have none : ParamDraft.duplicate? [] (plainDraft line names).names = none :=
        duplicate?_plain line distinct
      unfold checkDuplicates
      rw [none]
      rfl
    unfold funcStatement returnType
    refine (bind_eq (@expect_of_eq (.word "def") _ rfl)).trans ?_
    refine (bind_eq (identifier_name id line line _)).trans ?_
    have plain : typeParameters n (.onLine (.sign "(") line :: ls) =
        .ok ((), .onLine (.sign "(") line :: ls) :=
      bind_eq (@accept_of_ne (.sign "[") (.onLine (.sign "(") line :: ls)
        (by change Kind.sign "(" ≠ _; decide))
    refine (bind_eq plain).trans ?_
    refine (bind_eq (@expect_of_eq (.sign "(") _ rfl)).trans ?_
    refine (bind_eq read).trans ?_
    refine (bind_eq (@expect_of_eq (.sign ")") _ rfl)).trans ?_
    refine (bind_eq checked).trans ?_
    have untyped : (do
        if ← acceptSign "->" then
          let _ ← n.test
          return true
        return false : Parsing Bool) (.onLine (.sign ":") line :: ls') =
        .ok (false, .onLine (.sign ":") line :: ls') :=
      bind_eq (@accept_of_ne (.sign "->") (.onLine (.sign ":") line :: ls')
        (by change Kind.sign ":" ≠ _; decide))
    refine (bind_eq untyped).trans ?_
    rw [bind_eq (body_of_suite rfl block)]
    rfl
  unfold statements
  rw [bind_eq (here_eq _), bind_eq (peek_eq _)]
  exact bind_eq func

/-! ## Suites -/

/-- Whether a lexeme is at the start of a row. -/
def opensRow : Kind → Bool
  | .newline | .indent | .dedent | .eof | .fault => false
  | _ => true

theorem Parsing.Many.mono {α : Type} {continues continues' : Kind → Bool} {p q : Parsing α}
    {as : List α} (many : Many continues p ls as rest)
    (starts : ∀ k, continues k = true → continues' k = true)
    (same : ∀ ls, continues (kindOf ls) = true → p ls = q ls) : Many continues' q ls as rest := by
  induction many with
  | nil ls => exact .nil ls
  | @cons a as ls ls' rest here read shorter later ih =>
    exact .cons (starts _ here) ((same ls here).symm.trans read) shorter ih

theorem suiteAround_of_many {newline indent dedent : Lexeme} {first : List Stmt}
    {others : List (List Stmt)} (ended : newline.kind = .newline) (deeper : indent.kind = .indent)
    (many : Many opensRow (statements n depth suite) ls (first :: others) (dedent :: rest))
    (closed : dedent.kind = .dedent) :
    suiteAround n depth suite (newline :: indent :: ls) = .ok ((first :: others).flatten, rest) := by
  cases many with
  | @cons _ _ _ ls' _ starts read shorter later =>
    have others : Many (· ≠ .dedent) (statements n depth suite) ls' others (dedent :: rest) := by
      refine later.mono (fun k opens => ?_) fun _ _ => rfl
      refine decide_eq_true ?_
      rintro rfl
      cases opens
    unfold suiteAround
    rw [bind_eq (@accept_of_eq _ (newline :: indent :: ls) ended), if_pos rfl]
    refine (bind_eq (@expect_of_eq _ (indent :: ls) deeper)).trans ?_
    rw [tail_cons, bind_eq read, bind_eq (whileKind_of_many others ?_),
      bind_eq (@expect_of_eq _ (dedent :: rest) closed)]
    · rfl
    · exact decide_eq_false (not_not.2 closed)

theorem moduleOfDepth_of_many {fuel : Nat} {all : List (List Stmt)}
    (many : Many opensRow (statements (nested fuel) fuel (suiteOfDepth (nested fuel) fuel)) ls all rest)
    (ended : kindOf rest = .eof) : moduleOfDepth fuel ls = .ok (all.flatten, rest) := by
  unfold moduleOfDepth
  refine (bind_eq (whileKind_of_many (many.mono (fun k opens => ?_) fun ls starts => ?_) ?_)).trans ?_
  · refine decide_eq_true ?_
    rintro rfl
    cases opens
  · have other : kindOf ls ≠ .newline := by
      intro same
      rw [same] at starts
      cases starts
    rw [bind_eq (accept_of_ne other)]
    rfl
  · rw [ended]
    rfl
  · rfl

theorem parseModule_of_module {source : String} {ss : List Stmt}
    (read : (moduleOfDepth (source.length + 1)).run (lexemes source.toList) = .ok (ss, rest)) :
    parseModule source = .ok ss := by
  unfold parseModule
  split
  · next same =>
    cases same.symm.trans read
    rfl
  · next same => cases same.symm.trans read

end SlotLang.Reader
