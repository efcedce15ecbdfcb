import Mathlib.Data.List.Chain
import Mathlib.Tactic.IntervalCases
import SlotLang.Proofs.Numerals
import SlotLang.Reader.Scan

/-!
# What a scan finds on a line

Lines are described by the pieces they are made of: words, numbers, signs and single blanks. Pieces
that do not run into each other are found again by the scan, one by one.
-/

open List

namespace SlotLang.Reader

/-! ## Scans that lead on -/

theorem lastLine_append (start : Nat) (xs ys : List Lexeme) :
    lastLine start (xs ++ ys) = lastLine (lastLine start xs) ys := by
  unfold lastLine
  rw [getLast?_append]
  cases ys.getLast? <;> rfl

namespace Scan

variable {s t u : Scan} {xs ys : List Lexeme}

/-- A scan finds lexemes on the way to another scan, and takes no more steps than there are
characters on that way. -/
def Leads (s : Scan) (xs : List Lexeme) (t : Scan) : Prop :=
  ∃ n, n + t.cursor.rest.length ≤ s.cursor.rest.length ∧
    ∀ fuel last, run (n + fuel) last s = xs ++ run fuel (lastLine last xs) t

namespace Leads

theorem refl (s : Scan) : s.Leads [] s :=
  ⟨0, by omega, fun fuel last => by rw [Nat.zero_add]; rfl⟩

theorem trans (first : s.Leads xs t) (second : t.Leads ys u) : s.Leads (xs ++ ys) u := by
  obtain ⟨n, fewer, first⟩ := first
  obtain ⟨k, fewer', second⟩ := second
  refine ⟨n + k, by omega, fun fuel last => ?_⟩
  rw [Nat.add_assoc, first, second, append_assoc, lastLine_append]

theorem step (found : s.step = .found xs t)
    (shorter : t.cursor.rest.length < s.cursor.rest.length) : s.Leads xs t := by
  refine ⟨1, by omega, fun fuel last => ?_⟩
  rw [Nat.add_comm, run, found]

/-- With enough fuel for the first scan there is enough for the second. -/
theorem run_eq (leads : s.Leads xs t) {fuel : Nat} (enough : s.cursor.rest.length < fuel)
    (last : Nat) :
    ∃ fuel', t.cursor.rest.length < fuel' ∧
      run fuel last s = xs ++ run fuel' (lastLine last xs) t := by
  obtain ⟨n, fewer, leads⟩ := leads
  obtain ⟨more, rfl⟩ := Nat.exists_eq_add_of_le (show n ≤ fuel by omega)
  exact ⟨more, by omega, leads more last⟩

end Leads

def within (cs : List Char) (line nesting : Nat) (levels : List Indentation) : Scan :=
  ⟨⟨cs, line⟩, false, nesting, levels⟩

end Scan

/-! ## Pieces -/

/-- What stands on a line. -/
inductive Piece where
  | word (text : String)
  | number (n : Nat)
  | sign (text : String)
  /-- A single blank. -/
  | gap
  deriving DecidableEq, Repr

namespace Piece

variable {c : Char} {n nesting' : Nat} {p : Piece} {ps : List Piece} {rest : List Char}
  {text : String}

/-- Brackets and commas, which are never the start of another sign. -/
def lonelySigns : List String :=
  ["(", ")", ","]

/-- The signs that pieces can be. -/
def knownSigns : List String :=
  lonelySigns ++ [":", "=", "+", "-", "*", "<", ">", "==", "!="]

def chars : Piece → List Char
  | word text => text.toList
  | number n => digits n
  | sign text => text.toList
  | gap => [' ']

/-- The lexeme of a piece; a blank has none. -/
def kinds : Piece → List Kind
  | word text => [if reservedWords.contains text then .word text else .name text]
  | number n => [.int n]
  | sign text => [.sign text]
  | gap => []

def isValid : Piece → Bool
  | word text =>
    match text.toList with
    | a :: b :: rest => Text.isIdentStart a && (a :: b :: rest).all Text.isIdentRest
    | _ => false
  | number _ | gap => true
  | sign text => knownSigns.contains text

/-- The nesting behind a piece, unless a bracket closes that was not opened. -/
def nesting? (nesting : Nat) : Piece → Option Nat
  | sign text =>
    if openers.contains text then some (nesting + 1)
    else if closers.contains text then if nesting = 0 then none else some (nesting - 1)
    else some nesting
  | _ => some nesting

def isSign : Piece → Bool
  | sign _ => true
  | _ => false

def isGap : Piece → Bool
  | gap => true
  | _ => false

/-- Whether a piece can follow another one without running into it. -/
def fits : Piece → Piece → Bool
  | word _, q | number _, q => q.isGap || q.isSign
  | sign text, q => lonelySigns.contains text || !q.isSign
  | gap, q => !q.isGap

/-- Characters that end words and numbers. -/
def edges : List Char :=
  [' ', '(', ')', ',', ':', '=', '+', '-', '*', '<', '>', '!', '\n']

/-- Characters that make another sign of a sign. -/
def growths : List Char :=
  ['=', '<', '>', '*', '/', '.']

def endsAt (p : Piece) : List Char → Bool
  | [] => true
  | c :: _ =>
    match p with
    | word _ | number _ => edges.contains c
    | sign text => lonelySigns.contains text || !growths.contains c
    | gap => !isInnerBlank c

/-! ### Characters -/

theorem mem_of_isDigit (digit : c.isDigit = true) :
    c ∈ ['0', '1', '2', '3', '4', '5', '6', '7', '8', '9'] := by
  simp only [Char.isDigit, ge_iff_le, Bool.and_eq_true, decide_eq_true_eq,
    UInt32.le_iff_toNat_le] at digit
  change 48 ≤ c.toNat ∧ c.toNat ≤ 57 at digit
  obtain ⟨low, high⟩ := digit
  rw [← Char.ofNat_toNat c]
  generalize c.toNat = n at low high
  interval_cases n <;> decide

theorem digit_induction {P : Char → Prop} (digit : c.isDigit = true)
    (all : P '0' ∧ P '1' ∧ P '2' ∧ P '3' ∧ P '4' ∧ P '5' ∧ P '6' ∧ P '7' ∧ P '8' ∧ P '9') :
    P c := by
  have member := mem_of_isDigit digit
  simp only [mem_cons, not_mem_nil, or_false] at member
  obtain ⟨h0, h1, h2, h3, h4, h5, h6, h7, h8, h9⟩ := all
  rcases member with rfl | rfl | rfl | rfl | rfl | rfl | rfl | rfl | rfl | rfl <;> assumption

theorem edge_induction {P : Char → Prop} (edge : edges.contains c = true)
    (all : P ' ' ∧ P '(' ∧ P ')' ∧ P ',' ∧ P ':' ∧ P '=' ∧ P '+' ∧ P '-' ∧ P '*' ∧ P '<' ∧ P '>' ∧
      P '!' ∧ P '\n') : P c := by
  have member : c ∈ edges := contains_iff_mem.1 edge
  simp only [edges, mem_cons, not_mem_nil, or_false] at member
  obtain ⟨h0, h1, h2, h3, h4, h5, h6, h7, h8, h9, h10, h11, h12⟩ := all
  rcases member with rfl | rfl | rfl | rfl | rfl | rfl | rfl | rfl | rfl | rfl | rfl | rfl | rfl <;>
    assumption

theorem isQuote_of_isIdentRest (inside : Text.isIdentRest c = true) : isQuote c = false := by
  by_contra quote
  rw [Bool.not_eq_false, isQuote, Bool.or_eq_true, beq_iff_eq, beq_iff_eq] at quote
  rcases quote with rfl | rfl <;> exact absurd inside (by decide)

/-- Edges stand neither in words nor in numbers nor in front of strings. -/
theorem outside_of_edge (edge : edges.contains c = true) :
    Text.isIdentRest c = false ∧ isQuote c = false ∧ digitOf? 10 c = none ∧ c ≠ '_' :=
  edge_induction edge (P := fun c => Text.isIdentRest c = false ∧ isQuote c = false ∧
    digitOf? 10 c = none ∧ c ≠ '_') (by decide)

theorem edge_of_endsAt_word (ends : (word text).endsAt (c :: rest) = true) :
    edges.contains c = true :=
  ends

/-! ### Words -/

theorem isValid_word (valid : (word text).isValid = true) :
    ∃ a b rest, text.toList = a :: b :: rest ∧ Text.isIdentStart a = true ∧
      (a :: b :: rest).all Text.isIdentRest = true := by
  change (match text.toList with
    | a :: b :: rest => Text.isIdentStart a && (a :: b :: rest).all Text.isIdentRest
    | _ => false) = true at valid
  split at valid
  · next a b rest shape => exact ⟨a, b, rest, shape, (Bool.and_eq_true _ _ ▸ valid)⟩
  · cases valid

variable {after : List Char} {line nesting : Nat} {levels : List Indentation}

theorem stringStart?_word {a b : Char} (inside : (a :: b :: rest).all Text.isIdentRest = true)
    (ends : (word text).endsAt after = true) : stringStart? (a :: b :: (rest ++ after)) = none := by
  simp only [all_cons, Bool.and_eq_true] at inside
  have first := isQuote_of_isIdentRest inside.1
  have second := isQuote_of_isIdentRest inside.2.1
  cases rest with
  | nil =>
    cases after with
    | nil => simp [stringStart?, first, second]
    | cons c after =>
      have third := (outside_of_edge (edge_of_endsAt_word ends)).2.1
      simp [stringStart?, first, second, third]
  | cons d rest =>
    have third := isQuote_of_isIdentRest (all_eq_true.1 inside.2.2 d mem_cons_self)
    simp [stringStart?, first, second, third]

theorem span_word {word' : List Char} (inside : ∀ d ∈ word', Text.isIdentRest d = true)
    (ends : (word text).endsAt after = true) : (word' ++ after).takeWhile Text.isIdentRest = word' ∧
      (word' ++ after).dropWhile Text.isIdentRest = after := by
  rw [takeWhile_append_of_pos inside, dropWhile_append_of_pos inside]
  cases after with
  | nil => simp
  | cons c after =>
    have outside := (outside_of_edge (edge_of_endsAt_word ends)).1
    rw [takeWhile_cons_of_neg (by simp [outside]), dropWhile_cons_of_neg (by simp [outside]),
      append_nil]
    exact ⟨rfl, rfl⟩

theorem readNext_word (valid : (word text).isValid = true) (ends : (word text).endsAt after = true) :
    (Scan.within (text.toList ++ after) line nesting levels).readNext =
      .found [.onLine (if reservedWords.contains text then .word text else .name text) line]
        (Scan.within after line nesting levels) := by
  obtain ⟨a, b, rest, shape, start, inside⟩ := isValid_word valid
  obtain ⟨taken, dropped⟩ := span_word (all_eq_true.1 inside) ends
  rw [shape]
  unfold Scan.readNext Scan.within
  dsimp only [cons_append]
  rw [start, Bool.true_or, if_pos rfl, stringStart?_word inside ends]
  dsimp only
  rw [if_pos rfl]
  unfold Scan.readName
  dsimp only
  rw [cons_append, cons_append] at taken dropped
  rw [taken.trans shape.symm, dropped, String.ofList_toList]
  rfl

/-! ### Numbers -/

theorem class_of_isDigit (digit : c.isDigit = true) :
    Text.isIdentStart c = false ∧ Text.isIdentRest c = true ∧ Text.isPicture c = false ∧
      isQuote c = false ∧ digitOf? 10 c = some (c.toNat - '0'.toNat) :=
  digit_induction digit (P := fun c => Text.isIdentStart c = false ∧ Text.isIdentRest c = true ∧
    Text.isPicture c = false ∧ isQuote c = false ∧ digitOf? 10 c = some (c.toNat - '0'.toNat))
    (by decide)

theorem digitRun_append {ds : List Char} (run : ∀ d ∈ ds, d.isDigit = true)
    (ends : (number n).endsAt after = true) (count value : Nat) :
    digitRun 10 count value (ds ++ after) =
      (count + ds.length, Nat.ofDigitChars 10 ds value, after) := by
  induction ds generalizing count value with
  | nil =>
    cases after with
    | nil => rfl
    | cons c after =>
      obtain ⟨-, -, none, other⟩ := outside_of_edge ends
      rw [nil_append, digitRun, none]
      · rfl
      · exact fun _ _ same _ => other same
  | cons d ds ih =>
    have digit := run d mem_cons_self
    have later : ∀ e ∈ ds, e.isDigit = true := fun e there => run e (mem_cons_of_mem _ there)
    rw [cons_append, digitRun, (class_of_isDigit digit).2.2.2.2]
    · dsimp only
      rw [ih later, length_cons, Nat.add_assoc, Nat.add_comm 1]
      rfl
    · rintro _ _ rfl _
      exact absurd digit (by decide)

theorem not_mark_of_edge (edge : edges.contains c = true) :
    c ∉ ['.', 'e', 'E', 'j', 'J', 'x', 'X', 'o', 'O', 'b', 'B'] :=
  edge_induction edge (P := fun c => c ∉ ['.', 'e', 'E', 'j', 'J', 'x', 'X', 'o', 'O', 'b', 'B'])
    (by decide)

theorem plain_of_endsAt (ends : (number n).endsAt after = true) (kind : Kind) :
    after.head? ≠ some '.' ∧ atExponent after = false ∧ withUnit kind after = (kind, after) := by
  cases after with
  | nil => exact ⟨nofun, rfl, rfl⟩
  | cons c after =>
    have noMark := not_mark_of_edge ends
    simp only [mem_cons, not_mem_nil, or_false, not_or] at noMark
    obtain ⟨noPoint, noExp, noExp', noUnit, noUnit', -⟩ := noMark
    refine ⟨by simpa using noPoint, ?_, ?_⟩
    · unfold atExponent
      split <;> simp_all
    · unfold withUnit
      split
      · next same => cases same; exact absurd rfl noUnit
      · next same => cases same; exact absurd rfl noUnit'
      · rfl

theorem eq_zero_of_head?_digits (first : (digits n).head? = some '0') : n = 0 := by
  rw [digits_eq] at first
  induction n using Nat.strongRecOn with
  | ind n ih =>
    by_cases small : n < 10
    · rw [Nat.toDigits_of_lt_base small] at first
      interval_cases n <;> simp_all [Nat.digitChar]
    · have large : 10 ≤ n := Nat.le_of_not_lt small
      rw [Nat.toDigits_of_base_le (by decide) large,
        head?_append_of_ne_nil _ Nat.toDigits_ne_nil] at first
      have shorter := ih (n / 10) (by omega) first
      omega

theorem decimalNumber?_digits (ends : (number n).endsAt after = true) :
    decimalNumber? (digits n ++ after) = some (.int n, after) := by
  have run : ∀ d ∈ digits n, d.isDigit = true := fun d => isDigit_of_mem_digits
  have value : Nat.ofDigitChars 10 (digits n) 0 = n := digitsValue_digits n
  obtain ⟨noPoint, noExponent, plain⟩ := plain_of_endsAt ends (.int n)
  have noZero : ¬((digits n ++ after).head? == some '0' && n != 0) = true := by
    rw [head?_append_of_ne_nil _ (digits_ne_nil n), Bool.and_eq_true, beq_iff_eq, bne_iff_ne]
    exact fun ⟨first, nonzero⟩ => nonzero (eq_zero_of_head?_digits first)
  unfold decimalNumber?
  rw [digitRun_append run ends, value]
  dsimp only
  rw [if_neg (by simp [noPoint, noExponent]), plain]
  dsimp only
  rw [if_neg noZero]

/-- Letters that name a base behind a zero. -/
def baseLetters : List Char :=
  ['x', 'X', 'o', 'O', 'b', 'B']

theorem not_baseLetter_of_isDigit (digit : c.isDigit = true) : c ∉ baseLetters :=
  digit_induction digit (P := (· ∉ baseLetters)) (by decide)

/-- What stands behind the first digit of a number names no base. -/
theorem second_not_baseLetter (ends : (number n).endsAt after = true) {d : Char}
    (shape : digits n ++ after = '0' :: d :: rest) : d ∉ baseLetters := by
  match run : digits n with
  | [] => exact absurd run (digits_ne_nil n)
  | [x] =>
    rw [run] at shape
    obtain rfl : after = d :: rest := (List.cons.inj shape).2
    have noMark := not_mark_of_edge ends
    simp only [baseLetters, mem_cons, not_mem_nil, or_false, not_or] at noMark ⊢
    exact noMark.2.2.2.2.2
  | x :: y :: more =>
    rw [run] at shape
    cases shape
    exact not_baseLetter_of_isDigit (isDigit_of_mem_digits (n := n) (by simp [run]))

theorem number?_digits (ends : (number n).endsAt after = true) :
    number? (digits n ++ after) = some (.int n, after) := by
  unfold number?
  split
  case h_7 => exact decimalNumber?_digits ends
  all_goals
    next shape => exact absurd (by decide) (second_not_baseLetter ends shape)

theorem readNext_number (ends : (number n).endsAt after = true) :
    (Scan.within (digits n ++ after) line nesting levels).readNext =
      .found [.onLine (.int n) line] (Scan.within after line nesting levels) := by
  have found : number? (digits n ++ after) = _ := number?_digits ends
  cases run : digits n with
  | nil => exact absurd run (digits_ne_nil n)
  | cons d rest =>
    have digit : d.isDigit = true := isDigit_of_mem_digits (n := n) (by simp [run])
    obtain ⟨noStart, -, noPicture, noQuote, -⟩ := class_of_isDigit digit
    rw [run, cons_append] at found
    unfold Scan.readNext Scan.within
    dsimp only [cons_append]
    rw [noStart, noQuote, Bool.or_false, if_neg Bool.false_ne_true]
    dsimp only
    rw [if_neg Bool.false_ne_true, noPicture, if_neg Bool.false_ne_true, digit, Bool.true_or,
      if_pos rfl]
    unfold Scan.readNumber
    dsimp only
    rw [found]
    rfl

/-! ### Signs and blanks -/

/-- A sign is found if it does not run into what follows. -/
theorem find?_sign (valid : (sign text).isValid = true) (ends : (sign text).endsAt after = true) :
    signs.find? (fun sign => sign.toList.isPrefixOf (text.toList ++ after)) = some text := by
  have known : text ∈ knownSigns := contains_iff_mem.1 valid
  by_cases lonely : text ∈ lonelySigns
  · simp only [lonelySigns, mem_cons, not_mem_nil, or_false] at lonely
    rcases lonely with rfl | rfl | rfl <;> simp [signs]
  · rw [knownSigns, mem_append] at known
    have known := known.resolve_left lonely
    simp only [mem_cons, not_mem_nil, or_false] at known
    cases after with
    | nil =>
      rcases known with rfl | rfl | rfl | rfl | rfl | rfl | rfl | rfl | rfl <;> simp [signs]
    | cons c after =>
      have plain : growths.contains c = false := by
        rw [endsAt, Bool.or_eq_true, contains_iff_mem] at ends
        exact Bool.not_eq_true' _ ▸ ends.resolve_left lonely
      have other : '=' ≠ c ∧ '<' ≠ c ∧ '>' ≠ c ∧ '*' ≠ c ∧ '/' ≠ c := by
        refine ⟨?_, ?_, ?_, ?_, ?_⟩ <;> rintro rfl <;> exact absurd plain (by decide)
      rcases known with rfl | rfl | rfl | rfl | rfl | rfl | rfl | rfl | rfl <;> simp [signs, other]

/-- The first character of a sign starts nothing else. -/
theorem first_of_sign (known : text ∈ knownSigns) : ∃ f rest, text.toList = f :: rest ∧
    Text.isIdentStart f = false ∧ isQuote f = false ∧ Text.isPicture f = false ∧
    f.isDigit = false ∧ (f == '.') = false ∧ (f == '#') = false ∧ isInnerBlank f = false ∧
    isLineEnd f = false ∧ (f == '\\') = false ∧ edges.contains f = true := by
  simp only [knownSigns, lonelySigns, cons_append, nil_append, mem_cons,
    not_mem_nil, or_false] at known
  rcases known with rfl | rfl | rfl | rfl | rfl | rfl | rfl | rfl | rfl | rfl | rfl | rfl <;>
    exact ⟨_, _, rfl, by decide⟩

theorem readNext_eq_readSign (valid : (sign text).isValid = true) :
    (Scan.within (text.toList ++ after) line nesting levels).readNext =
      (Scan.within (text.toList ++ after) line nesting levels).readSign (text.toList ++ after) := by
  obtain ⟨f, rest, shape, noStart, noQuote, noPicture, noDigit, noPoint, noComment, noBlank, noEnd,
    noContinuation, -⟩ := first_of_sign (contains_iff_mem.1 valid)
  rw [shape]
  unfold Scan.readNext Scan.within
  dsimp only [cons_append]
  simp only [noStart, noQuote, noPicture, noDigit, noPoint, noComment, noBlank, noEnd,
    noContinuation, Bool.or_false, Bool.false_and, Bool.false_eq_true, if_false]

theorem readNext_sign (valid : (sign text).isValid = true) (ends : (sign text).endsAt after = true)
    (nested : (sign text).nesting? nesting = some nesting') :
    (Scan.within (text.toList ++ after) line nesting levels).readNext =
      .found [.onLine (.sign text) line] (Scan.within after line nesting' levels) := by
  have dropped : (text.toList ++ after).drop text.length = after := by
    rw [← String.length_toList, drop_left]
  rw [readNext_eq_readSign valid]
  unfold Scan.readSign
  rw [find?_sign valid ends]
  dsimp only
  rw [dropped]
  change (if openers.contains text then some (nesting + 1)
    else if closers.contains text then if nesting = 0 then none else some (nesting - 1)
    else some nesting) = some nesting' at nested
  by_cases opener : openers.contains text = true
  · rw [if_pos opener] at nested ⊢
    cases nested
    rfl
  · rw [if_neg opener] at nested ⊢
    by_cases closer : closers.contains text = true
    · rw [if_pos closer] at nested ⊢
      by_cases outermost : nesting = 0
      · rw [if_pos outermost] at nested
        cases nested
      · rw [if_neg outermost] at nested
        cases nested
        exact if_neg outermost
    · rw [if_neg closer] at nested ⊢
      cases nested
      rfl

theorem readNext_gap (ends : gap.endsAt after = true) :
    (Scan.within (' ' :: after) line nesting levels).readNext =
      .found [] (Scan.within after line nesting levels) := by
  have dropped : after.dropWhile isInnerBlank = after := by
    cases after with
    | nil => rfl
    | cons c after => exact dropWhile_cons_of_neg (by simpa [endsAt] using ends)
  change Scan.skip _ (Cursor.skipTo _ (after.dropWhile isInnerBlank)) = _
  rw [dropped]
  rfl

theorem readNext_piece (line : Nat) (levels : List Indentation) (valid : p.isValid = true)
    (ends : p.endsAt after = true) (nested : p.nesting? nesting = some nesting') :
    (Scan.within (p.chars ++ after) line nesting levels).readNext =
      .found (p.kinds.map (.onLine · line)) (Scan.within after line nesting' levels) := by
  cases p with
  | word text =>
    cases nested
    exact readNext_word valid ends
  | number n =>
    cases nested
    exact readNext_number ends
  | sign text => exact readNext_sign valid ends nested
  | gap =>
    cases nested
    exact readNext_gap ends

/-! ## Lines of pieces -/

/-- The characters of some pieces. -/
def spell (ps : List Piece) : List Char :=
  ps.flatMap chars

def lexemes (line : Nat) (ps : List Piece) : List Lexeme :=
  (ps.flatMap kinds).map (.onLine · line)

/-- The nesting behind some pieces. -/
def nestingAfter (nesting : Nat) (ps : List Piece) : Option Nat :=
  ps.foldlM nesting? nesting

/-- Pieces that can be found again. -/
structure Sound (ps : List Piece) : Prop where
  valid : ∀ p ∈ ps, p.isValid = true
  apart : ps.IsChain fun p q => p.fits q = true

/-- The end of a line: the next line or the end of the text. -/
def AtEnd (after : List Char) : Prop :=
  after = [] ∨ ∃ rest, after = '\n' :: rest

theorem endsAt_of_atEnd (p : Piece) (ended : AtEnd after) : p.endsAt after = true := by
  rcases ended with rfl | ⟨rest, rfl⟩
  · rfl
  · cases p with
    | word text | number n | gap => rfl
    | sign text => exact Bool.or_eq_true_iff.2 (.inr rfl)

theorem growths_of_isIdentStart (start : Text.isIdentStart c = true) :
    growths.contains c = false ∧ isInnerBlank c = false := by
  refine ⟨Bool.eq_false_iff.2 fun growth => ?_, Bool.eq_false_iff.2 fun blank => ?_⟩
  · have member : c ∈ growths := contains_iff_mem.1 growth
    simp only [growths, mem_cons, not_mem_nil, or_false] at member
    rcases member with rfl | rfl | rfl | rfl | rfl | rfl <;> exact absurd start (by decide)
  · simp only [isInnerBlank, Bool.or_eq_true, beq_iff_eq] at blank
    rcases blank with (rfl | rfl) | rfl <;> exact absurd start (by decide)

theorem endsAt_of_fits {q : Piece} (valid : q.isValid = true) (apart : p.fits q = true) :
    p.endsAt (q.chars ++ after) = true := by
  cases q with
  | word text =>
    obtain ⟨a, b, rest, shape, start, -⟩ := isValid_word valid
    obtain ⟨noGrowth, noBlank⟩ := growths_of_isIdentStart start
    change p.endsAt (text.toList ++ after) = true
    rw [shape]
    cases p with
    | word _ | number _ => cases apart
    | sign _ => exact Bool.or_eq_true_iff.2 (.inr (by rw [noGrowth]; rfl))
    | gap => exact Bool.not_eq_true' _ ▸ noBlank
  | number n =>
    change p.endsAt (digits n ++ after) = true
    match run : digits n with
    | [] => exact absurd run (digits_ne_nil n)
    | d :: rest =>
      have digit : d.isDigit = true := isDigit_of_mem_digits (n := n) (by simp [run])
      have class_ : growths.contains d = false ∧ isInnerBlank d = false :=
        digit_induction digit (P := fun d => growths.contains d = false ∧ isInnerBlank d = false)
          (by decide)
      cases p with
      | word _ | number _ => cases apart
      | sign _ => exact Bool.or_eq_true_iff.2 (.inr (by rw [class_.1]; rfl))
      | gap => exact Bool.not_eq_true' _ ▸ class_.2
  | sign text =>
    obtain ⟨f, rest, shape, -, -, -, -, -, -, noBlank, -, -, edge⟩ :=
      first_of_sign (contains_iff_mem.1 valid)
    change p.endsAt (text.toList ++ after) = true
    rw [shape]
    cases p with
    | word _ | number _ => exact edge
    | sign t =>
      have lonely : lonelySigns.contains t = true := by simpa [fits, isSign] using apart
      exact Bool.or_eq_true_iff.2 (.inl lonely)
    | gap => exact Bool.not_eq_true' _ ▸ noBlank
  | gap =>
    cases p with
    | word _ | number _ => rfl
    | sign _ => exact Bool.or_eq_true_iff.2 (.inr rfl)
    | gap => cases apart

theorem chars_ne_nil (valid : p.isValid = true) : p.chars ≠ [] := by
  cases p with
  | word text =>
    obtain ⟨a, b, rest, shape, -⟩ := isValid_word valid
    exact fun empty => by cases shape.symm.trans empty
  | number n => exact digits_ne_nil n
  | sign text =>
    obtain ⟨f, rest, shape, -⟩ := first_of_sign (contains_iff_mem.1 valid)
    exact fun empty => by cases shape.symm.trans empty
  | gap => exact cons_ne_nil _ _

theorem Sound.tail (sound : Sound (p :: ps)) : Sound ps :=
  ⟨fun q member => sound.valid q (mem_cons_of_mem _ member), sound.apart.tail⟩

/-- The first piece of a line ends before the next one. -/
theorem Sound.endsAt (sound : Sound (p :: ps)) (ended : AtEnd after) :
    p.endsAt (spell ps ++ after) = true := by
  cases ps with
  | nil => exact endsAt_of_atEnd p ended
  | cons q ps =>
    rw [spell, flatMap_cons, append_assoc]
    exact endsAt_of_fits (sound.valid q (by simp)) (isChain_cons_cons.1 sound.apart).1

theorem leads_pieces (sound : Sound ps) (nested : nestingAfter nesting ps = some nesting')
    (ended : AtEnd after) :
    (Scan.within (spell ps ++ after) line nesting levels).Leads (lexemes line ps)
      (Scan.within after line nesting' levels) := by
  induction ps generalizing nesting with
  | nil =>
    cases nested
    exact .refl _
  | cons p ps ih =>
    obtain ⟨between, here, later⟩ := Option.bind_eq_some_iff.1 nested
    have valid := sound.valid p mem_cons_self
    have first : (Scan.within (p.chars ++ (spell ps ++ after)) line nesting levels).Leads
        (p.kinds.map (.onLine · line)) (Scan.within (spell ps ++ after) line between levels) := by
      refine .step (readNext_piece _ _ valid (sound.endsAt ended) here) ?_
      have nonempty := length_pos_iff.2 (chars_ne_nil valid)
      simp only [Scan.within, length_append]
      omega
    rw [spell, flatMap_cons, append_assoc, lexemes, flatMap_cons, map_append]
    exact first.trans (ih sound.tail later)

/-! ## Walking along a line -/

/-- What a piece leaves for the next one to start at. -/
inductive Edge where
  | value
  | lonely
  | sign
  | blank
  deriving DecidableEq, Repr

def edge : Piece → Edge
  | word _ | number _ => .value
  | sign text => if lonelySigns.contains text then .lonely else .sign
  | gap => .blank

/-- Whether a piece can start at an edge. -/
def Edge.takes : Edge → Piece → Bool
  | value, q => q.isGap || q.isSign
  | lonely, _ => true
  | sign, q => !q.isSign
  | blank, q => !q.isGap

theorem fits_eq_takes (p q : Piece) : p.fits q = p.edge.takes q := by
  cases p with
  | word _ | number _ | gap => rfl
  | sign text =>
    change (lonelySigns.contains text || !q.isSign) =
      (if lonelySigns.contains text then Edge.lonely else Edge.sign).takes q
    cases lonelySigns.contains text <;> rfl

/-- Words that are reserved in some places only. -/
def softWords : List String :=
  ["match", "case", "type"]

/-- Whether a piece is a word that is reserved in some places only. -/
def isSoft : Piece → Bool
  | word text => softWords.contains text
  | _ => false

/-- Goes along some pieces, as long as each one can be found: the edge and the nesting behind them. -/
def walk (e : Edge) (nesting : Nat) : List Piece → Option (Edge × Nat)
  | [] => some (e, nesting)
  | p :: ps =>
    if e.takes p && p.isValid && !p.isSoft then
      (p.nesting? nesting).bind fun nesting => walk p.edge nesting ps
    else none

theorem walk_cons {e e' : Edge} (walked : walk e nesting (p :: ps) = some (e', nesting')) :
    e.takes p = true ∧ p.isValid = true ∧ p.isSoft = false ∧
      ∃ between, p.nesting? nesting = some between ∧ walk p.edge between ps = some (e', nesting') := by
  rw [walk] at walked
  split at walked
  · next fine =>
    simp only [Bool.and_eq_true, Bool.not_eq_true'] at fine
    exact ⟨fine.1.1, fine.1.2, fine.2, Option.bind_eq_some_iff.1 walked⟩
  · cases walked

/-- Pieces along a walk. -/
structure Walked (ps : List Piece) : Prop extends Sound ps where
  hard : ∀ p ∈ ps, p.isSoft = false

theorem walked_of_walk {e e' : Edge} (walked : walk e nesting ps = some (e', nesting')) :
    Walked ps ∧ nestingAfter nesting ps = some nesting' := by
  induction ps generalizing e nesting with
  | nil =>
    cases walked
    exact ⟨⟨⟨nofun, .nil⟩, nofun⟩, rfl⟩
  | cons p ps ih =>
    obtain ⟨-, valid, hard, between, nested, later⟩ := walk_cons walked
    obtain ⟨rest, closed⟩ := ih later
    refine ⟨⟨⟨?_, ?_⟩, ?_⟩, ?_⟩
    · exact forall_mem_cons.2 ⟨valid, rest.valid⟩
    · cases ps with
      | nil => exact .singleton p
      | cons q ps =>
        exact .cons_cons ((fits_eq_takes p q).trans (walk_cons later).1) rest.apart
    · exact forall_mem_cons.2 ⟨hard, rest.hard⟩
    · exact Option.bind_eq_some_iff.2 ⟨between, nested, closed⟩

end Piece

end SlotLang.Reader
