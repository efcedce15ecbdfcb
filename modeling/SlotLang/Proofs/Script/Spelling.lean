import SlotLang.Proofs.Reader.Layout
import SlotLang.Proofs.Script.Scope

/-!
# How scripts are spelled

The lines of a script are described by the pieces they are made of, so that a scan of the text finds
them again. What is described is what a program can become: statements that raise an error stand for
instructions that no parsed program has, and have no description.
-/

open List

namespace SlotLang.Script

variable {o : Operand} {xs : List Stmt}

open Reader (Piece TextLine)

/-! ## Names with numbers -/

section Numbered

variable {text : String} {letter : Char} {n : Nat} (shape : text.toList = letter :: digits n)

include shape

theorem isValid_numbered (start : Text.isIdentStart letter = true)
    (inside : Text.isIdentRest letter = true) : (Piece.word text).isValid = true := by
  dsimp only [Piece.isValid]
  rw [shape]
  cases run : digits n with
  | nil => exact absurd run (digits_ne_nil n)
  | cons d rest =>
    have others : (d :: rest).all Text.isIdentRest = true := by
      rw [← run]
      exact all_eq_true.2 fun c member => (Piece.class_of_isDigit (isDigit_of_mem_digits member)).2.1
    change (Text.isIdentStart letter &&
      (Text.isIdentRest letter && (d :: rest).all Text.isIdentRest)) = true
    rw [others, start, inside]
    rfl

/-- No word without a digit in the second place is a letter with a number. -/
theorem contains_numbered (words : List String)
    (plain : words.all (fun w => !(w.toList.drop 1).head?.any Char.isDigit) = true) :
    words.contains text = false := by
  refine Bool.eq_false_iff.2 fun there => ?_
  have none := all_eq_true.1 plain text (contains_iff_mem.1 there)
  rw [shape] at none
  cases run : digits n with
  | nil => exact absurd run (digits_ne_nil n)
  | cons d rest =>
    have digit : d.isDigit = true := isDigit_of_mem_digits (n := n) (by simp [run])
    simp [run, digit] at none

end Numbered

theorem toList_slot (slot : o.isSlot = true) : o.text.toList = o.letter :: digits o.number.toNat :=
  Operand.toList_text slot

theorem isValid_slot (slot : o.isSlot = true) : (Piece.word o.text).isValid = true := by
  cases o with
  | lit v => cases slot
  | global n | var n | arg n => exact isValid_numbered (toList_slot slot) rfl rfl

/-- The name of a function. -/
def funcName (f : UInt32) : String :=
  "f" ++ toString f.toNat

theorem toList_funcName (f : UInt32) : (funcName f).toList = 'f' :: digits f.toNat := by
  simp [funcName, digits]

/-! ## Pieces -/

def operandPieces : Operand → List Piece
  | .lit v =>
    if v.toInt < 0 then [.sign "-", .number v.toInt.natAbs] else [.number v.toInt.natAbs]
  | o => [.word o.text]

/-- Pieces with commas between them. -/
def listed : List (List Piece) → List Piece
  | [] => []
  | [ps] => ps
  | ps :: rest => ps ++ .sign "," :: .gap :: listed rest

/-- A word with something in brackets behind it. -/
def applied (name : String) (inside : List Piece) : List Piece :=
  .word name :: .sign "(" :: (inside ++ [.sign ")"])

def between (a : Operand) (op : Piece) (b : Operand) : List Piece :=
  operandPieces a ++ .gap :: op :: .gap :: operandPieces b

def Term.pieces : Term → List Piece
  | operand o => operandPieces o
  | wrapped sign a b => applied "_wrap" (between a (.sign sign.toString) b)
  | quotient a b => applied "_div" (listed [operandPieces a, operandPieces b])
  | remainder a b => applied "_rem" (listed [operandPieces a, operandPieces b])
  | comparison sign a b => applied "int" (between a (.sign sign) b)
  | both a b =>
    applied "int" (between a (.sign "!=") (.lit 0) ++
      .gap :: .word "and" :: .gap :: between b (.sign "!=") (.lit 0))
  | either a b =>
    applied "int" (between a (.sign "!=") (.lit 0) ++
      .gap :: .word "or" :: .gap :: between b (.sign "!=") (.lit 0))
  | negation a => applied "int" (.word "not" :: .gap :: operandPieces a)
  | call f args => applied (funcName f) (listed (args.map operandPieces))

mutual

/-- The lines of a statement at a depth of nesting. -/
def Stmt.source (depth : Nat) : Stmt → List TextLine
  | .assign dest t => [.code depth (operandPieces dest ++ .gap :: .sign "=" :: .gap :: t.pieces)]
  | .print o => [.code depth (applied "print" (operandPieces o))]
  | .ret o => [.code depth (.word "return" :: .gap :: operandPieces o)]
  | .raise message =>
    [.silent (lineAt depth ("raise RuntimeError(\"" ++ message ++ "\")")).toList]
  | .note label =>
    [.silent (List.replicate (4 * depth) ' ' ++ '#' :: (" label " ++ toString label.toNat).toList)]
  | .whenNonzero o body =>
    .code depth (.word "if" :: .gap :: (between o (.sign "!=") (.lit 0) ++ [.sign ":"])) ::
      blockSource (depth + 1) body
  | .setPc k => [.code depth [.word pcName, .gap, .sign "=", .gap, .number k]]
  | .again => [.code depth [.word "continue"]]
  | .leave => [.code depth [.word "break"]]
  | .whenPc k body =>
    .code depth [.word "if", .gap, .word pcName, .gap, .sign "==", .gap, .number k, .sign ":"] ::
      blockSource (depth + 1) body
  | .forever body =>
    .code depth [.word "while", .gap, .word "True", .sign ":"] :: blockSource (depth + 1) body

/-- The lines of a sequence of statements. -/
def blockSource (depth : Nat) : List Stmt → List TextLine
  | [] => []
  | s :: rest => s.source depth ++ blockSource depth rest

end

namespace Def

/-- The line that declares the globals of a function, if there are some. -/
def declaration (d : Def) : List TextLine :=
  if d.globals.isEmpty then []
  else [.code 1 (.word "global" :: .gap ::
    listed (d.globals.map fun n => [.word (Operand.global n).text]))]

/-- The lines of a function. -/
def source (d : Def) : List TextLine :=
  .code 0 (.word "def" :: .gap :: (applied (funcName d.index)
      (listed (d.params.map fun name => [.word name])) ++ [.sign ":"])) ::
    (d.declaration ++ blockSource 1 d.stmts)

end Def

/-! ## Texts -/

theorem spell_append (ps qs : List Piece) :
    Piece.spell (ps ++ qs) = Piece.spell ps ++ Piece.spell qs :=
  flatMap_append

theorem spell_cons (p : Piece) (ps : List Piece) : Piece.spell (p :: ps) = p.chars ++ Piece.spell ps :=
  flatMap_cons

@[simp] theorem spell_nil : Piece.spell [] = [] :=
  rfl

@[simp] theorem spell_operand (o : Operand) : Piece.spell (operandPieces o) = o.text.toList := by
  cases o with
  | lit v =>
    rw [Operand.text, toList_text, operandPieces]
    split <;> simp [Piece.spell, Piece.chars]
  | global n | var n | arg n => simp [operandPieces, Piece.spell, Piece.chars]

theorem spell_listed {items : List (List Piece)} {texts : List String}
    (same : items.map Piece.spell = texts.map String.toList) :
    Piece.spell (listed items) = (commaList texts).toList := by
  rw [commaList, String.toList_intercalate, ← same]
  clear same
  induction items with
  | nil => rfl
  | cons ps rest ih =>
    cases rest with
    | nil => simp [listed]
    | cons qs rest =>
      have commas : listed (ps :: qs :: rest) = ps ++ .sign "," :: .gap :: listed (qs :: rest) := rfl
      rw [commas, spell_append, spell_cons, spell_cons, ih]
      simp [Piece.chars]

theorem spell_applied (name : String) (inside : List Piece) :
    Piece.spell (applied name inside) = name.toList ++ '(' :: (Piece.spell inside ++ [')']) := by
  simp [applied, Piece.chars, Piece.spell]

theorem spell_between (a b : Operand) (text : String) :
    Piece.spell (between a (.sign text) b) =
      a.text.toList ++ ' ' :: (text.toList ++ ' ' :: b.text.toList) := by
  simp [between, spell_append, spell_cons, Piece.chars]

theorem spell_pieces (t : Term) : Piece.spell t.pieces = t.text.toList := by
  have zero : (Operand.lit 0).text = "0" := by decide
  cases t with
  | operand o => exact spell_operand o
  | wrapped sign a b | comparison sign a b =>
    simp [Term.pieces, Term.text, spell_applied, spell_between]
  | quotient a b | remainder a b =>
    simp [Term.pieces, Term.text, spell_applied, listed, spell_append, spell_cons, Piece.chars]
  | both a b | either a b =>
    simp [Term.pieces, Term.text, spell_applied, spell_append, spell_cons, spell_between, zero,
      Piece.chars]
  | negation a => simp [Term.pieces, Term.text, spell_applied, spell_cons, Piece.chars]
  | call f args =>
    have inside : Piece.spell (listed (args.map operandPieces)) =
        (commaList (args.map Operand.text)).toList := spell_listed (by simp [Function.comp_def])
    simp [Term.pieces, Term.text, spell_applied, inside, funcName]

theorem toList_lineAt (depth : Nat) (text : String) :
    (lineAt depth text).toList = List.replicate (4 * depth) ' ' ++ text.toList := by
  simp [lineAt]

mutual

theorem Stmt.chars_source (depth : Nat) (s : Stmt) :
    (s.source depth).map TextLine.chars = (s.lines depth).map String.toList := by
  have zero : (Operand.lit 0).text = "0" := by decide
  cases s with
  | assign dest t =>
    simp [Stmt.source, Stmt.lines, TextLine.chars, toList_lineAt, spell_append, spell_cons,
      spell_pieces, Piece.chars]
  | print o => simp [Stmt.source, Stmt.lines, TextLine.chars, toList_lineAt, spell_applied]
  | ret o => simp [Stmt.source, Stmt.lines, TextLine.chars, toList_lineAt, spell_cons, Piece.chars]
  | raise message => simp [Stmt.source, Stmt.lines, TextLine.chars]
  | note label => simp [Stmt.source, Stmt.lines, TextLine.chars, toList_lineAt]
  | whenNonzero o body =>
    simp [Stmt.source, Stmt.lines, TextLine.chars, toList_lineAt, spell_append, spell_cons,
      spell_between, zero, Piece.chars, chars_blockSource]
  | setPc k =>
    simp [Stmt.source, Stmt.lines, TextLine.chars, toList_lineAt, Piece.spell, Piece.chars, pcName,
      digits]
  | again | leave =>
    simp [Stmt.source, Stmt.lines, TextLine.chars, toList_lineAt, Piece.spell, Piece.chars]
  | whenPc k body =>
    simp [Stmt.source, Stmt.lines, TextLine.chars, toList_lineAt, Piece.spell, Piece.chars, pcName,
      digits, chars_blockSource]
  | forever body =>
    simp [Stmt.source, Stmt.lines, TextLine.chars, toList_lineAt, Piece.spell, Piece.chars,
      chars_blockSource]

theorem chars_blockSource (depth : Nat) (body : List Stmt) :
    (blockSource depth body).map TextLine.chars = (blockLines depth body).map String.toList := by
  cases body with
  | nil => rfl
  | cons s rest =>
    rw [blockSource, blockLines, map_append, map_append, s.chars_source depth,
      chars_blockSource depth rest]

end

theorem blockLines_append (depth : Nat) (xs ys : List Stmt) :
    blockLines depth (xs ++ ys) = blockLines depth xs ++ blockLines depth ys := by
  induction xs with
  | nil => rfl
  | cons x xs ih => rw [cons_append, blockLines, blockLines, ih, append_assoc]

theorem text_var_ofNat {n : Nat} {count : UInt32} (bound : n < count.toNat) :
    (Operand.var (.ofNat n)).text = "v" ++ toString n := by
  rw [Operand.text, UInt32.toNat_ofNat_of_lt' (Nat.lt_trans bound count.toNat_lt)]

/-- Setting the locals to zero is an assignment for each of them. -/
theorem blockLines_stmts (d : Def) : blockLines 1 d.stmts =
    (slotNames "v" d.localCount).map (fun name => lineAt 1 (name ++ " = 0")) ++ blockLines 1 d.body ++
      [lineAt 1 "return 0"] := by
  have zero : (Operand.lit 0).text = "0" := by decide
  have inits (ns : List Nat) (bound : ∀ n ∈ ns, n < d.localCount.toNat) :
      blockLines 1 (ns.map fun n => .assign (.var (.ofNat n)) (.operand (.lit 0))) =
        (ns.map fun n => "v" ++ toString n).map fun name => lineAt 1 (name ++ " = 0") := by
    induction ns with
    | nil => rfl
    | cons n ns ih =>
      have first := text_var_ofNat (bound n mem_cons_self)
      have rest := ih fun n member => bound n (mem_cons_of_mem _ member)
      rw [map_cons, blockLines, rest]
      simp [Stmt.lines, Term.text, first, zero, String.append_assoc]
  rw [Def.stmts, blockLines_append, blockLines_append,
    inits _ fun n member => mem_range.1 member, append_assoc]
  simp [slotNames, blockLines, Stmt.lines, zero]

theorem Def.chars_source (d : Def) : d.source.map TextLine.chars = d.lines.map String.toList := by
  have params : Piece.spell (listed (d.params.map fun name => [.word name])) =
      (commaList (slotNames "a" d.paramCount)).toList :=
    spell_listed (by simp [Function.comp_def, spell_cons, Piece.chars, Def.params])
  have globals : Piece.spell (listed (d.globals.map fun n => [.word (Operand.global n).text])) =
      (commaList (d.globals.map fun n => "g" ++ toString n.toNat)).toList :=
    spell_listed (by simp [Function.comp_def, spell_cons, Piece.chars, Operand.text])
  have declared : d.declaration.map TextLine.chars =
      (if (d.globals.map fun n => "g" ++ toString n.toNat).isEmpty then []
        else [lineAt 1 ("global " ++ commaList (d.globals.map fun n => "g" ++ toString n.toNat))]).map
        String.toList := by
    unfold Def.declaration
    rw [isEmpty_map]
    split
    · rfl
    · simp [TextLine.chars, spell_cons, globals, toList_lineAt, Piece.chars]
  rw [Def.source, Def.lines, map_cons, map_cons, map_append, declared,
    chars_blockSource, blockLines_stmts]
  simp [TextLine.chars, spell_append, spell_cons, spell_applied, params, Piece.chars, funcName]

/-! ## Statements of programs -/

def Term.IsKnown : Term → Prop
  | wrapped sign _ _ => sign = '+' ∨ sign = '-' ∨ sign = '*'
  | comparison sign _ _ => sign = "<" ∨ sign = ">" ∨ sign = "=="
  | _ => True

/-- Whether a statement is a comment. -/
def Stmt.isNote : Stmt → Bool
  | .note _ => true
  | _ => false

mutual

def Stmt.IsKnown : Stmt → Prop
  | .assign dest t => dest.isSlot = true ∧ t.IsKnown
  | .raise _ => False
  | .whenNonzero _ body | .whenPc _ body | .forever body =>
    body.all Stmt.isNote = false ∧ AllKnown body
  | .print _ | .ret _ | .note _ | .setPc _ | .again | .leave => True

/-- Statements each of which a parsed program can become. -/
def AllKnown : List Stmt → Prop
  | [] => True
  | s :: rest => s.IsKnown ∧ AllKnown rest

end

theorem allKnown_append {ys : List Stmt} : AllKnown (xs ++ ys) ↔ AllKnown xs ∧ AllKnown ys := by
  induction xs with
  | nil => simp [AllKnown]
  | cons x xs ih => simp [AllKnown, ih, and_assoc]

theorem allKnown_of_forall (known : ∀ s ∈ xs, s.IsKnown) : AllKnown xs := by
  induction xs with
  | nil => trivial
  | cons x xs ih =>
    exact ⟨known x mem_cons_self, ih fun s member => known s (mem_cons_of_mem _ member)⟩

/-! ## Walks -/

section Walks

variable {e : Edge} {name : String} {ps : List Piece} {d : Def} {inside qs : List Piece}
  {op p : Piece} {text : String}

open Reader.Piece

/-- An edge where any word, number or sign can start. -/
def IsOpen (e : Edge) : Prop :=
  e = .lonely ∨ e = .blank

theorem walk_step {nesting nesting' : Nat} (ps : List Piece) (takes : e.takes p = true)
    (valid : p.isValid = true) (hard : p.isSoft = false)
    (nested : p.nesting? nesting = some nesting') :
    walk e nesting (p :: ps) = walk p.edge nesting' ps := by
  rw [walk, takes, valid, hard, nested]
  rfl

/-- Pieces that stand for a value, wherever they start. -/
def IsPhrase (ps : List Piece) : Prop :=
  ∀ e, IsOpen e → ∀ nesting rest, walk e nesting (ps ++ rest) = walk .value nesting rest

theorem takes_of_isOpen (opened : IsOpen e) (visible : p.isGap = false) : e.takes p = true := by
  rcases opened with rfl | rfl
  · rfl
  · exact congrArg Bool.not visible

theorem isPhrase_word (text : String) (valid : (Piece.word text).isValid = true)
    (hard : (Piece.word text).isSoft = false) : IsPhrase [.word text] :=
  fun _ opened _ rest => walk_step rest (takes_of_isOpen opened rfl) valid hard rfl

theorem isPhrase_number (n : Nat) : IsPhrase [.number n] :=
  fun _ opened _ rest => walk_step rest (takes_of_isOpen opened rfl) rfl rfl rfl

theorem isSoft_numbered {letter : Char} {n : Nat} (shape : text.toList = letter :: digits n) :
    (Piece.word text).isSoft = false :=
  contains_numbered shape softWords (by decide)

theorem isPhrase_slot {o : Operand} (slot : o.isSlot = true) : IsPhrase [.word o.text] :=
  isPhrase_word _ (isValid_slot slot) (isSoft_numbered (toList_slot slot))

theorem isPhrase_operand (o : Operand) : IsPhrase (operandPieces o) := by
  cases o with
  | lit v =>
    rw [operandPieces]
    split
    · intro e opened nesting rest
      refine (walk_step _ (takes_of_isOpen opened rfl) (by decide) rfl rfl).trans ?_
      exact walk_step rest rfl rfl rfl rfl
    · exact isPhrase_number _
  | global n | var n | arg n => exact isPhrase_slot rfl

/-- Signs with a blank on either side. -/
def isInfix (p : Piece) : Prop :=
  ∀ nesting rest, walk .blank nesting (p :: .gap :: rest) = walk .blank nesting rest

theorem isInfix_sign (text : String) (known : text ∈ ["=", "+", "-", "*", "<", ">", "==", "!="]) :
    isInfix (.sign text) := by
  intro nesting rest
  simp only [mem_cons, not_mem_nil, or_false] at known
  rcases known with rfl | rfl | rfl | rfl | rfl | rfl | rfl | rfl
  all_goals exact (walk_step _ rfl (by decide) rfl rfl).trans (walk_step rest rfl rfl rfl rfl)

theorem isInfix_word (valid : (Piece.word text).isValid = true)
    (hard : (Piece.word text).isSoft = false) : isInfix (.word text) :=
  fun _ rest => (walk_step _ rfl valid hard rfl).trans (walk_step rest rfl rfl rfl rfl)

theorem IsPhrase.infixed (left : IsPhrase ps) (right : IsPhrase qs) (sign : isInfix op) :
    IsPhrase (ps ++ .gap :: op :: .gap :: qs) := by
  intro e opened nesting rest
  rw [append_assoc, left e opened]
  refine (walk_step _ rfl rfl rfl rfl).trans ?_
  exact (sign nesting (qs ++ rest)).trans (right _ (.inr rfl) nesting rest)

theorem isPhrase_between (a b : Operand) (sign : isInfix op) : IsPhrase (between a op b) :=
  (isPhrase_operand a).infixed (isPhrase_operand b) sign

theorem isPhrase_listed {items : List (List Piece)} (phrases : ∀ ps ∈ items, IsPhrase ps)
    (nonempty : items ≠ []) : IsPhrase (listed items) := by
  induction items with
  | nil => exact absurd rfl nonempty
  | cons ps rest ih =>
    have first := phrases ps mem_cons_self
    cases rest with
    | nil => exact first
    | cons qs rest =>
      have later := ih (fun ps member => phrases ps (mem_cons_of_mem _ member)) (by simp)
      intro e opened nesting after
      change walk e nesting ((ps ++ .sign "," :: .gap :: listed (qs :: rest)) ++ after) = _
      rw [append_assoc, first e opened]
      refine (walk_step _ rfl (by decide) rfl rfl).trans ?_
      refine (walk_step _ rfl rfl rfl rfl).trans ?_
      exact later _ (.inr rfl) nesting after

theorem walk_applied (valid : (Piece.word name).isValid = true)
    (hard : (Piece.word name).isSoft = false) (phrase : inside = [] ∨ IsPhrase inside)
    (opened : IsOpen e) (nesting : Nat) (rest : List Piece) :
    walk e nesting (applied name inside ++ rest) = walk .lonely nesting rest := by
  refine (walk_step _ (takes_of_isOpen opened rfl) valid hard rfl).trans ?_
  refine (walk_step _ rfl (by decide) rfl rfl).trans ?_
  change walk .lonely (nesting + 1) ((inside ++ [.sign ")"]) ++ rest) = _
  rw [append_assoc]
  rcases phrase with rfl | phrase
  · exact walk_step rest rfl (by decide) rfl rfl
  · exact (phrase .lonely (.inl rfl) (nesting + 1) _).trans (walk_step rest rfl (by decide) rfl rfl)

theorem isPhrase_both (a b : Operand) {word : String} (valid : (Piece.word word).isValid = true)
    (hard : (Piece.word word).isSoft = false) :
    IsPhrase (between a (.sign "!=") (.lit 0) ++
      .gap :: .word word :: .gap :: between b (.sign "!=") (.lit 0)) :=
  (isPhrase_between a _ (isInfix_sign _ (by decide))).infixed
    (isPhrase_between b _ (isInfix_sign _ (by decide))) (isInfix_word valid hard)

theorem walk_term {t : Term} (known : t.IsKnown) (nesting : Nat) :
    ∃ e, walk .blank nesting t.pieces = some (e, nesting) := by
  have bracketed {name : String} {inside : List Piece} (valid : (Piece.word name).isValid = true)
      (hard : (Piece.word name).isSoft = false) (phrase : inside = [] ∨ IsPhrase inside) :
      ∃ e, walk .blank nesting (applied name inside) = some (e, nesting) := by
    have walked := walk_applied valid hard phrase (.inr rfl) nesting []
    rw [append_nil] at walked
    exact ⟨_, walked⟩
  cases t with
  | operand o =>
    have walked := isPhrase_operand o _ (.inr rfl) nesting []
    rw [append_nil] at walked
    exact ⟨_, walked⟩
  | wrapped sign a b | comparison sign a b =>
    refine bracketed (by decide) (by decide) (.inr (isPhrase_between a b (isInfix_sign _ ?_)))
    rcases known with rfl | rfl | rfl <;> decide
  | quotient a b | remainder a b =>
    refine bracketed (by decide) (by decide) (.inr (isPhrase_listed ?_ (by simp)))
    simpa using ⟨isPhrase_operand a, isPhrase_operand b⟩
  | both a b | either a b =>
    exact bracketed (by decide) (by decide) (.inr (isPhrase_both a b (by decide) (by decide)))
  | negation a =>
    refine bracketed (by decide) (by decide) (.inr fun e opened nesting rest => ?_)
    refine (walk_step _ (takes_of_isOpen opened rfl) (by decide) (by decide) rfl).trans ?_
    exact (walk_step _ rfl rfl rfl rfl).trans (isPhrase_operand a _ (.inr rfl) nesting rest)
  | call f args =>
    refine bracketed (isValid_numbered (toList_funcName f) rfl rfl)
      (isSoft_numbered (toList_funcName f)) ?_
    cases args with
    | nil => exact .inl rfl
    | cons a as =>
      refine .inr (isPhrase_listed ?_ (by simp))
      intro ps member
      obtain ⟨o, -, rfl⟩ := mem_map.1 member
      exact isPhrase_operand o

/-! ## Lines -/

theorem codeSound_of_phrase (phrase : IsPhrase ps) (walked : ∃ e, walk .value 0 qs = some (e, 0))
    (nonempty : ps ++ qs ≠ []) : TextLine.CodeSound (ps ++ qs) := by
  obtain ⟨e, walked⟩ := walked
  exact ⟨nonempty, e, (phrase .blank (.inr rfl) 0 qs).trans walked⟩

theorem sound_singleton {depth : Nat} (sound : TextLine.CodeSound ps) :
    ∀ l ∈ [TextLine.code depth ps], l.Sound := by
  intro l member
  obtain rfl := mem_singleton.1 member
  exact sound

theorem codeSound_leading (text : String) (valid : (Piece.word text).isValid = true)
    (hard : (Piece.word text).isSoft = false) (walked : ∃ e, walk .blank 0 ps = some (e, 0)) :
    TextLine.CodeSound (.word text :: .gap :: ps) := by
  obtain ⟨e, walked⟩ := walked
  refine ⟨cons_ne_nil _ _, e, ?_⟩
  exact ((walk_step _ rfl valid hard rfl).trans (walk_step ps rfl rfl rfl rfl)).trans walked

theorem walk_phrase (phrase : IsPhrase ps) : ∃ e, walk .blank 0 ps = some (e, 0) := by
  have walked := phrase .blank (.inr rfl) 0 []
  rw [append_nil] at walked
  exact ⟨_, walked⟩

theorem walk_colon (phrase : IsPhrase ps) : ∃ e, walk .blank 0 (ps ++ [.sign ":"]) = some (e, 0) :=
  ⟨_, (phrase .blank (.inr rfl) 0 _).trans (walk_step [] rfl (by decide) rfl rfl)⟩

theorem codeSound_assign {target : List Piece} (phrase : IsPhrase target)
    (walked : ∃ e, walk .blank 0 ps = some (e, 0)) :
    TextLine.CodeSound (target ++ .gap :: .sign "=" :: .gap :: ps) := by
  obtain ⟨e, walked⟩ := walked
  refine codeSound_of_phrase phrase ⟨e, ?_⟩ (by simp)
  refine (walk_step _ rfl rfl rfl rfl).trans ?_
  exact (isInfix_sign "=" (by decide) 0 ps).trans walked

theorem codeSound_applied (valid : (Piece.word name).isValid = true)
    (hard : (Piece.word name).isSoft = false) (phrase : IsPhrase inside) :
    TextLine.CodeSound (applied name inside) := by
  have walked := walk_applied valid hard (.inr phrase) (.inr rfl) 0 []
  rw [append_nil] at walked
  exact ⟨cons_ne_nil _ _, _, walked⟩

theorem isPhrase_pc : IsPhrase [.word pcName] :=
  isPhrase_word _ (by decide) (by decide)

theorem inLine_toString (label : Nat) :
    ∀ c ∈ (" label " ++ toString label).toList, Reader.isLineEnd c = false := by
  intro c member
  rw [String.toList_append] at member
  rcases mem_append.1 member with there | digit
  · have all : " label ".toList.all (fun c => !Reader.isLineEnd c) = true := by decide
    simpa using all_eq_true.1 all c there
  · exact Piece.digit_induction (isDigit_of_mem_digits (n := label) digit)
      (P := fun c => Reader.isLineEnd c = false) (by decide)

mutual

/-- Every line of a known statement can be read. -/
theorem Stmt.sound_source {s : Stmt} (known : s.IsKnown) (depth : Nat) :
    ∀ l ∈ s.source depth, l.Sound := by
  cases s with
  | assign dest t =>
    rw [Stmt.source]
    exact sound_singleton (codeSound_assign (isPhrase_operand dest) (walk_term known.2 0))
  | print o =>
    rw [Stmt.source]
    exact sound_singleton (codeSound_applied (by decide) (by decide) (isPhrase_operand o))
  | ret o =>
    rw [Stmt.source]
    exact sound_singleton (codeSound_leading _ (by decide) (by decide) (walk_phrase (isPhrase_operand o)))
  | raise message => cases known
  | note label =>
    have line := Reader.IsSilent.comment (4 * depth) (inLine_toString label.toNat)
    intro l member
    rw [Stmt.source, mem_singleton] at member
    exact member ▸ line
  | setPc k =>
    rw [Stmt.source]
    exact sound_singleton (codeSound_assign isPhrase_pc (walk_phrase (isPhrase_number k)))
  | again | leave =>
    rw [Stmt.source]
    exact sound_singleton ⟨cons_ne_nil _ _, .value, walk_step [] rfl (by decide) (by decide) rfl⟩
  | whenNonzero o body =>
    have line := codeSound_leading "if" (by decide) (by decide)
      (walk_colon (isPhrase_between o (.lit 0) (isInfix_sign "!=" (by decide))))
    rw [Stmt.source]
    exact forall_mem_cons.2 ⟨line, sound_blockSource known.2 (depth + 1)⟩
  | whenPc k body =>
    have line := codeSound_leading "if" (by decide) (by decide) (walk_colon
      (isPhrase_pc.infixed (isPhrase_number k) (isInfix_sign "==" (by decide))))
    rw [Stmt.source]
    exact forall_mem_cons.2 ⟨line, sound_blockSource known.2 (depth + 1)⟩
  | forever body =>
    have line := codeSound_leading "while" (by decide) (by decide)
      (walk_colon (isPhrase_word "True" (by decide) (by decide)))
    rw [Stmt.source]
    exact forall_mem_cons.2 ⟨line, sound_blockSource known.2 (depth + 1)⟩

theorem sound_blockSource {body : List Stmt} (known : AllKnown body) (depth : Nat) :
    ∀ l ∈ blockSource depth body, l.Sound := by
  cases body with
  | nil => exact nofun
  | cons s rest =>
    rw [blockSource]
    exact forall_mem_append.2 ⟨s.sound_source known.1 depth, sound_blockSource known.2 depth⟩

end

theorem isPhrase_slotName {letter : String} {c : Char} (single : letter = String.singleton c)
    (start : Text.isIdentStart c = true) (inside : Text.isIdentRest c = true) {count : UInt32}
    (member : name ∈ slotNames letter count) : IsPhrase [.word name] := by
  obtain ⟨n, -, rfl⟩ := mem_map.1 member
  have shape : (letter ++ toString n).toList = c :: digits n := by simp [single, digits]
  exact isPhrase_word _ (isValid_numbered shape start inside) (isSoft_numbered shape)

theorem Def.allKnown_stmts (known : AllKnown d.body) : AllKnown d.stmts := by
  refine allKnown_append.2 ⟨allKnown_of_forall fun s member => ?_, allKnown_append.2 ⟨known, ?_⟩⟩
  · obtain ⟨n, -, rfl⟩ := mem_map.1 member
    exact ⟨rfl, trivial⟩
  · exact ⟨trivial, trivial⟩

theorem Def.sound_source (known : AllKnown d.body) : ∀ l ∈ d.source, l.Sound := by
  have params : listed (d.params.map fun name => [.word name]) = [] ∨
      IsPhrase (listed (d.params.map fun name => [.word name])) := by
    by_cases none : d.params = []
    · rw [none]
      exact .inl rfl
    · refine .inr (isPhrase_listed ?_ (by simpa using none))
      intro ps member
      obtain ⟨name, there, rfl⟩ := mem_map.1 member
      exact isPhrase_slotName (c := 'a') (by decide) rfl rfl there
  have header : TextLine.CodeSound (.word "def" :: .gap :: (applied (funcName d.index)
      (listed (d.params.map fun name => [.word name])) ++ [.sign ":"])) :=
    codeSound_leading _ (by decide) (by decide) ⟨_, (walk_applied
      (isValid_numbered (toList_funcName d.index) rfl rfl) (isSoft_numbered (toList_funcName d.index))
      params (.inr rfl) 0 [.sign ":"]).trans (walk_step [] rfl (by decide) rfl rfl)⟩
  have declared : ∀ l ∈ d.declaration, l.Sound := by
    unfold Def.declaration
    split
    · exact nofun
    · next some =>
      refine sound_singleton (codeSound_leading _ (by decide) (by decide) (walk_phrase
        (isPhrase_listed ?_ ?_)))
      · intro ps member
        obtain ⟨n, -, rfl⟩ := mem_map.1 member
        exact isPhrase_slot rfl
      · simpa using some
  rw [Def.source]
  exact forall_mem_cons.2 ⟨header, forall_mem_append.2
    ⟨declared, sound_blockSource (Def.allKnown_stmts known) 1⟩⟩

end Walks

/-! ## Depths -/

theorem stepsFrom_mono {depth depth' : Nat} {lines : List TextLine}
    (steps : TextLine.StepsFrom depth lines) (deeper : depth ≤ depth') :
    TextLine.StepsFrom depth' lines := by
  induction lines with
  | nil => trivial
  | cons l rest ih =>
    cases l with
    | silent cs => exact ih steps
    | code d ps => exact ⟨Nat.le_trans steps.1 (Nat.add_le_add_right deeper 1), steps.2⟩

mutual

/-- A statement goes one level deeper at a time. -/
theorem Stmt.stepsFrom_source {depth before : Nat} {rest : List TextLine} (s : Stmt)
    (close : depth ≤ before + 1) (later : TextLine.StepsFrom (depth - 1) rest) :
    TextLine.StepsFrom before (s.source depth ++ rest) := by
  have after : TextLine.StepsFrom depth rest := stepsFrom_mono later (Nat.sub_le _ _)
  have silent : TextLine.StepsFrom before rest := stepsFrom_mono later (by omega)
  cases s with
  | assign | print | ret | setPc | again | leave =>
    rw [Stmt.source]
    exact ⟨close, after⟩
  | raise | note =>
    rw [Stmt.source]
    exact silent
  | whenNonzero o body | whenPc k body | forever body =>
    rw [Stmt.source]
    exact ⟨close, stepsFrom_blockSource body (Nat.le_refl _) after⟩

theorem stepsFrom_blockSource {depth before : Nat} {rest : List TextLine} (body : List Stmt)
    (close : depth ≤ before + 1) (later : TextLine.StepsFrom (depth - 1) rest) :
    TextLine.StepsFrom before (blockSource depth body ++ rest) := by
  cases body with
  | nil => exact stepsFrom_mono later (by omega)
  | cons s body =>
    rw [blockSource, append_assoc]
    exact s.stepsFrom_source close (stepsFrom_blockSource body (by omega) later)

end

theorem Def.stepsFrom_source {before : Nat} {rest : List TextLine} (d : Def)
    (later : TextLine.StepsFrom 0 rest) : TextLine.StepsFrom before (d.source ++ rest) := by
  have block : ∀ level ≤ 1, TextLine.StepsFrom level (blockSource 1 d.stmts ++ rest) :=
    fun level _ => stepsFrom_blockSource d.stmts (Nat.le_add_left 1 level) later
  refine ⟨Nat.zero_le _, ?_⟩
  change TextLine.StepsFrom 0 ((d.declaration ++ blockSource 1 d.stmts) ++ rest)
  rw [append_assoc]
  unfold Def.declaration
  split
  · exact block 0 (by decide)
  · exact ⟨Nat.le_refl 1, block 1 (by decide)⟩

end SlotLang.Script
