import SlotLang.Proofs.Canonical.Words
import SlotLang.Proofs.Wat.Flattening

/-!
# Reading lines of code

Lines are read one after the other (`ReadsLines`): comments and blanks leave nothing, and a line of code
gives a keyword with its immediates. So the lines of code are read as the instructions that they were
written from (`spells_codeLines`). Nested lists are read from their tokens (`ofTokens_itemTokens`).
-/

open List

namespace SlotLang.Assembly

namespace Wat

variable {c : Char} {name : String}

/-! ## Characters -/

theorem Lexer.run_append (l : Lexer) (xs ys : List Char) :
    l.run (xs ++ ys) = (l.run xs).bind (·.run ys) :=
  foldlM_append

theorem Lexer.run_cons (l : Lexer) (c : Char) (cs : List Char) :
    l.run (c :: cs) = (l.step c).bind (·.run cs) := rfl

/-- Characters that are read as some tokens wherever no earlier piece goes on. -/
def Reads (cs : List Char) (ts : List Token) : Prop :=
  ∀ read, Lexer.run ⟨.between, read⟩ cs = some ⟨.between, ts.reverse ++ read⟩

theorem ne_of_isWordChar {d : Char} (word : isWordChar c = true) (apart : isWordChar d = false) :
    c ≠ d := by
  rintro rfl
  rw [word] at apart
  cases apart

theorem Lexer.start_word (word : isWordChar c = true) (read : List Token) :
    start read c = some ⟨.word [c], read⟩ := by
  have other {d : Char} := ne_of_isWordChar (d := d) word
  have blank : ¬(c = ' ' ∨ c = '\n') := not_or.2 ⟨other (by decide), other (by decide)⟩
  rw [start, if_neg (other (by decide)), if_neg (other (by decide)), if_neg (other (by decide)),
    if_neg (other (by decide)), if_neg blank, if_pos word]

theorem Lexer.run_word {w : List Char} (word : ∀ c ∈ w, isWordChar c = true) (chars : List Char)
    (read : List Token) : run ⟨.word chars, read⟩ w = some ⟨.word (w.reverse ++ chars), read⟩ := by
  induction w generalizing chars with
  | nil => rfl
  | cons c w ih =>
    rw [forall_mem_cons] at word
    have first : step ⟨.word chars, read⟩ c = some ⟨.word (c :: chars), read⟩ := if_pos word.1
    rw [run_cons, first, Option.bind_some, ih word.2]
    simp

/-- A word that is written as it is. -/
structure IsToken (w : List Char) : Prop where
  nonempty : w ≠ []
  chars : ∀ c ∈ w, isWordChar c = true

theorem Lexer.run_token {w : List Char} (token : IsToken w) (read : List Token) :
    run ⟨.between, read⟩ w = some ⟨.word w.reverse, read⟩ := by
  obtain ⟨nonempty, chars⟩ := token
  cases w with
  | nil => exact absurd rfl nonempty
  | cons c w =>
    rw [forall_mem_cons] at chars
    have first : step ⟨.between, read⟩ c = some ⟨.word [c], read⟩ := start_word chars.1 read
    rw [run_cons, first, Option.bind_some, run_word chars.2, reverse_cons]

namespace Reads

variable {xs ys : List Char} {ts us : List Token}

theorem append (first : Reads xs ts) (second : Reads ys us) : Reads (xs ++ ys) (ts ++ us) := by
  intro read
  rw [Lexer.run_append, first, Option.bind_some, second]
  simp

theorem nil : Reads [] [] := fun _ => rfl

theorem flatMap {α : Type} {f : α → List Char} {g : α → List Token} {items : List α}
    (each : ∀ a ∈ items, Reads (f a) (g a)) : Reads (items.flatMap f) (items.flatMap g) := by
  induction items with
  | nil => exact nil
  | cons a items ih =>
    rw [forall_mem_cons] at each
    exact each.1.append (ih each.2)

theorem blanks (n : Nat) : Reads (List.replicate n ' ') [] := by
  induction n with
  | zero => exact nil
  | succ n ih =>
    have blank : Reads [' '] [] := fun _ => rfl
    exact blank.append ih

/-- A word ends where something else starts. -/
theorem token {w : List Char} (isToken : IsToken w) {c : Char} (apart : isWordChar c = false)
    (next : Reads [c] ts) : Reads (w ++ [c]) (.word (String.ofList w) :: ts) := by
  intro read
  have ended : Lexer.step ⟨.word w.reverse, read⟩ c =
      Lexer.step ⟨.between, .word (String.ofList w) :: read⟩ c := by
    simp [Lexer.step, apart]
  have after := next (.word (String.ofList w) :: read)
  rw [Lexer.run_cons] at after
  rw [Lexer.run_append, Lexer.run_token isToken, Option.bind_some, Lexer.run_cons, ended, after]
  simp

theorem spaced_line {ws : List (List Char)} (tokens : ∀ w ∈ ws, IsToken w) :
    Reads (spaced ws ++ ['\n']) (ws.map fun w => .word (String.ofList w)) := by
  have blank : Reads [' '] [] := fun _ => rfl
  have feed : Reads ['\n'] [] := fun _ => rfl
  cases ws with
  | nil => exact feed
  | cons w ws =>
    rw [spaced]
    induction ws generalizing w with
    | nil =>
      rw [flatMap_nil, append_nil]
      exact token (tokens w (by simp)) (by decide) feed
    | cons v ws ih =>
      have first : Reads (w ++ [' ']) [.word (String.ofList w)] :=
        token (tokens w (by simp)) (by decide) blank
      have rest := ih v fun w member => tokens w (mem_cons_of_mem _ member)
      simpa using first.append rest

/-- A text in quotes, without anything that would need an escape. -/
theorem quoted {w : List Char} (plain : ∀ c ∈ w, isWordChar c = true) :
    Reads ('"' :: (w ++ ['"'])) [.quoted (String.ofList w)] := by
  have inner (chars : List Char) (read : List Token) :
      Lexer.run ⟨.quoted chars, read⟩ w = some ⟨.quoted (w.reverse ++ chars), read⟩ := by
    induction w generalizing chars with
    | nil => rfl
    | cons c w ih =>
      rw [forall_mem_cons] at plain
      have other {d : Char} := ne_of_isWordChar (d := d) plain.1
      have step : Lexer.step ⟨.quoted chars, read⟩ c = some ⟨.quoted (c :: chars), read⟩ := by
        simp [Lexer.step, other (d := '"') (by decide), other (d := '\\') (by decide),
          other (d := '\n') (by decide)]
      rw [Lexer.run_cons, step, Option.bind_some, ih plain.2]
      simp
  intro read
  have first : Lexer.step ⟨.between, read⟩ '"' = some ⟨.quoted [], read⟩ := rfl
  rw [Lexer.run_cons, first, Option.bind_some, Lexer.run_append, inner, Option.bind_some]
  simp [Lexer.step, Lexer.run]

/-- A comment goes on up to the end of its line. -/
theorem comment {cs : List Char} (single : '\n' ∉ cs) : Reads (';' :: ';' :: (cs ++ ['\n'])) [] := by
  intro read
  have inner : Lexer.run ⟨.comment, read⟩ cs = some ⟨.comment, read⟩ := by
    induction cs with
    | nil => rfl
    | cons c cs ih =>
      rw [mem_cons, not_or] at single
      have step : Lexer.step ⟨.comment, read⟩ c = some ⟨.comment, read⟩ := by
        simp [Lexer.step, Ne.symm single.1]
      rw [Lexer.run_cons, step, Option.bind_some, ih single.2]
  have first : Lexer.run ⟨.between, read⟩ (';' :: ';' :: (cs ++ ['\n'])) =
      Lexer.run ⟨.comment, read⟩ (cs ++ ['\n']) := rfl
  rw [first, Lexer.run_append, inner, Option.bind_some]
  rfl

end Reads

/-! ## Nested lists -/

mutual

def Expr.tokens : Expr → List Token
  | .word text => [.word text]
  | .quoted text => [.quoted text]
  | .list items => .opened :: (itemTokens items ++ [.closed])

def itemTokens : List Expr → List Token
  | [] => []
  | e :: es => e.tokens ++ itemTokens es

end

theorem itemTokens_append (xs ys : List Expr) :
    itemTokens (xs ++ ys) = itemTokens xs ++ itemTokens ys := by
  induction xs with
  | nil => simp [itemTokens]
  | cons e xs ih => simp [itemTokens, ih]

theorem itemTokens_eq (xs : List Expr) : itemTokens xs = xs.flatMap Expr.tokens := by
  induction xs with
  | nil => rfl
  | cons e xs ih => rw [itemTokens, ih, flatMap_cons]

theorem itemTokens_words (words : List String) :
    itemTokens (words.map .word) = words.map .word := by
  induction words with
  | nil => rfl
  | cons w words ih => rw [map_cons, itemTokens, ih, Expr.tokens, map_cons, singleton_append]

mutual

theorem foldlM_tokens (e : Expr) (items : List Expr) (outer : Expr.Stack) :
    e.tokens.foldlM Expr.step (items :: outer) = some ((e :: items) :: outer) := by
  match e with
  | .word text => rfl
  | .quoted text => rfl
  | .list es =>
    have inner := foldlM_itemTokens es [] (items :: outer)
    rw [append_nil] at inner
    rw [Expr.tokens, foldlM_cons, Expr.step, Option.bind_eq_bind, Option.bind_some,
      foldlM_append, inner]
    simp [Expr.step, Expr.push]

theorem foldlM_itemTokens (es : List Expr) (items : List Expr) (outer : Expr.Stack) :
    (itemTokens es).foldlM Expr.step (items :: outer) = some ((es.reverse ++ items) :: outer) := by
  match es with
  | [] => rfl
  | e :: es =>
    rw [itemTokens, foldlM_append, foldlM_tokens e items outer, Option.bind_eq_bind,
      Option.bind_some, foldlM_itemTokens es (e :: items) outer]
    simp

end

theorem ofTokens_itemTokens (es : List Expr) : Expr.ofTokens (itemTokens es) = some es := by
  rw [Expr.ofTokens, foldlM_itemTokens]
  simp

/-! ## Words -/

namespace Op

theorem gather_cons (w : String) (ws : List String) : gather (w :: ws) = if isKeyword w then
    ([], (w, (gather ws).1) :: (gather ws).2) else (w :: (gather ws).1, (gather ws).2) := rfl

theorem gather_append (ws : List String) {vs : List String} {groups : List (String × List String)}
    (rest : gather vs = ([], groups)) :
    gather (ws ++ vs) = ((gather ws).1, (gather ws).2 ++ groups) := by
  induction ws with
  | nil => exact rest
  | cons w ws ih =>
    rw [cons_append, gather_cons, gather_cons, ih]
    split <;> rfl

theorem ofAllWords_append {ws vs : List String} {xs ys : List Op}
    (first : ofAllWords ws = some xs) (second : ofAllWords vs = some ys) :
    ofAllWords (ws ++ vs) = some (xs ++ ys) := by
  have cut {us : List String} {zs : List Op} (read : ofAllWords us = some zs) :
      ∃ groups, gather us = ([], groups) ∧ groups.mapM (fun g => ofWords g.1 g.2) = some zs := by
    unfold ofAllWords at read
    split at read
    · next groups gathered => exact ⟨groups, gathered, read⟩
    · cases read
  obtain ⟨before, gathered, firstRead⟩ := cut first
  obtain ⟨after, rest, secondRead⟩ := cut second
  have all := gather_append ws rest
  rw [gathered] at all
  rw [ofAllWords, all]
  simp [mapM_append, firstRead, secondRead]

theorem ofAllWords_single {keyword : String} {immediates : List String} {op : Op}
    (isKey : isKeyword keyword = true) (others : ∀ w ∈ immediates, isKeyword w = false)
    (read : ofWords keyword immediates = some op) :
    ofAllWords (keyword :: immediates) = some [op] := by
  have plain : gather immediates = (immediates, []) := by
    clear read
    induction immediates with
    | nil => rfl
    | cons w ws ih =>
      rw [forall_mem_cons] at others
      rw [gather_cons, others.1, if_neg Bool.false_ne_true, ih others.2]
  rw [ofAllWords, gather_cons, if_pos isKey, plain]
  simp [read]

end Op

/-! ## Names and numbers -/

theorem isWordChar_of_isDigit (digit : c.isDigit = true) : isWordChar c = true := by
  simp [isWordChar, Char.isAlphanum, digit]

/-- A name that is written as it is. -/
structure IsWritten (name : String) : Prop where
  isName : isName name = true
  token : IsToken name.toList

theorem isWordChar_of_mem_digits {n : Nat} (member : c ∈ digits n) : isWordChar c = true :=
  isWordChar_of_isDigit (isDigit_of_mem_digits member)

theorem IsWritten.numbered (letters : List Char) (n : Nat)
    (same : name.toList = '$' :: (letters ++ digits n)) (word : letters.all isWordChar = true) :
    IsWritten name where
  isName := by simp [Wat.isName, same]
  token := by
    refine ⟨by simp [same], fun c member => ?_⟩
    rw [same, mem_cons, mem_append] at member
    rcases member with rfl | letter | digit
    · decide
    · exact all_eq_true.1 word c letter
    · exact isWordChar_of_mem_digits digit

theorem IsWritten.literal (named : Wat.isName name = true)
    (word : name.toList.all isWordChar = true) : IsWritten name where
  isName := named
  token := by
    refine ⟨fun empty => ?_, all_eq_true.1 word⟩
    rw [Wat.isName, empty] at named
    cases named

theorem IsWritten.isKeyword (written : IsWritten name) : isKeyword name = false := by
  have first := written.isName
  rw [Wat.isName, beq_iff_eq] at first
  rw [Wat.isKeyword, first]
  rfl

/-- A numeral that is written as it is. -/
structure IsWrittenNumber (text : String) (i : Int) : Prop where
  token : IsToken text.toList
  isKeyword : isKeyword text = false
  number : number? text = some i

theorem isLower_of_isDigit (digit : c.isDigit = true) : c.isLower = false := by
  have range : 48 ≤ c.toNat ∧ c.toNat ≤ 57 := by
    simpa [Char.isDigit, UInt32.le_iff_toNat_le] using digit
  have small : ¬97 ≤ c.toNat := by omega
  simp [Char.isLower, UInt32.le_iff_toNat_le, small]

theorem isWrittenNumber_toString (k : Nat) : IsWrittenNumber (toString k) k where
  token := ⟨digits_ne_nil k, fun _ member => isWordChar_of_mem_digits member⟩
  isKeyword := by
    rw [Wat.isKeyword]
    change (digits k).head?.any Char.isLower = false
    cases first : (digits k).head? with
    | none => rfl
    | some c => exact isLower_of_isDigit (isDigit_of_mem_digits (mem_of_head? first))
  number := by
    change (if Text.isNumeral (digits k) then some (Text.numeralValue (digits k)) else none) = _
    have numeral : Text.isNumeral (digits k) = true := by
      rw [Text.isNumeral, splitSign_of_isDigits (isDigits_digits k)]
      exact isDigits_digits k
    rw [if_pos numeral]
    simp [Text.numeralValue, splitSign_of_isDigits (isDigits_digits k), digitsValue_digits]

theorem isWrittenNumber_text (v : Value) : IsWrittenNumber v.text v.toInt where
  token := by
    rw [toList_text]
    split
    · refine ⟨by simp, fun c member => ?_⟩
      rcases mem_cons.1 member with rfl | digit
      · decide
      · exact isWordChar_of_mem_digits digit
    · exact (isWrittenNumber_toString v.toInt.natAbs).token
  isKeyword := by
    rw [Wat.isKeyword, toList_text]
    split
    · rfl
    · exact (isWrittenNumber_toString v.toInt.natAbs).isKeyword
  number := by
    rw [number?, if_pos (isNumeral_text v), numeralValue_text]

/-! ## Lines of code -/

def isWrittenKeyword (keyword : String) : Bool :=
  isKeyword keyword && keyword.toList.all isWordChar

theorem of_isWrittenKeyword {keyword : String} (key : isWrittenKeyword keyword = true) :
    IsToken keyword.toList ∧ isKeyword keyword = true := by
  rw [isWrittenKeyword, Bool.and_eq_true, all_eq_true] at key
  refine ⟨⟨fun empty => ?_, key.2⟩, key.1⟩
  have first := key.1
  rw [isKeyword, empty] at first
  cases first

def ReadsLines (lines : List String) (ts : List Token) : Prop :=
  Reads (ended (lines.map String.toList)) ts

namespace ReadsLines

variable {xs ys : List String} {ts us : List Token}

theorem append (first : ReadsLines xs ts) (second : ReadsLines ys us) :
    ReadsLines (xs ++ ys) (ts ++ us) := by
  have together := Reads.append first second
  rw [ReadsLines, map_append, ended, flatMap_append]
  exact together

theorem single {line : String} (reads : Reads (line.toList ++ ['\n']) ts) : ReadsLines [line] ts := by
  simpa [ReadsLines, ended] using reads

theorem flatMap {α : Type} {f : α → List String} {g : α → List Token} {items : List α}
    (each : ∀ a ∈ items, ReadsLines (f a) (g a)) :
    ReadsLines (items.flatMap f) (items.flatMap g) := by
  induction items with
  | nil => exact Reads.nil
  | cons a items ih =>
    rw [forall_mem_cons] at each
    exact each.1.append (ih each.2)

theorem indented {text : String} (depth : Nat) (reads : Reads (text.toList ++ ['\n']) ts) :
    ReadsLines [lineAt depth text] ts := by
  refine single ?_
  have whole := (Reads.blanks (2 * depth)).append reads
  simpa [lineAt] using whole

end ReadsLines

/-- Lines that are read as some instructions. -/
def Spells (lines : List String) (code : List Op) : Prop :=
  ∃ words, ReadsLines lines (words.map .word) ∧ Op.ofAllWords words = some code

namespace Spells

variable {op : Op} {text : String}

variable {xs ys : List String} {code rest : List Op}

theorem nil : Spells [] [] :=
  ⟨[], Reads.nil, rfl⟩

theorem append (first : Spells xs code) (second : Spells ys rest) :
    Spells (xs ++ ys) (code ++ rest) := by
  obtain ⟨ws, before, firstRead⟩ := first
  obtain ⟨vs, after, secondRead⟩ := second
  refine ⟨ws ++ vs, ?_, Op.ofAllWords_append firstRead secondRead⟩
  rw [map_append]
  exact before.append after

theorem line (depth : Nat) (keyword : String) (immediates : List String)
    (key : isWrittenKeyword keyword = true)
    (same : text.toList = spaced ((keyword :: immediates).map String.toList))
    (others : ∀ w ∈ immediates, IsToken w.toList ∧ isKeyword w = false)
    (read : Op.ofWords keyword immediates = some op) : Spells [lineAt depth text] [op] := by
  obtain ⟨token, isKey⟩ := of_isWrittenKeyword key
  refine ⟨keyword :: immediates, .indented depth ?_,
    Op.ofAllWords_single isKey (fun w member => (others w member).2) read⟩
  have tokens : ∀ w ∈ (keyword :: immediates).map String.toList, IsToken w := by
    intro w member
    obtain ⟨v, there, rfl⟩ := mem_map.1 member
    rcases mem_cons.1 there with rfl | immediate
    · exact token
    · exact (others v immediate).1
  have reads := Reads.spaced_line tokens
  rw [map_map] at reads
  rw [same]
  simpa [Function.comp_def] using reads

theorem plain (depth : Nat) {keyword : String} (key : isWrittenKeyword keyword = true)
    (read : Op.ofWords keyword [] = some op) : Spells [lineAt depth keyword] [op] :=
  line depth keyword [] key (by simp [spaced]) (by simp) read

theorem numbered (depth : Nat) (keyword : String) {immediate : String} {i : Int}
    (key : isWrittenKeyword keyword = true) (number : IsWrittenNumber immediate i)
    (same : text.toList = keyword.toList ++ ' ' :: immediate.toList)
    (read : number? immediate = some i → Op.ofWords keyword [immediate] = some op) :
    Spells [lineAt depth text] [op] :=
  line depth keyword [immediate] key (by simp [spaced, same]) (by simp [number.token, number.isKeyword])
    (read number.number)

theorem named (depth : Nat) (keyword : String) {immediate : String}
    (key : isWrittenKeyword keyword = true) (written : IsWritten immediate)
    (same : text.toList = keyword.toList ++ ' ' :: immediate.toList)
    (read : Op.named? keyword immediate = some op) : Spells [lineAt depth text] [op] := by
  have other : ∀ k, Op.named? k immediate = none → keyword ≠ k := by
    rintro _ none rfl
    cases none.symm.trans read
  refine line depth keyword [immediate] key (by simp [spaced, same])
    (by simp [written.token, written.isKeyword]) ?_
  rw [Op.ofWords, if_neg (other _ rfl), Op.unary?, if_neg (other _ rfl), if_neg (other _ rfl),
    if_pos written.isName, read]

end Spells

theorem blank_intercalate {ws : List (List Char)} (nonempty : ws ≠ []) :
    ' ' :: [' '].intercalate ws = ws.flatMap (' ' :: ·) := by
  induction ws with
  | nil => exact absurd rfl nonempty
  | cons w ws ih =>
    cases ws with
    | nil => simp
    | cons v ws => rw [intercalate_cons_cons, flatMap_cons, ← ih (by simp)]; simp

theorem isWritten_register (r : Register) : IsWritten r.text := by
  cases r with
  | var n => exact .numbered ['v'] n.toNat (by simp [Register.text, digits]) (by decide)
  | arg n => exact .numbered ['a'] n.toNat (by simp [Register.text, digits]) (by decide)
  | pc => exact .literal (by decide) (by decide)

theorem isWritten_mark (m : Mark) : IsWritten m.text := by
  cases m with
  | dispatch => exact .literal (by decide) (by decide)
  | segment k => exact .numbered ['s'] k (by simp [Mark.text, digits]) (by decide)

theorem isWritten_global (n : UInt32) : IsWritten ("$" ++ globalExport n) :=
  .numbered ['g'] n.toNat (by simp [globalExport, digits]) (by decide)

theorem isWritten_func (n : UInt32) : IsWritten ("$" ++ funcExport n) :=
  .numbered ['f'] n.toNat (by simp [funcExport, digits]) (by decide)

end Wat

open Wat

mutual

theorem spells_lines (i : Instr) (depth : Nat) : Spells (i.lines depth) i.ops := by
  match i with
  | .const v =>
    refine .numbered depth "i64.const" (by decide) (isWrittenNumber_text v) (by simp) fun number => ?_
    simp [Op.ofWords, Op.unary?, number]
  | .index k =>
    refine .numbered depth "i32.const" (by decide) (isWrittenNumber_toString k) (by simp) fun number => ?_
    rw [Op.ofWords, if_neg (by decide), Op.unary?, if_neg (by decide), if_pos rfl, number]
    rfl
  | .get r =>
    exact .named depth "local.get" (by decide) (isWritten_register r) (by simp) rfl
  | .set r =>
    exact .named depth "local.set" (by decide) (isWritten_register r) (by simp) rfl
  | .globalGet n =>
    exact .named depth "global.get" (by decide) (isWritten_global n) (by simp) rfl
  | .globalSet n =>
    exact .named depth "global.set" (by decide) (isWritten_global n) (by simp) rfl
  | .drop | .isZero | .widen | .both | .either | .ret => exact .plain depth (by decide) (by decide)
  | .arith op | .compare op => cases op <;> exact .plain depth (by decide) (by decide)
  | .call f =>
    exact .named depth "call" (by decide) (isWritten_func f) (by simp) rfl
  | .print =>
    have written : IsWritten "$print_i64" := .literal (by decide) (by decide)
    exact .named depth "call" (by decide) written (by simp) rfl
  | .br m =>
    exact .named depth "br" (by decide) (isWritten_mark m) (by simp) rfl
  | .brTable ms otherwise =>
    have named : ∀ w ∈ ms.map Mark.text ++ [otherwise.text], IsWritten w := by
      intro w member
      rcases mem_append.1 member with one | last
      · obtain ⟨m, -, rfl⟩ := mem_map.1 one
        exact isWritten_mark m
      · rw [mem_singleton.1 last]
        exact isWritten_mark otherwise
    refine .line depth "br_table" (ms.map Mark.text ++ [otherwise.text]) (by decide) ?_
      (fun w member => ⟨(named w member).token, (named w member).isKeyword⟩) ?_
    · rw [String.toList_append, String.toList_intercalate, map_cons, spaced,
        ← blank_intercalate (by simp)]
      simp
    · have names : (ms.map Mark.text ++ [otherwise.text]).all isName = true :=
        all_eq_true.2 fun w member => (named w member).isName
      unfold Op.ofWords
      rw [if_pos rfl, if_pos ⟨by simp, names⟩]
  | .block m body =>
    have opened : Spells [lineAt depth ("block " ++ m.text)] [.block m.text] :=
      .named depth "block" (by decide) (isWritten_mark m) (by simp) rfl
    exact opened.append
      ((spells_codeLines body (depth + 1)).append (.plain depth (by decide) (by decide)))
  | .loop m body =>
    have opened : Spells [lineAt depth ("loop " ++ m.text)] [.loop m.text] :=
      .named depth "loop" (by decide) (isWritten_mark m) (by simp) rfl
    exact opened.append
      ((spells_codeLines body (depth + 1)).append (.plain depth (by decide) (by decide)))
  | .ifThen body =>
    have opened : Spells [lineAt depth "if"] [.ifThen] := .plain depth (by decide) (by decide)
    exact opened.append
      ((spells_codeLines body (depth + 1)).append (.plain depth (by decide) (by decide)))
  | .note label =>
    refine ⟨[], .indented depth ?_, rfl⟩
    have single : '\n' ∉ " label ".toList ++ digits label.toNat := by
      rw [mem_append, not_or]
      refine ⟨by decide, fun feed => ?_⟩
      have digit : '\n'.isDigit = true := isDigit_of_mem_digits feed
      cases digit
    simpa [digits] using Reads.comment single

theorem spells_codeLines (code : List Instr) (depth : Nat) :
    Spells (codeLines depth code) (codeOps code) := by
  match code with
  | [] => exact .nil
  | i :: rest => exact (spells_lines i depth).append (spells_codeLines rest depth)

end

end SlotLang.Assembly
