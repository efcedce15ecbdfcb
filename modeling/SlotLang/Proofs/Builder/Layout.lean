import SlotLang.Proofs.Counts
import SlotLang.Proofs.Parsed

/-!
# The layout of a unit

A unit whose lines all pass their checks is a list of `FormedLine`s. Without looking at a draft,
`blocks` cuts out its functions and `outside` its module code. Where openers and closers alternate,
the lines are those of a list of `Item`s, single instructions and whole functions
(`exists_items_of_alternating`), and `take_items` says what a draft becomes when it takes such lines
in: the functions and the code are the ones that `blocks` and `outside` give, and nothing is found
exactly if the functions are numbered well and use no argument that they lack.
-/

open List

namespace SlotLang

/-- A line that passed its check. -/
structure FormedLine where
  number : Nat
  form : LineForm

/-- A function as it stands in the text. -/
structure Block where
  line : Nat
  index : UInt32
  paramCount : UInt32
  body : List Instruction

namespace FormedLine

/-- The index of an opener. -/
def index? (x : FormedLine) : Option UInt32 :=
  match x.form with
  | .opener index _ => some index
  | _ => none

def instruction? (x : FormedLine) : Option Instruction :=
  match x.form with
  | .instruction i => some i
  | _ => none

/-- A line that ends a function. -/
def isCloser (x : FormedLine) : Bool :=
  x.form = .closer

/-- A line that opens or ends a function. -/
def isBorder (x : FormedLine) : Bool :=
  x.index?.isSome || x.isCloser

end FormedLine

/-- The lines of a source unit and what they are, if every one passes its check. -/
def Source.Reads (s : Source) (xs : List FormedLine) : Prop :=
  List.Forall₂ (fun l x => x.number = l.number ∧
    LineForm.ofTokens l.number l.tokens = .ok x.form) s.significantLines xs

/-- Openers and closers alternate, an opener first and a closer last. -/
def Alternating : List FormedLine → Prop
  | [] => True
  | [_] => False
  | x :: y :: rest => x.index?.isSome = true ∧ y.isCloser = true ∧ Alternating rest

/-- The instructions of some lines. -/
def instructionsOf (xs : List FormedLine) : List Instruction :=
  xs.filterMap FormedLine.instruction?

/-- The functions of a unit: from each opener up to the next closer. -/
def blocks : List FormedLine → List Block
  | [] => []
  | ⟨number, .opener index paramCount⟩ :: rest =>
    ⟨number, index, paramCount, instructionsOf (rest.takeWhile fun x => !x.isCloser)⟩ :: blocks rest
  | _ :: rest => blocks rest

/-- The instructions that stand in no function. `inside` says whether a function is open. -/
def outside : Bool → List FormedLine → List Instruction
  | _, [] => []
  | _, ⟨_, .opener ..⟩ :: rest => outside true rest
  | _, ⟨_, .closer⟩ :: rest => outside false rest
  | false, ⟨_, .instruction i⟩ :: rest => i :: outside false rest
  | inside, _ :: rest => outside inside rest

/-! ## Items -/

/-- An instruction and the number of its line. -/
structure CodeLine where
  number : Nat
  instruction : Instruction

/-- The line of an instruction. -/
def CodeLine.formed (c : CodeLine) : FormedLine :=
  ⟨c.number, .instruction c.instruction⟩

/-- What stands at module level: an instruction, or a function with its opener and its closer. -/
inductive Item where
  | code (c : CodeLine)
  | block (line : Nat) (index paramCount : UInt32) (body : List CodeLine) (last : Nat)

namespace Item

def lines : Item → List FormedLine
  | code c => [c.formed]
  | block line index paramCount body last =>
    ⟨line, .opener index paramCount⟩ :: (body.map CodeLine.formed ++ [⟨last, .closer⟩])

/-- The function that an item is. -/
def block? : Item → Option Block
  | code _ => none
  | block line index paramCount body _ =>
    some ⟨line, index, paramCount, body.map CodeLine.instruction⟩

def code? : Item → Option Instruction
  | code c => some c.instruction
  | block .. => none

end Item

/-- The lines of some items. -/
def layout (items : List Item) : List FormedLine :=
  items.flatMap Item.lines

@[simp] theorem layout_nil : layout [] = [] := rfl

@[simp] theorem layout_code (c : CodeLine) (items : List Item) :
    layout (.code c :: items) = c.formed :: layout items := rfl

@[simp] theorem layout_block (line : Nat) (index paramCount : UInt32) (body : List CodeLine)
    (last : Nat) (items : List Item) :
    layout (.block line index paramCount body last :: items) =
      ⟨line, .opener index paramCount⟩ ::
        (body.map CodeLine.formed ++ ⟨last, .closer⟩ :: layout items) := by
  simp [layout, Item.lines]

theorem instructionsOf_formed (body : List CodeLine) :
    instructionsOf (body.map CodeLine.formed) = body.map CodeLine.instruction := by
  induction body with
  | nil => rfl
  | cons c body ih => exact congrArg (c.instruction :: ·) ih

theorem takeWhile_formed (body : List CodeLine) (last : Nat) (rest : List FormedLine) :
    (body.map CodeLine.formed ++ ⟨last, .closer⟩ :: rest).takeWhile (fun x => !x.isCloser) =
      body.map CodeLine.formed := by
  rw [takeWhile_append_of_pos]
  · simp [FormedLine.isCloser]
  · simp [CodeLine.formed, FormedLine.isCloser]

theorem blocks_formed (body : List CodeLine) (last : Nat) (rest : List FormedLine) :
    blocks (body.map CodeLine.formed ++ ⟨last, .closer⟩ :: rest) = blocks rest := by
  induction body with
  | nil => simp [blocks]
  | cons c body ih => simpa [CodeLine.formed, blocks] using ih

theorem outside_formed (body : List CodeLine) (last : Nat) (rest : List FormedLine) :
    outside true (body.map CodeLine.formed ++ ⟨last, .closer⟩ :: rest) = outside false rest := by
  induction body with
  | nil => simp [outside]
  | cons c body ih => simpa [CodeLine.formed, outside] using ih

theorem blocks_layout (items : List Item) : blocks (layout items) = items.filterMap Item.block? := by
  induction items with
  | nil => rfl
  | cons item items ih =>
    cases item with
    | code c =>
      rw [filterMap_cons_none rfl, ← ih]
      rfl
    | block line index paramCount body last =>
      simp [blocks, takeWhile_formed, instructionsOf_formed, blocks_formed, Item.block?, ih]

theorem outside_layout (items : List Item) :
    outside false (layout items) = items.filterMap Item.code? := by
  induction items with
  | nil => rfl
  | cons item items ih =>
    cases item with
    | code c => exact congrArg (c.instruction :: ·) ih
    | block line index paramCount body last =>
      rw [filterMap_cons_none rfl, ← ih, layout_block, outside, outside_formed]

theorem mem_instructionsOf_layout {items : List Item} {i : Instruction} :
    i ∈ instructionsOf (layout items) ↔
      (∃ b ∈ blocks (layout items), i ∈ b.body) ∨ i ∈ outside false (layout items) := by
  rw [blocks_layout, outside_layout]
  induction items with
  | nil => simp [instructionsOf]
  | cons item items ih =>
    have split (xs ys : List FormedLine) :
        instructionsOf (xs ++ ys) = instructionsOf xs ++ instructionsOf ys := by
      simp [instructionsOf]
    cases item with
    | code c =>
      have first : instructionsOf (layout (.code c :: items)) =
          c.instruction :: instructionsOf (layout items) := rfl
      simp only [first, mem_cons, ih, Item.block?, Item.code?, filterMap_cons]
      exact or_left_comm
    | block line index paramCount body last =>
      have first : instructionsOf (layout (.block line index paramCount body last :: items)) =
          body.map CodeLine.instruction ++ instructionsOf (layout items) := by
        rw [layout_block, ← instructionsOf_formed]
        exact split (body.map CodeLine.formed) (⟨last, .closer⟩ :: layout items)
      simp only [first, mem_append, ih, Item.block?, Item.code?, filterMap_cons,
        mem_cons, exists_eq_or_imp]
      exact or_assoc.symm

theorem alternating_layout (items : List Item) :
    Alternating ((layout items).filter FormedLine.isBorder) := by
  have plain (body : List CodeLine) :
      (body.map CodeLine.formed).filter FormedLine.isBorder = [] := by
    rw [filter_eq_nil_iff]
    simp [CodeLine.formed, FormedLine.isBorder, FormedLine.index?, FormedLine.isCloser]
  induction items with
  | nil => trivial
  | cons item items ih =>
    cases item with
    | code c => exact ih
    | block line index paramCount body last =>
      simp only [layout_block, filter_cons, filter_append, plain]
      exact ⟨rfl, rfl, ih⟩

/-- Lines with alternating borders are the lines of some items. Behind an opener, they are those of
the rest of a function and of some items. -/
theorem exists_items_of_alternating {xs : List FormedLine} (solid : ∀ x ∈ xs, x.form ≠ .empty) :
    (Alternating (xs.filter FormedLine.isBorder) → ∃ items, xs = layout items) ∧
      ∀ opener, Alternating (opener :: xs.filter FormedLine.isBorder) →
        ∃ (body : List CodeLine) (last : Nat) (items : List Item),
          xs = body.map CodeLine.formed ++ ⟨last, .closer⟩ :: layout items := by
  induction xs with
  | nil => exact ⟨fun _ => ⟨[], rfl⟩, fun opener => False.elim⟩
  | cons x xs ih =>
    obtain ⟨number, form⟩ := x
    obtain ⟨between, behind⟩ := ih fun y member => solid y (mem_cons_of_mem _ member)
    cases form with
    | empty => exact absurd rfl (solid _ mem_cons_self)
    | opener index paramCount =>
      refine ⟨fun alternating => ?_, fun opener alternating => ?_⟩
      · obtain ⟨body, last, items, rfl⟩ := behind _ alternating
        exact ⟨.block number index paramCount body last :: items, (layout_block ..).symm⟩
      · cases alternating.2.1
    | closer =>
      refine ⟨fun alternating => ?_, fun opener alternating => ?_⟩
      · have borders : (⟨number, .closer⟩ :: xs : List FormedLine).filter FormedLine.isBorder =
            ⟨number, .closer⟩ :: xs.filter FormedLine.isBorder := rfl
        rw [borders] at alternating
        cases others : xs.filter FormedLine.isBorder with
        | nil =>
          rw [others] at alternating
          exact alternating.elim
        | cons y ys =>
          rw [others] at alternating
          cases alternating.1
      · obtain ⟨items, rfl⟩ := between alternating.2.2
        exact ⟨[], number, items, rfl⟩
    | instruction i =>
      refine ⟨fun alternating => ?_, fun opener alternating => ?_⟩
      · obtain ⟨items, rfl⟩ := between alternating
        exact ⟨.code ⟨number, i⟩ :: items, rfl⟩
      · obtain ⟨body, last, items, rfl⟩ := behind opener alternating
        exact ⟨⟨number, i⟩ :: body, last, items, rfl⟩

end SlotLang
