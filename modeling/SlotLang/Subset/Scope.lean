import SlotLang.Subset.Problem
import SlotLang.Subset.Tree

/-!
# Names and slots of the subset

Names of the form `gN` at module level and `vN` in functions keep their number, every other name gets
a number above the highest of those, in the order of first mention. Numbers above all names are free
for temporary values. Parameters are arguments, numbered by position.
-/

namespace SlotLang.Subset

def builtins : List String :=
  ["print", "int", "_wrap", "_div", "_rem"]

/-- The number in a name that is a letter followed by a number without leading zeros. -/
def slotNumber? (letter : Char) (name : String) : Option UInt32 :=
  match name.toList with
  | [] => none
  | c :: digits =>
    if c = letter ∧ Text.isDigits digits then
      (Text.readIndex? digits).filter fun n => (toString n.toNat).toList = digits
    else none

/-! ## Slot tables -/

/-- Slots of names, and the first number above all of them. -/
structure SlotTable where
  entries : List (String × UInt32) := []
  next : UInt32 := 0
  deriving DecidableEq, Repr, Inhabited

namespace SlotTable

/-- The slots of different names. Numbers are 32 bits wide and wrap. -/
def ofNames (letter : Char) (names : List String) : SlotTable :=
  let numbered := names.filterMap fun name => (slotNumber? letter name).map (name, ·)
  let others := names.filter fun name => (slotNumber? letter name).isNone
  let base := (numbered.map fun entry => entry.2 + 1).foldl max 0
  { entries := numbered ++ others.zipIdx.map fun (name, i) => (name, base + UInt32.ofNat i)
    next := base + UInt32.ofNat others.length }

def slot? (t : SlotTable) (name : String) : Option UInt32 :=
  t.entries.lookup name

end SlotTable

/-! ## Functions -/

/-- A function defined at module level. -/
structure Def where
  index : UInt32
  name : String
  params : List String
  body : List Stmt
  line : Nat
  deriving Inhabited

def rejectDefs (c : Construct) (body : List Stmt) : Except Error Unit :=
  match firstDefIn? body with
  | some line => unsupported c line
  | none => .ok ()

/-- The functions of a program after some others. Functions stand at module level, and each name is
defined once. -/
def collectDefs (found : List Def) : List Stmt → Except Error (List Def)
  | [] => .ok found
  | .funcDef name params body line :: rest => do
    if builtins.contains name then unsupported (.builtinRedefined name) line
    if found.any (·.name = name) then unsupported (.functionRedefined name) line
    rejectDefs .nestedFunction body
    let index := UInt32.ofNat found.length
    collectDefs (found ++ [{ index, name, params, body, line }]) rest
  | .cond _ body otherwise _ :: rest => do
    rejectDefs .functionInBlock body
    rejectDefs .functionInBlock otherwise
    collectDefs found rest
  | .whileLoop _ body _ :: rest => do
    rejectDefs .functionInBlock body
    collectDefs found rest
  | _ :: rest => collectDefs found rest

/-- What the names of a function stand for. -/
structure FuncScope where
  params : List String
  /-- The names declared global. -/
  declared : List String
  locals : SlotTable
  deriving DecidableEq, Repr, Inhabited

namespace FuncScope

/-- The scope of a function: names that it assigns are local, unless they are parameters or declared
global. -/
def ofBody (params : List String) (body : List Stmt) : FuncScope :=
  let declared := (declaredIn body).eraseDups
  let assigned := (assignedIn body).eraseDups.filter fun name =>
    !params.contains name && !declared.contains name
  { params, declared, locals := .ofNames 'v' assigned }

def binds (s : FuncScope) (name : String) : Bool :=
  s.params.contains name || (s.locals.slot? name).isSome

/-- The names of a body that are not its own: the declared ones in alphabetical order, then all in
the order they stand. -/
def outerNames (s : FuncScope) (body : List Stmt) : List String :=
  s.declared.mergeSort (fun a b => decide (a ≤ b)) ++
    (namesOf body).filter fun name => !s.binds name

end FuncScope

/-- The scope of a function, in which no parameter is declared global. -/
def Def.scope (d : Def) : Except Error FuncScope :=
  let scope := FuncScope.ofBody d.params d.body
  match d.params.find? scope.declared.contains with
  | some name => misuse (.paramAndGlobal name) d.line
  | none => .ok scope

/-! ## Modules -/

/-- What names stand for everywhere in a program. -/
structure ModuleScope where
  defs : List Def
  globals : SlotTable
  deriving Inhabited

namespace ModuleScope

def func? (m : ModuleScope) (name : String) : Option Def :=
  m.defs.find? (·.name = name)

def moduleNames : Stmt → List String
  | .funcDef _ params body _ => (FuncScope.ofBody params body).outerNames body
  | s => s.names

def ofProgram (defs : List Def) (body : List Stmt) : ModuleScope :=
  let isFree (name : String) := !defs.any (·.name = name) && !builtins.contains name
  { defs, globals := .ofNames 'g' ((body.flatMap moduleNames).filter isFree).eraseDups }

end ModuleScope

end SlotLang.Subset
