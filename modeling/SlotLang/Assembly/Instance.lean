import SlotLang.Assembly.Check
import SlotLang.Assembly.Exec

/-!
# Modules in use

An image is what an assembler delivers: bytes, or a module that it put together. Only the eight
bytes at the start of the latter are of interest. Which bytes are valid, and what module they hold, is
for a decoder to say. A valid image can be loaded; the instance keeps globals and printed values
between calls, and printed values stay until they are taken.
-/

namespace SlotLang.Assembly

/-- What an assembler delivers. -/
inductive Image where
  | ofModule (m : Module)
  | ofBytes (bytes : List UInt8)
  deriving Inhabited

/-- What is wrong with an image. -/
inductive ImageFault where
  | badMagic
  | invalid
  deriving DecidableEq, Repr, Inhabited

namespace Image

/-- The first four bytes of every module. -/
def magic : List UInt8 :=
  [0x00, 0x61, 0x73, 0x6d]

/-- The first eight bytes of every module: the magic number and the version. -/
def header : List UInt8 :=
  magic ++ [0x01, 0x00, 0x00, 0x00]

/-- The first eight bytes of an image. -/
def start : Image → List UInt8
  | ofModule _ => header
  | ofBytes bytes => bytes.take 8

/-- The module in an image. Plain bytes hold the module that the decoder finds in them. -/
def toModule (decode : List UInt8 → Option Module) : Image → Except ImageFault Module
  | ofModule m => if m.isValid && m.isWithinLimits then .ok m else .error .invalid
  | ofBytes bytes =>
    if magic.isPrefixOf bytes then (decode bytes).elim (.error .invalid) .ok
    else .error .badMagic

end Image

/-- A loaded module. -/
structure Instance where
  code : Module := {}
  store : Store := {}
  deriving Inhabited

/-- Why an instance refuses or fails a request. -/
inductive UseError where
  | missingExport (name : String)
  | argumentCount (name : String) (expected found : Nat)
  | trapped (t : Trap)
  deriving DecidableEq, Repr, Inhabited

/-- Why an image cannot be loaded, in words. -/
def ImageFault.loadMessage : ImageFault → String
  | badMagic => "cannot load WebAssembly module: bad magic number"
  | invalid => "cannot load WebAssembly module: invalid module"

def UseError.message : UseError → String
  | missingExport name => "module has no export named '" ++ name ++ "'"
  | argumentCount name expected found =>
    "export '" ++ name ++ "' takes " ++ toString expected ++ " argument(s), got " ++ toString found
  | trapped t => "WebAssembly trap: " ++ t.message

namespace Instance

/-- A module with its globals at zero. -/
def ofModule (m : Module) : Instance where
  code := m
  store := { globals := Array.replicate m.globalCount.toNat 0 }

def ofImage (decode : List UInt8 → Option Module) (image : Image) : Except ImageFault Instance :=
  (image.toModule decode).map ofModule

/-- More steps than a module takes where the default gas is enough for the interpreter. -/
def patience : Nat := 0x4000000000000000

/-- Runs a frame. A run that gets stuck or takes more steps than that has no answer, and counts as zero.
No run that ends as the interpreter does is one of these. -/
def execute (inst : Instance) (f : Frame) : Instance × Except UseError Value :=
  let (outcome, store) := State.run inst.code patience { store := inst.store, frame := f }
  let inst := { inst with store }
  match outcome with
  | .finished result => (inst, .ok (result.getD 0))
  | .trapped t => (inst, .error (.trapped t))
  | .stuck | .outOfFuel => (inst, .ok 0)

def takeOutput (inst : Instance) : Instance × List Value :=
  ({ inst with store := { inst.store with output := #[] } }, inst.store.output.toList)

/-- Runs the entry point and takes everything printed so far; a trap leaves it where it is. -/
def runMain (inst : Instance) : Instance × Except UseError (List Value) :=
  match inst.code.entry with
  | none => (inst, .error (.missingExport mainExport))
  | some d =>
    match inst.execute (.ofMain d) with
    | (inst, .ok _) =>
      let (inst, output) := inst.takeOutput
      (inst, .ok output)
    | (inst, .error e) => (inst, .error e)

/-- The number of parameters of an exported function, and its frame for some arguments. The entry
point counts as a function without parameters. -/
def export? (inst : Instance) (name : String) : Option (Nat × (List Value → Frame)) :=
  if name = mainExport then inst.code.entry.map fun d => (0, fun _ => .ofMain d)
  else (inst.code.funcs.find? fun f => funcExport f.index == name).map fun f =>
    (f.paramCount.toNat, .ofFunc f)

/-- Calls an exported function by name; the entry point gives zero. -/
def call (inst : Instance) (name : String) (args : List Value) : Instance × Except UseError Value :=
  match inst.export? name with
  | none => (inst, .error (.missingExport name))
  | some (expected, frame) =>
    if args.length = expected then inst.execute (frame args)
    else (inst, .error (.argumentCount name expected args.length))

def globals (inst : Instance) : List (String × Value) :=
  inst.store.globals.toList.zipIdx.map fun (v, n) => ("g" ++ toString n, v)

def global (inst : Instance) (name : String) : Except UseError Value :=
  (inst.globals.lookup name).elim (.error (.missingExport name)) .ok

end Instance

end SlotLang.Assembly
