import SlotLang.Assembly.Emit
import SlotLang.Assembly.Instance

/-!
# Assembling modules

The text of a module goes to an assembler, and what comes back is checked before it is used. An
assembler is any function from modules to images or errors, together with a decoder for the bytes that
it may deliver; five of them are named.
-/

namespace SlotLang.Assembly

/-- Why a program has no image. -/
inductive BuildError where
  | emit (e : EmitError)
  | unavailable (program : String)
  | rejected (message : String)
  | noOutput
  | image (f : ImageFault)
  deriving DecidableEq, Repr, Inhabited

def BuildError.message : BuildError → String
  | emit e => e.message
  | unavailable program =>
    "wat2wasm not found (tried '" ++ program ++ "'); install wabt or set SUI_WAT2WASM"
  | rejected message => "wat2wasm rejected the module:\n" ++ message
  | noOutput => "assembler I/O error: No such file or directory (os error 2)"
  | image .badMagic => "assembler output is not a WebAssembly module (bad magic number)"
  | image .invalid => "WASM validation failed"

/-- An assembler is what it does with each module. -/
structure Assembler where
  assemble : Module → Except BuildError Image
  /-- The module in some bytes, if they are valid. The least that a decoder knows is the empty one. -/
  decode : List UInt8 → Option Module := fun bytes => if bytes = Image.header then some {} else none
  deriving Inhabited

namespace Assembler

def working : Assembler where
  assemble m := if m.isValid then .ok (.ofModule m) else .error (.rejected "")

/-- The program with this name cannot be started. -/
def unavailable (program : String) : Assembler where
  assemble _ := .error (.unavailable program)

def refusing (message : String) : Assembler where
  assemble _ := .error (.rejected message)

def delivering (bytes : List UInt8) : Assembler where
  assemble _ := .ok (.ofBytes bytes)

/-- Reports success without delivering anything. -/
def silent : Assembler where
  assemble _ := .error .noOutput

end Assembler

def Image.check (decode : List UInt8 → Option Module) (image : Image) : Except BuildError Unit :=
  match image.toModule decode with
  | .ok _ => .ok ()
  | .error f => .error (.image f)

def Image.ofProgram (a : Assembler) (p : Program) : Except BuildError Image := do
  let m ← (Module.ofProgram p).mapError .emit
  let image ← a.assemble m
  image.check a.decode
  return image

end SlotLang.Assembly
