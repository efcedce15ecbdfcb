import SlotLang.Machine.Run
import SlotLang.Program.Build

/-!
# Sessions

A session feeds source units to one environment. Each unit is parsed in the context of the functions
defined so far and then run; a unit that is rejected changes nothing.
-/

namespace SlotLang

/-- Why a unit did not run to its end. -/
inductive UnitError where
  | rejected (r : Report)
  | faulted (f : Fault)
  deriving Inhabited

/-- What a unit leaves behind. -/
structure UnitResult where
  error : Option UnitError := none
  outputs : List Value := []
  env : Environment
  deriving Inhabited

namespace Environment

def runSource (limits : Limits) (e : Environment) (source : Source) : UnitResult :=
  match Program.parse source (UInt32.ofNat e.funcCount) with
  | .error r => { error := some (.rejected r), env := e }
  | .ok p =>
    let r := e.run limits p
    { error := r.fault?.map .faulted, outputs := r.outputs, env := r.env }

end Environment

def outputText (vs : List Value) : String :=
  Text.unlines (vs.map Value.text)

end SlotLang
