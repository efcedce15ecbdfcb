import SlotLang.Reader.Statement
import SlotLang.Script.Text
import SlotLang.Subset.Lower
import SlotLang.Subset.Narrow

/-!
# Programs from Python source

Scripts that were written by `Script.text` carry a preamble and helper functions that the subset does
not need: their lines are blanked before reading, so that every other line keeps its number.
-/

namespace SlotLang.Subset

def isPreamble (line : String) : Bool :=
  line = "import sys" || line.startsWith "sys.setrecursionlimit("

/-- The first line of a helper function. -/
def isHelperDef (line : String) : Bool :=
  Script.helperNames.any fun name => line.startsWith ("def " ++ name ++ "(")

def isIndented (line : String) : Bool :=
  line.startsWith " " || line.startsWith "\t"

/-- Blanks the preamble and every helper function, which ends where something stands at the left
margin again. -/
def blankHelpers (inHelper : Bool) : List String → List String
  | [] => []
  | line :: rest =>
    if isPreamble line then "" :: blankHelpers inHelper rest
    else
      let inHelper := isHelperDef line ||
        (inHelper && (isIndented line || Text.isBlankText line))
      (if inHelper then "" else line) :: blankHelpers inHelper rest

/-- The source without preamble and helper functions. -/
def withoutHelpers (source : String) : String :=
  "\n".intercalate (blankHelpers false ((Text.terminatedLines source.toList).map String.ofList))

def parse (source : String) : Except Error (List Stmt) := do
  match Reader.parseModule source with
  | .ok body => narrowAll body
  | .error line => .error ⟨.grammar, line⟩

end SlotLang.Subset

namespace SlotLang

def Program.ofPython (source : String) : Except Subset.Error Program := do
  Subset.lower (← Subset.parse (Subset.withoutHelpers source))

end SlotLang
