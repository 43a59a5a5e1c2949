import SecretEnv.Run
import SecretEnv.Text

/-!
Settings of a whole load, and the changes that can be made to them one after another. A change
writes the settings it names and leaves the others alone; environment variables that say nothing
write nothing.
-/
namespace SecretEnv

structure Settings where
  vault : Option String
  files : List String
  readFiles : Bool
  localOverrides : Bool
  schedule : Schedule
  deriving DecidableEq, Repr

namespace Settings

def default : Settings :=
  ⟨none, [".env0"], true, true, .primeThenFanOut⟩

abbrev Variables := String → Option String

def vaultVariable : String := "ENV0_VAULT"

def filesVariable : String := "ENV0_FILES"

def nonBlank? (text : String) : Option String :=
  let trimmed := Text.trim text.toList
  if trimmed = [] then none else some (String.ofList trimmed)

/-- The names in a comma-separated list. Blanks around a name and blank pieces say nothing. -/
def fileNames (text : String) : List String :=
  (text.toList.splitOn ',').filterMap fun piece => nonBlank? (String.ofList piece)

def mergeVault (settings : Settings) (vars : Variables) : Settings :=
  match (vars vaultVariable).bind nonBlank? with
  | some vault => { settings with vault := some vault }
  | none => settings

def mergeFiles (settings : Settings) (vars : Variables) : Settings :=
  match (vars filesVariable).map fileNames with
  | some (name :: rest) => { settings with files := name :: rest }
  | _ => settings

def mergeVariables (settings : Settings) (vars : Variables) : Settings :=
  (settings.mergeVault vars).mergeFiles vars

inductive Change where
  | mergeVariables (vars : Variables)
  | fromVariables (vars : Variables)
  | vault (name : String)
  | files (names : List String)
  | readFiles (enabled : Bool)
  | localOverrides (enabled : Bool)
  | schedule (schedule : Schedule)

def apply (settings : Settings) : Change → Settings
  | .mergeVariables vars => settings.mergeVariables vars
  | .fromVariables vars => default.mergeVariables vars
  | .vault name => { settings with vault := some name }
  | .files names => { settings with files := names }
  | .readFiles enabled => { settings with readFiles := enabled }
  | .localOverrides enabled => { settings with localOverrides := enabled }
  | .schedule schedule => { settings with schedule := schedule }

def applyAll (settings : Settings) (changes : List Change) : Settings :=
  changes.foldl apply settings

end Settings

end SecretEnv
