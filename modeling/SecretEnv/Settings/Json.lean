import SecretEnv.Json.Document
import SecretEnv.Json.Value
import SecretEnv.Json.Written
import SecretEnv.Settings

namespace SecretEnv

namespace Schedule

def toJson (schedule : Schedule) : Json.Value :=
  Json.text schedule.name

/-- A schedule is its name, or an object that holds the name with null. -/
def ofJson? : Json.Value → Option Schedule
  | .string (some name) => ofName? name
  | .object [(some name, .null)] => ofName? name
  | _ => none

end Schedule

namespace Settings

def memberNames : List String :=
  ["vault", "files", "readFiles", "resolveLocalOverrides", "schedule"]

def members (settings : Settings) : List (Json.Content × Json.Value) :=
  [Json.member "vault" (Json.Value.ofOptionalText settings.vault),
    Json.member "files" (.array (settings.files.map Json.text)),
    Json.member "readFiles" (.bool settings.readFiles),
    Json.member "resolveLocalOverrides" (.bool settings.localOverrides),
    Json.member "schedule" settings.schedule.toJson]

def toJson (settings : Settings) : Json.Value :=
  .object settings.members

def ofJson? (value : Json.Value) : Option Settings := do
  let members ← Json.record? memberNames value
  return {
    vault := ← members.withDefault? "vault" default.vault Json.Value.optionalText?
    files := ← members.withDefault? "files" default.files (Json.Value.list? Json.Value.text?)
    readFiles := ← members.withDefault? "readFiles" default.readFiles Json.Value.flag?
    localOverrides :=
      ← members.withDefault? "resolveLocalOverrides" default.localOverrides Json.Value.flag?
    schedule := ← members.withDefault? "schedule" default.schedule Schedule.ofJson?
  }

def render (settings : Settings) : String :=
  settings.toJson.render

def read? (text : String) : Option Settings :=
  (Json.parse? text.toList).bind ofJson?

def readLocalOverrides? (text : String) : Option Bool := do
  let value ← Json.parse? text.toList
  let members ← Json.record? ["resolveLocalOverrides"] value
  members.withDefault? "resolveLocalOverrides" default.localOverrides Json.Value.flag?

end Settings

end SecretEnv
