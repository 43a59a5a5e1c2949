import SecretEnv.Json.Document
import SecretEnv.Json.Shape
import SecretEnv.Json.Value
import SecretEnv.Json.Written
import SecretEnv.Vault.Item

/-!
Vault items as JSON records. Every member may be missing: texts are then empty, the purpose and the
value are none, and there are no fields. Only the purpose and the value may be null. A text that is
no item is refused with its first fault.
-/
namespace SecretEnv

namespace ItemField

def memberNames : List String :=
  ["id", "type", "purpose", "label", "value"]

def shape : Json.Shape :=
  .record "struct ItemField" [("id", .text), ("type", .text), ("purpose", .optionalText),
    ("label", .text), ("value", .optionalText)]

/-- A purpose that is none is left out, a value that is none is null. -/
def toJson (field : ItemField) : Json.Value :=
  .object <|
    [Json.member "id" (Json.text field.id), Json.member "type" (Json.text field.type)]
      ++ (match field.purpose with
        | some purpose => [Json.member "purpose" (Json.text purpose)]
        | none => [])
      ++ [Json.member "label" (Json.text field.label),
        Json.member "value" (Json.Value.ofOptionalText field.value)]

def ofJson? (value : Json.Value) : Option ItemField := do
  let members ← Json.record? memberNames value
  return {
    id := ← members.withDefault? "id" "" Json.Value.text?
    type := ← members.withDefault? "type" "" Json.Value.text?
    purpose := ← members.withDefault? "purpose" none Json.Value.optionalText?
    label := ← members.withDefault? "label" "" Json.Value.text?
    value := ← members.withDefault? "value" none Json.Value.optionalText?
  }

end ItemField

namespace Item

def memberNames : List String :=
  ["id", "title", "fields"]

def shape : Json.Shape :=
  .record "struct VaultItem" [("id", .text), ("title", .text), ("fields", .list ItemField.shape)]

def toJson (item : Item) : Json.Value :=
  .object [Json.member "id" (Json.text item.id), Json.member "title" (Json.text item.title),
    Json.member "fields" (.array (item.fields.map ItemField.toJson))]

def ofJson? (value : Json.Value) : Option Item := do
  let members ← Json.record? memberNames value
  return {
    id := ← members.withDefault? "id" "" Json.Value.text?
    title := ← members.withDefault? "title" "" Json.Value.text?
    fields := ← members.withDefault? "fields" [] (Json.Value.list? ItemField.ofJson?)
  }

def render (item : Item) : String :=
  item.toJson.render

def readChars? (text : List Char) : Option Item :=
  (Json.parse? text).bind ofJson?

def read? (text : String) : Option Item :=
  readChars? text.toList

def complaint (text : List Char) : String :=
  ((shape.fault? text).map Json.Fault.message).getD ""

end Item

end SecretEnv
