import SecretEnv.Expression
import SecretEnv.Json.Document
import SecretEnv.Json.Value
import SecretEnv.Json.Written

/-!
Expressions as JSON objects: `key`, `type` and, as the type asks for, `value` and `itemContext`.
Members that the type does not ask for are passed over, even when they are repeated, but they have
to be good JSON in the strict sense.
-/
namespace SecretEnv

namespace Rule

def Kind.ofJson? : Json.Value → Option Kind
  | .string (some name) => Kind.all.find? (·.name == name)
  | .number n => n.natural?.bind (Kind.all[·]?)
  | _ => none

def members (rule : Rule) : List (Json.Content × Json.Value) :=
  let value := match rule with
    | literal text => [Json.member "value" (Json.text text)]
    | reference target _ => [Json.member "value" (Json.text target)]
    | shorthand _ => []
  let item := match rule.item? with
    | some item => [Json.member "itemContext" (Json.text item)]
    | none => []
  Json.member "type" (Json.text rule.kind.name) :: (value ++ item)

def ofMembers? (members : Json.Members) : Option Rule := do
  match ← members.required? "type" Kind.ofJson? with
  | .literal => return .literal (← members.required? "value" Json.Value.text?)
  | .reference =>
    let target ← members.required? "value" Json.Value.text?
    return .reference target (← members.withDefault? "itemContext" none Json.Value.optionalText?)
  | .shorthand =>
    return .shorthand (← members.withDefault? "itemContext" none Json.Value.optionalText?)

end Rule

namespace Expression

/-- How deep the JSON form of an expression may nest, ignored members included. -/
def nestingLimit : Nat := 127

def toJson (e : Expression) : Json.Value :=
  .object (Json.member "key" (Json.text e.key) :: e.rule.members)

def ofJson? (value : Json.Value) : Option Expression := do
  let members ← Json.named? value
  let key ← members.required? "key" Json.Value.text?
  return ⟨key, ← Rule.ofMembers? members⟩

def render (e : Expression) : String :=
  e.toJson.render

def read? (text : String) : Option Expression :=
  (Json.parseStrict? nestingLimit text.toList).bind ofJson?

end Expression

end SecretEnv
