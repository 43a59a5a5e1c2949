import SecretEnv.Json.Numeral

/-!
JSON values as written: the members of an object stay in their order, repeated names included, so
that a decoder can tell a repetition from a choice. A record is an object, in which unknown members
are passed over and a known one stands at most once, or an array of the members in their fixed
order, from which members at the end may be left out. A missing member takes its default.
-/
namespace SecretEnv.Json

/-- The content of a string. It is absent when an escape names half of a surrogate pair and the
other half is not there: such a string is well formed and spells no text. -/
abbrev Content := Option String

inductive Value where
  | null
  | bool (b : Bool)
  | number (n : Numeral)
  | string (content : Content)
  | array (elements : List Value)
  | object (members : List (Content × Value))
  deriving Inhabited

def text (s : String) : Value :=
  .string (some s)

def member (name : String) (value : Value) : Content × Value :=
  (some name, value)

abbrev Members := List (String × Value)

def named? : Value → Option Members
  | .object members => members.mapM fun (name, value) => name.map (·, value)
  | _ => none

def record? (known : List String) : Value → Option Members
  | .array elements => if elements.length ≤ known.length then some (known.zip elements) else none
  | value => named? value

namespace Members

def single? (members : Members) (name : String) : Option (Option Value) :=
  match members.filter (·.1 == name) with
  | [] => some none
  | [found] => some (some found.2)
  | _ => none

def required? {α : Type} (members : Members) (name : String) (decode : Value → Option α) :
    Option α := do
  (← single? members name).bind decode

def withDefault? {α : Type} (members : Members) (name : String) (default : α)
    (decode : Value → Option α) : Option α := do
  match ← single? members name with
  | none => some default
  | some value => decode value

end Members

namespace Value

def text? : Value → Option String
  | .string content => content
  | _ => none

def optionalText? : Value → Option (Option String)
  | .null => some none
  | .string (some s) => some (some s)
  | _ => none

def flag? : Value → Option Bool
  | .bool b => some b
  | _ => none

def list? {α : Type} (decode : Value → Option α) : Value → Option (List α)
  | .array elements => elements.mapM decode
  | _ => none

def ofOptionalText : Option String → Value
  | some s => text s
  | none => .null

end Value

end SecretEnv.Json
