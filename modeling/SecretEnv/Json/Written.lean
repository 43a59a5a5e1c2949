import SecretEnv.Json.Token

/-!
The compact written form of a JSON value: no space between tokens, and in strings only quotes,
backslashes and control characters are escaped. Reading it gives the value back, so the form is
also what other programs are assumed to print.
-/
namespace SecretEnv.Json

def hexDigit (n : Nat) : Char :=
  if n < 10 then Char.ofNat ('0'.toNat + n) else Char.ofNat ('a'.toNat + (n - 10))

def escape (c : Char) : List Char :=
  match c with
  | '\x22' => ['\\', '\x22']
  | '\\' => ['\\', '\\']
  | '\x08' => ['\\', 'b']
  | '\x0c' => ['\\', 'f']
  | '\n' => ['\\', 'n']
  | '\r' => ['\\', 'r']
  | '\t' => ['\\', 't']
  | c =>
    if c.toNat < 0x20 then ['\\', 'u', '0', '0', hexDigit (c.toNat / 16), hexDigit (c.toNat % 16)]
    else [c]

/-- A string in quotes. Content that spells no text is written as the least that spells none. -/
def writeString : Content → List Char
  | some s => '\x22' :: (s.toList.flatMap escape ++ ['\x22'])
  | none => "\"\\ud800\"".toList

mutual

def Value.write : Value → List Char
  | .null => "null".toList
  | .bool true => "true".toList
  | .bool false => "false".toList
  | .number n => n.text
  | .string s => writeString s
  | .array elements => '[' :: (writeElements elements ++ [']'])
  | .object members => '\x7b' :: (writeMembers members ++ ['\x7d'])

def writeElements : List Value → List Char
  | [] => []
  | [v] => v.write
  | v :: rest => v.write ++ ',' :: writeElements rest

def writeMembers : List (Content × Value) → List Char
  | [] => []
  | [(name, v)] => writeString name ++ ':' :: v.write
  | (name, v) :: rest => writeString name ++ ':' :: (v.write ++ ',' :: writeMembers rest)

end

def Value.render (v : Value) : String :=
  String.ofList v.write

end SecretEnv.Json
