import SecretEnv.Expression
import SecretEnv.Text

/-!
The forms of one line.

* `[item:NAME]` opens the section of a vault item;
* `KEY="text"` and `KEY='text'` give a literal;
* `KEY=NAME` refers to a secret by another name;
* `KEY` refers to the secret of its own name.

Blanks may stand around the equals sign and around the name of a section. A literal runs to the
last character of the line, so it may hold quotes and equals signs and needs no escapes. Identifiers
are ASCII: a letter, then letters, digits and underscores.
-/
namespace SecretEnv

namespace Identifier

def isStart (c : Char) : Bool :=
  c.isAlpha

def isPart (c : Char) : Bool :=
  c.isAlphanum || c == '_'

def spelledBy : List Char → Bool
  | [] => false
  | c :: rest => isStart c && rest.all isPart

def check (name : String) : Bool :=
  spelledBy name.toList

end Identifier

inductive LineError where
  | malformed (line : String)
  | unnamedSection
  | sectionInEntry (line : String)
  deriving DecidableEq, Repr

namespace LineError

def line? : LineError → Option String
  | malformed line => some line
  | unnamedSection => none
  | sectionInEntry line => some line

def message : LineError → String
  | malformed line => "Invalid environment variable expression: " ++ line
  | unnamedSection => "Invalid section: item name cannot be empty"
  | sectionInEntry line => "Section headers are not allowed in inline entries: " ++ line

end LineError

namespace Line

open SecretEnv.Text

def sectionMark : List Char :=
  ['[', 'i', 't', 'e', 'm', ':']

/-- The characters between the brackets of a section header, the mark left out. A bracket inside
makes the line no header. -/
def headerBody? (line : List Char) : Option (List Char) :=
  if sectionMark.isPrefixOf line then
    let body := line.drop sectionMark.length
    if body.getLast? = some ']' ∧ ']' ∉ body.dropLast then some body.dropLast else none
  else none

def section? (line : String) : Except LineError (Option String) :=
  match headerBody? line.toList with
  | none => .ok none
  | some body =>
    if trim body = [] then .error .unnamedSection else .ok (some (String.ofList (trim body)))

def isQuote (c : Char) : Bool :=
  c == '\x22' || c == '\x27'

def quoted? : List Char → Option (List Char)
  | [] => none
  | quote :: rest =>
    if isQuote quote ∧ rest.getLast? = some quote ∧ rest.dropLast ≠ [] then some rest.dropLast
    else none

/-- Reads a line inside the section of `item`. References and shorthands are scoped to it, literals
are not. -/
def expression (line : String) (item : Option String) : Except LineError Expression :=
  let chars := line.toList
  let left := chars.takeWhile (· != '=')
  match chars.dropWhile (· != '=') with
  | [] =>
    if Identifier.spelledBy chars then .ok ⟨line, .shorthand item⟩ else .error (.malformed line)
  | _ :: rest =>
    let key := trimEnd left
    let right := trimStart rest
    if Identifier.spelledBy key then
      match quoted? right with
      | some text => .ok ⟨String.ofList key, .literal (String.ofList text)⟩
      | none =>
        if Identifier.spelledBy right then
          .ok ⟨String.ofList key, .reference (String.ofList right) item⟩
        else .error (.malformed line)
    else .error (.malformed line)

end Line

end SecretEnv
