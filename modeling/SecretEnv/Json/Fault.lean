import SecretEnv.Number.Shortest
import SecretEnv.Text.Quoted

/-!
Faults of a JSON text: where it stops being what was asked for, and why. A column counts the bytes
of the line up to and including the one that is wrong, or those read so far if it is what they add
up to that is wrong.
-/
namespace SecretEnv.Json

structure Position where
  line : Nat
  /-- In bytes from the start of the line. -/
  column : Nat
  deriving DecidableEq, Repr

namespace Position

def start : Position := ⟨1, 0⟩

def past (p : Position) (c : Char) : Position :=
  if c = '\n' then ⟨p.line + 1, 0⟩ else ⟨p.line, p.column + c.utf8Size⟩

def into (p : Position) (c : Char) : Position :=
  if c = '\n' then ⟨p.line + 1, 0⟩ else ⟨p.line, p.column + 1⟩

def pastBytes (p : Position) (count : Nat) : List Char → Position
  | [] => p
  | c :: rest =>
    if c.utf8Size ≤ count then (p.past c).pastBytes (count - c.utf8Size) rest
    else ⟨p.line, p.column + count⟩

end Position

inductive Found where
  | null
  | bool (b : Bool)
  | integer (i : Int)
  | double (negative : Bool) (x : Double)
  | string (s : String)
  | array
  | object
  deriving DecidableEq, Repr

def Found.describe : Found → String
  | null => "null"
  | bool true => "boolean `true`"
  | bool false => "boolean `false`"
  | integer i => "integer `" ++ toString i ++ "`"
  | double negative x =>
    "floating point `" ++ (if negative then "-" else "") ++ String.ofList x.render ++ "`"
  | string s => "string " ++ Text.quote s
  | array => "sequence"
  | object => "map"

inductive Flaw where
  | unfinishedArray
  | unfinishedObject
  | unfinishedString
  | unfinishedValue
  | noColon
  | noCommaInArray
  | noCommaInObject
  | noWord
  | noValue
  | noName
  | badEscape
  | badNumber
  | numberTooGreat
  | controlCharacter
  | loneSurrogate
  | brokenSurrogatePair
  | commaAtEnd
  | trailingText
  | mismatch (found : Found) (expected : String)
  | repeatedMember (name : String)
  deriving DecidableEq, Repr

def Flaw.message : Flaw → String
  | unfinishedArray => "EOF while parsing a list"
  | unfinishedObject => "EOF while parsing an object"
  | unfinishedString => "EOF while parsing a string"
  | unfinishedValue => "EOF while parsing a value"
  | noColon => "expected `:`"
  | noCommaInArray => "expected `,` or `]`"
  | noCommaInObject => "expected `,` or `\x7d`"
  | noWord => "expected ident"
  | noValue => "expected value"
  | noName => "key must be a string"
  | badEscape => "invalid escape"
  | badNumber => "invalid number"
  | numberTooGreat => "number out of range"
  | controlCharacter => "control character (\\u0000-\\u001F) found while parsing a string"
  | loneSurrogate => "lone leading surrogate in hex escape"
  | brokenSurrogatePair => "unexpected end of hex escape"
  | commaAtEnd => "trailing comma"
  | trailingText => "trailing characters"
  | mismatch found expected => "invalid type: " ++ found.describe ++ ", expected " ++ expected
  | repeatedMember name => "duplicate field `" ++ name ++ "`"

structure Fault where
  flaw : Flaw
  position : Position
  deriving DecidableEq, Repr

def Fault.message (fault : Fault) : String :=
  fault.flaw.message ++ " at line " ++ toString fault.position.line ++ " column "
    ++ toString fault.position.column

end SecretEnv.Json
