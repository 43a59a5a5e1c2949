import SecretEnv.Json.Fault
import SecretEnv.Json.Token

/-!
A place in a JSON text, and the steps over one part of it that have no parts of their own: spaces,
words, numbers and strings. A step ends behind the part or at the first fault.
-/
namespace SecretEnv.Json

structure Cursor where
  position : Position
  rest : List Char

namespace Cursor

def ofText (text : List Char) : Cursor :=
  ⟨.start, text⟩

def peek? (c : Cursor) : Option Char :=
  c.rest.head?

def skip (c : Cursor) : Cursor :=
  match c.rest with
  | [] => c
  | x :: rest => ⟨c.position.past x, rest⟩

def here (c : Cursor) (flaw : Flaw) : Fault :=
  ⟨flaw, c.position⟩

/-- A fault in the next byte; at the end of the text, one in what has been read. -/
def ahead (c : Cursor) (flaw : Flaw) : Fault :=
  ⟨flaw, (c.peek?.map c.position.into).getD c.position⟩

def skipWhile (kind : Char → Bool) (c : Cursor) : Cursor :=
  go c.position c.rest
where
  go (p : Position) : List Char → Cursor
    | [] => ⟨p, []⟩
    | x :: rest => if kind x then go (p.past x) rest else ⟨p, x :: rest⟩

def spaces (c : Cursor) : Cursor :=
  c.skipWhile Token.isSpace

def upTo (c after : Cursor) : List Char :=
  c.rest.take (c.rest.length - after.rest.length)

def word : List Char → Cursor → Except Fault Cursor
  | [], c => .ok c
  | letter :: letters, c =>
    match c.peek? with
    | none => .error (c.here .unfinishedValue)
    | some x => if x = letter then word letters c.skip else .error (c.ahead .noWord)

def digits (atEnd : Flaw) (c : Cursor) : Except Fault Cursor :=
  match c.peek? with
  | none => .error (c.here atEnd)
  | some x => if x.isDigit then .ok (c.skipWhile Char.isDigit) else .error (c.ahead .badNumber)

def exponent (atEnd : Flaw) (c : Cursor) : Except Fault Cursor :=
  if c.peek? = some 'e' ∨ c.peek? = some 'E' then
    let c := c.skip
    if c.peek? = some '+' ∨ c.peek? = some '-' then c.skip.digits atEnd else c.digits atEnd
  else .ok c

def fraction (atEnd : Flaw) (c : Cursor) : Except Fault Cursor :=
  if c.peek? = some '.' then (c.skip.digits atEnd).bind (exponent atEnd) else c.exponent atEnd

def number (atEnd : Flaw) (c : Cursor) : Except Fault Cursor :=
  let c := if c.peek? = some '-' then c.skip else c
  if c.peek? = some '0' then
    let c := c.skip
    if c.peek?.any Char.isDigit then .error (c.ahead .badNumber) else c.fraction atEnd
  else (c.digits atEnd).bind (fraction atEnd)

/-- The unit that four hexadecimal digits name. Four bytes are read before they are looked at. -/
def unit (c : Cursor) : Except Fault (Nat × Cursor) :=
  match c.rest with
  | i :: j :: k :: l :: _ =>
    match Token.hexDigit? i, Token.hexDigit? j, Token.hexDigit? k, Token.hexDigit? l with
    | some i, some j, some k, some l =>
      .ok (((16 * i + j) * 16 + k) * 16 + l, c.skip.skip.skip.skip)
    | _, _, _, _ => .error ⟨.badEscape, c.position.pastBytes 4 c.rest⟩
  | rest =>
    let flaw := if (String.ofList rest).utf8ByteSize < 4 then Flaw.unfinishedString else .badEscape
    .error ⟨flaw, c.position.pastBytes 4 rest⟩

def lowSurrogate (high : Nat) (c : Cursor) : Except Fault (Char × Cursor) :=
  match c.rest with
  | [] => .error (c.here .unfinishedString)
  | '\\' :: [] => .error (c.skip.here .unfinishedString)
  | '\\' :: 'u' :: _ =>
    match c.skip.skip.unit with
    | .error fault => .error fault
    | .ok (low, after) =>
      if Letter.isLowSurrogate low then .ok (Letter.pair high low, after)
      else .error (after.here .loneSurrogate)
  | '\\' :: _ => .error (c.skip.ahead .brokenSurrogatePair)
  | _ => .error (c.ahead .brokenSurrogatePair)

/-- What follows a backslash. Unless the string has to spell a text, what an escape of a unit stands
for is left open. -/
def escape (spelled : Bool) (c : Cursor) : Except Fault (Char × Cursor) :=
  match c.rest with
  | [] => .error (c.here .unfinishedString)
  | 'u' :: _ =>
    match c.skip.unit with
    | .error fault => .error fault
    | .ok (value, after) =>
      if !spelled then .ok ('\uFFFD', after)
      else if Letter.isLowSurrogate value then .error (after.here .loneSurrogate)
      else if Letter.isHighSurrogate value then after.lowSurrogate value
      else .ok (Char.ofNat value, after)
  | x :: _ =>
    match Token.escaped? x with
    | some letter => .ok (letter, c.skip)
    | none => .error (c.ahead .badEscape)

def stringFrom (spelled : Bool) : Nat → List Char → Cursor → Except Fault (String × Cursor)
  | 0, _, c => .error (c.here .unfinishedString)
  | fuel + 1, read, c =>
    match c.peek? with
    | none => .error (c.here .unfinishedString)
    | some x =>
      if x = '\x22' then .ok (String.ofList read.reverse, c.skip)
      else if x = '\\' then
        match c.skip.escape spelled with
        | .error fault => .error fault
        | .ok (letter, after) => stringFrom spelled fuel (letter :: read) after
      else if x.toNat < 0x20 then
        .error (if spelled then c.ahead .controlCharacter else c.here .controlCharacter)
      else stringFrom spelled fuel (x :: read) c.skip

def string (spelled : Bool) (c : Cursor) : Except Fault (String × Cursor) :=
  stringFrom spelled (c.rest.length + 1) [] c

end Cursor

end SecretEnv.Json
