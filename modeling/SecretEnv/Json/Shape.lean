import SecretEnv.Json.Cursor

/-!
Shapes of JSON texts, and the first place at which a text departs from a shape. Records may be
objects or arrays, as everywhere in this library, and no member has to be there. Values of unknown
members may be anything that is well formed.
-/
namespace SecretEnv.Json

inductive Enclosing where
  | array
  | object
  deriving DecidableEq, Repr

namespace Enclosing

def closing : Enclosing → Char
  | array => ']'
  | object => '\x7d'

def unfinished : Enclosing → Flaw
  | array => .unfinishedArray
  | object => .unfinishedObject

def noComma : Enclosing → Flaw
  | array => .noCommaInArray
  | object => .noCommaInObject

end Enclosing

namespace Cursor

def scalar (c : Cursor) : Except Fault Cursor :=
  match c.peek? with
  | some 'n' => word ['n', 'u', 'l', 'l'] c
  | some 't' => word ['t', 'r', 'u', 'e'] c
  | some 'f' => word ['f', 'a', 'l', 's', 'e'] c
  | some '\x22' => (c.skip.string false).map Prod.snd
  | some x => if x = '-' ∨ x.isDigit then c.number .badNumber else .error (c.ahead .noValue)
  | none => .error (c.here .unfinishedValue)

/-- Goes on to the next value inside the open arrays and objects, past what closes some of them; if
all are closed, none is returned. `filled` says whether the innermost one holds a value already. -/
def close : List Enclosing → Bool → Cursor → Except Fault (List Enclosing × Cursor)
  | [], _, c => .ok ([], c)
  | inner :: outer, filled, c =>
    let c := c.spaces
    match c.peek? with
    | none => .error (c.here inner.unfinished)
    | some x =>
      if x = inner.closing then close outer true c.skip
      else if !filled then .ok (inner :: outer, c)
      else if x = ',' then .ok (inner :: outer, c.skip)
      else .error (c.ahead inner.noComma)

def colon (c : Cursor) : Except Fault Cursor :=
  let c := c.spaces
  match c.peek? with
  | some ':' => .ok c.skip
  | some _ => .error (c.ahead .noColon)
  | none => .error (c.here .unfinishedObject)

def anyName (c : Cursor) : Except Fault Cursor :=
  let c := c.spaces
  match c.peek? with
  | some '\x22' => (c.skip.string false).bind fun (_, after) => after.colon
  | some _ => .error (c.ahead .noName)
  | none => .error (c.here .unfinishedObject)

def anyValueIn : Nat → List Enclosing → Cursor → Except Fault Cursor
  | 0, _, c => .error (c.here .unfinishedValue)
  | fuel + 1, enclosing, c =>
    let c := c.spaces
    let entered : Except Fault (List Enclosing × Cursor) :=
      match c.peek? with
      | some '[' => close (.array :: enclosing) false c.skip
      | some '\x7b' => close (.object :: enclosing) false c.skip
      | _ => c.scalar.bind (close enclosing true)
    match entered with
    | .error fault => .error fault
    | .ok ([], c) => .ok c
    | .ok (.array :: outer, c) => anyValueIn fuel (.array :: outer) c
    | .ok (.object :: outer, c) =>
      match c.anyName with
      | .error fault => .error fault
      | .ok c => anyValueIn fuel (.object :: outer) c

def anyValue (c : Cursor) : Except Fault Cursor :=
  anyValueIn (c.rest.length + 1) [] c

def foundNumber? (n : Numeral) : Option Found :=
  let magnitude := Numeral.magnitude n.whole
  if n.integral ∧ !n.negative ∧ magnitude < Numeral.wordSize then some (.integer magnitude)
  else if n.integral ∧ n.negative ∧ 0 < magnitude ∧ 2 * magnitude ≤ Numeral.wordSize then
    some (.integer (-magnitude))
  else n.double?.map (.double n.negative)

def mismatchedNumber (expected : String) (c : Cursor) : Fault :=
  match c.number .unfinishedValue with
  | .error fault => fault
  | .ok after =>
    match Numeral.ofChars? (c.upTo after) with
    | none => after.here .badNumber
    | some n =>
      match foundNumber? n with
      | some found => after.here (.mismatch found expected)
      | none => ⟨.numberTooGreat, c.position.pastBytes n.lengthToOverflow c.rest⟩

def mismatched (expected : String) (c : Cursor) : Fault :=
  let word (letters : List Char) (found : Found) : Fault :=
    match c.word letters with
    | .error fault => fault
    | .ok after => after.here (.mismatch found expected)
  match c.peek? with
  | some 'n' => word ['n', 'u', 'l', 'l'] .null
  | some 't' => word ['t', 'r', 'u', 'e'] (.bool true)
  | some 'f' => word ['f', 'a', 'l', 's', 'e'] (.bool false)
  | some '[' => c.here (.mismatch .array expected)
  | some '\x7b' => c.here (.mismatch .object expected)
  | some '\x22' =>
    match c.skip.string true with
    | .error fault => fault
    | .ok (s, after) => after.here (.mismatch (.string s) expected)
  | some x =>
    if x = '-' ∨ x.isDigit then c.mismatchedNumber expected else c.ahead .noValue
  | none => c.here .unfinishedValue

def nextElement? (first : Bool) (c : Cursor) : Except Fault (Option Cursor) :=
  let c := c.spaces
  match c.peek? with
  | none => .error (c.here .unfinishedArray)
  | some ']' => .ok none
  | some x =>
    if first then .ok (some c)
    else if x = ',' then
      let c := c.skip.spaces
      match c.peek? with
      | some ']' => .error (c.ahead .commaAtEnd)
      | some _ => .ok (some c)
      | none => .error (c.here .unfinishedValue)
    else .error (c.ahead .noCommaInArray)

def endOfArray (c : Cursor) : Except Fault Cursor :=
  let c := c.spaces
  match c.peek? with
  | some ']' => .ok c.skip
  | some ',' =>
    let c := c.skip.spaces
    .error (c.ahead (if c.peek? = some ']' then .commaAtEnd else .trailingText))
  | some _ => .error (c.ahead .trailingText)
  | none => .error (c.here .unfinishedArray)

def nextName? (first : Bool) (c : Cursor) : Except Fault (Option (String × Cursor)) :=
  let c := c.spaces
  let name (c : Cursor) : Except Fault (Option (String × Cursor)) :=
    match c.peek? with
    | some '\x22' => (c.skip.string true).map some
    | some '\x7d' => .error (c.ahead .commaAtEnd)
    | some _ => .error (c.ahead .noName)
    | none => .error (c.here .unfinishedValue)
  match c.peek? with
  | none => .error (c.here .unfinishedObject)
  | some '\x7d' => .ok none
  | some x =>
    if first then name c
    else if x = ',' then name c.skip.spaces
    else .error (c.ahead .noCommaInObject)

end Cursor

inductive Shape where
  | text
  | optionalText
  | list (element : Shape)
  | record (description : String) (members : List (String × Shape))

namespace Shape

open Cursor

/-- The fault of a member that is there already. The spaces behind its name are read, and the end of
the object if it stands there. -/
def repeated (name : String) (c : Cursor) : Fault :=
  let c := c.spaces
  (if c.peek? = some '\x7d' then c.skip else c).here (.repeatedMember name)

mutual

def follow : Nat → Shape → Cursor → Except Fault Cursor
  | 0, _, c => .error (c.here .unfinishedValue)
  | fuel + 1, shape, c =>
    let c := c.spaces
    match shape, c.peek? with
    | _, none => .error (c.here .unfinishedValue)
    | .text, some '\x22' => (c.skip.string true).map Prod.snd
    | .text, some _ => .error (c.mismatched "a string")
    | .optionalText, some 'n' => word ['n', 'u', 'l', 'l'] c
    | .optionalText, some _ => follow fuel .text c
    | .list element, some '[' => followElements fuel element true c.skip
    | .list _, some _ => .error (c.mismatched "a sequence")
    | .record _ members, some '[' =>
      (followPlaces fuel (members.map Prod.snd) true c.skip).bind endOfArray
    | .record _ members, some '\x7b' => followMembers fuel members [] true c.skip
    | .record description _, some _ => .error (c.mismatched description)

def followElements : Nat → Shape → Bool → Cursor → Except Fault Cursor
  | 0, _, _, c => .error (c.here .unfinishedArray)
  | fuel + 1, element, first, c =>
    match c.nextElement? first with
    | .error fault => .error fault
    | .ok none => c.endOfArray
    | .ok (some c) =>
      match follow fuel element c with
      | .error fault => .error fault
      | .ok c => followElements fuel element false c

def followPlaces : Nat → List Shape → Bool → Cursor → Except Fault Cursor
  | 0, _, _, c => .error (c.here .unfinishedArray)
  | _ + 1, [], _, c => .ok c
  | fuel + 1, shape :: shapes, first, c =>
    match c.nextElement? first with
    | .error fault => .error fault
    | .ok none => .ok c
    | .ok (some c) =>
      match follow fuel shape c with
      | .error fault => .error fault
      | .ok c => followPlaces fuel shapes false c

def followMembers :
    Nat → List (String × Shape) → List String → Bool → Cursor → Except Fault Cursor
  | 0, _, _, _, c => .error (c.here .unfinishedObject)
  | fuel + 1, members, seen, first, c =>
    match c.nextName? first with
    | .error fault => .error fault
    | .ok none => .ok c.spaces.skip
    | .ok (some (name, c)) =>
      let value : Except Fault Cursor :=
        match members.lookup name with
        | none => c.colon.bind anyValue
        | some shape => if name ∈ seen then .error (repeated name c)
          else c.colon.bind (follow fuel shape)
      match value with
      | .error fault => .error fault
      | .ok c => followMembers fuel members (name :: seen) false c

end

/-- Steps that a text of this length cannot use up: a value and what is in it takes two steps for
every character at most. -/
def fuelFor (text : List Char) : Nat :=
  2 * text.length + 4

def fault? (shape : Shape) (text : List Char) : Option Fault :=
  match follow (fuelFor text) shape (.ofText text) with
  | .error fault => some fault
  | .ok c =>
    let c := c.spaces
    if c.rest.isEmpty then none else some (c.ahead .trailingText)

end Shape

end SecretEnv.Json
