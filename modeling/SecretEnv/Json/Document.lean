import SecretEnv.Json.Token

/-!
Documents: token lists that are one JSON value and nothing else. The builder keeps the open arrays
and objects in a list of its own, so a document may be nested as deeply as memory allows, and a
limit on the nesting is a limit on the length of that list.
-/
namespace SecretEnv.Json

inductive Frame where
  | array (elements : List Value)
  | object (members : List (Content × Value))
  | member (members : List (Content × Value)) (name : Content)

inductive Expected where
  | value
  | elementOrEnd
  | nameOrEnd
  | name
  | colon (name : Content)
  | next (complete : Value)

structure Builder where
  frames : List Frame
  expected : Expected

namespace Builder

abbrev Limit := Option Nat

/-- Whether one more may be opened inside the open ones. Without a limit these are not counted. -/
def fits (limit : Limit) (frames : List Frame) : Bool :=
  match limit with
  | none => true
  | some most => frames.length < most

def enter (limit : Limit) (frames : List Frame) (frame : Frame) (expected : Expected) :
    Option Builder :=
  if fits limit frames then some ⟨frame :: frames, expected⟩ else none

def value (limit : Limit) (frames : List Frame) : Token → Option Builder
  | .null => some ⟨frames, .next .null⟩
  | .bool b => some ⟨frames, .next (.bool b)⟩
  | .number n => some ⟨frames, .next (.number n)⟩
  | .string s => some ⟨frames, .next (.string s)⟩
  | .arrayStart => enter limit frames (.array []) .elementOrEnd
  | .objectStart => enter limit frames (.object []) .nameOrEnd
  | _ => none

def proceed (complete : Value) : List Frame → Token → Option Builder
  | .array elements :: frames, .comma => some ⟨.array (complete :: elements) :: frames, .value⟩
  | .array elements :: frames, .arrayEnd =>
    some ⟨frames, .next (.array (complete :: elements).reverse)⟩
  | .member members name :: frames, .comma =>
    some ⟨.object ((name, complete) :: members) :: frames, .name⟩
  | .member members name :: frames, .objectEnd =>
    some ⟨frames, .next (.object ((name, complete) :: members).reverse)⟩
  | _, _ => none

def step (limit : Limit) : Builder → Token → Option Builder
  | ⟨frames, .value⟩, token => value limit frames token
  | ⟨.array [] :: frames, .elementOrEnd⟩, .arrayEnd => some ⟨frames, .next (.array [])⟩
  | ⟨frames, .elementOrEnd⟩, token => value limit frames token
  | ⟨.object [] :: frames, .nameOrEnd⟩, .objectEnd => some ⟨frames, .next (.object [])⟩
  | ⟨frames, .nameOrEnd⟩, .string name => some ⟨frames, .colon name⟩
  | ⟨frames, .name⟩, .string name => some ⟨frames, .colon name⟩
  | ⟨.object members :: frames, .colon name⟩, .colon =>
    some ⟨.member members name :: frames, .value⟩
  | ⟨frames, .next complete⟩, token => proceed complete frames token
  | _, _ => none

end Builder

def build? (limit : Builder.Limit) (tokens : List Token) : Option Value :=
  match tokens.foldlM (Builder.step limit) ⟨[], .value⟩ with
  | some ⟨[], .next complete⟩ => some complete
  | _ => none

def parse? (text : List Char) : Option Value :=
  (Token.scan? text).bind (build? none)

/-- Reads a text as one value in which every part counts, ignored parts too: strings spell texts,
numbers fit a double, and arrays and objects nest no deeper than the limit. -/
def parseStrict? (limit : Nat) (text : List Char) : Option Value := do
  let tokens ← Token.scan? text
  if tokens.all Token.hasValue then build? (some limit) tokens else none

end SecretEnv.Json
