namespace SecretEnv

inductive Location where
  | item (name : String)
  | field (item label : String)
  deriving DecidableEq, Repr

def Location.itemName : Location → String
  | .item name => name
  | .field holder _ => holder

/-- How the value of a variable is obtained. The item, where there is one, is the section in which
the rule was written. -/
inductive Rule where
  | literal (text : String)
  | reference (target : String) (item : Option String)
  | shorthand (item : Option String)
  deriving DecidableEq, Repr

structure Expression where
  key : String
  rule : Rule
  deriving DecidableEq, Repr

namespace Rule

inductive Kind where
  | literal
  | reference
  | shorthand
  deriving DecidableEq, Repr

def Kind.name : Kind → String
  | .literal => "literal"
  | .reference => "reference"
  | .shorthand => "shorthand"

def Kind.all : List Kind :=
  [.literal, .reference, .shorthand]

def kind : Rule → Kind
  | literal _ => .literal
  | reference _ _ => .reference
  | shorthand _ => .shorthand

def item? : Rule → Option String
  | literal _ => none
  | reference _ item => item
  | shorthand item => item

def isLiteral : Rule → Bool
  | literal _ => true
  | _ => false

end Rule

namespace Expression

def value? (e : Expression) : Option String :=
  match e.rule with
  | .literal text => some text
  | .reference target _ => some target
  | .shorthand _ => none

def isLiteral (e : Expression) : Bool :=
  e.rule.isLiteral

def lookupName? (e : Expression) : Option String :=
  match e.rule with
  | .literal _ => none
  | .reference target _ => some target
  | .shorthand _ => some e.key

/-- A section turns the name into the label of a field of its item. -/
def location? (e : Expression) : Option Location :=
  e.lookupName?.map fun name =>
    match e.rule.item? with
    | some item => .field item name
    | none => .item name

end Expression

end SecretEnv
