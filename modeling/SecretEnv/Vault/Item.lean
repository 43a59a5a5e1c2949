namespace SecretEnv

structure Secret where
  type : String
  value : String
  deriving DecidableEq, Repr

structure ItemField where
  id : String
  type : String
  purpose : Option String
  label : String
  value : Option String
  deriving DecidableEq, Repr

namespace ItemField

def notesPurpose : String := "NOTES"

def concealed (label value : String) : ItemField :=
  { id := label, type := "CONCEALED", purpose := none, label, value := some value }

def withPurpose (field : ItemField) (purpose : String) : ItemField :=
  { field with purpose := some purpose }

def isNotes (field : ItemField) : Bool :=
  field.purpose == some notesPurpose

def secret (field : ItemField) : Secret :=
  ⟨field.type, field.value.getD ""⟩

end ItemField

structure Item where
  id : String
  title : String
  fields : List ItemField
  deriving DecidableEq, Repr

namespace Item

def titled (title : String) : Item :=
  ⟨title, title, []⟩

def withField (item : Item) (field : ItemField) : Item :=
  { item with fields := item.fields ++ [field] }

def firstSecret? (item : Item) : Option Secret :=
  (item.fields.find? fun field => !field.isNotes).map ItemField.secret

/-- The first field with exactly this label, notes included. -/
def labeled? (item : Item) (label : String) : Option Secret :=
  (item.fields.find? fun field => field.label == label).map ItemField.secret

end Item

end SecretEnv
