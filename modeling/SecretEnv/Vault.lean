import SecretEnv.Expression
import SecretEnv.Vault.Item

/-!
Vaults answer a location with the secret that is kept there, with nothing when there is none, or
with the reason why they cannot tell. What a vault does while it answers is left behind as marks.
-/
namespace SecretEnv

inductive VaultError where
  | system (cause : String)
  | commandFailed (status output : String)
  | invalidResponse (detail : String)
  | unavailable (cause : String)
  deriving DecidableEq, Repr

def VaultError.message : VaultError → String
  | system cause => "I/O error: " ++ cause
  | commandFailed status output => "vault command failed (" ++ status ++ "): " ++ output
  | invalidResponse detail => "invalid vault response: " ++ detail
  | unavailable cause => "vault unavailable: " ++ cause

/-- A result with what was done on the way to it. Code that is written for any type of marks can
make none of its own: those it leaves are those of what it called, each as often as it was called.
-/
structure Marked (μ α : Type) where
  marks : List μ
  result : α

namespace Marked

variable {μ α β : Type}

def silent (result : α) : Marked μ α :=
  ⟨[], result⟩

def map (f : α → β) (marked : Marked μ α) : Marked μ β :=
  ⟨marked.marks, f marked.result⟩

@[simp] theorem marks_silent (result : α) : (silent result : Marked μ α).marks = [] := rfl

@[simp] theorem result_silent (result : α) : (silent result : Marked μ α).result = result := rfl

@[simp] theorem marks_map (f : α → β) (marked : Marked μ α) :
    (marked.map f).marks = marked.marks := rfl

@[simp] theorem result_map (f : α → β) (marked : Marked μ α) :
    (marked.map f).result = f marked.result := rfl

end Marked

abbrev Vault := Location → Except VaultError (Option Secret)

abbrev Service (μ : Type) := Location → Marked μ (Except VaultError (Option Secret))

def Service.answers {μ : Type} (service : Service μ) : Vault := fun location =>
  (service location).result

namespace Vault

/-- The vault that does nothing but note where it is asked. -/
def recorded (vault : Vault) : Service Location := fun location =>
  ⟨[location], vault location⟩

@[simp] theorem answers_recorded (vault : Vault) : vault.recorded.answers = vault := rfl

@[simp] theorem marks_recorded (vault : Vault) (location : Location) :
    (vault.recorded location).marks = [location] := rfl

def select (location : Location) (item : Item) : Option Secret :=
  match location with
  | .item _ => item.firstSecret?
  | .field _ label => item.labeled? label

def failingOn (faults : List (String × VaultError)) (vault : Vault) : Vault := fun location =>
  match faults.lookup location.itemName with
  | some error => .error error
  | none => vault location

end Vault

end SecretEnv
