import SecretEnv.Resolution

/-!
A vault in memory: items by title, and a count of the lookups it has served. Of several items with
one title the one put in last answers. Lookups change nothing but the count.
-/
namespace SecretEnv

structure MemoryVault where
  items : List Item
  counter : USize

namespace MemoryVault

def empty : MemoryVault :=
  ⟨[], 0⟩

def insert (vault : MemoryVault) (item : Item) : MemoryVault :=
  { vault with items := item :: vault.items }

def ofItems (items : List Item) : MemoryVault :=
  items.foldl insert empty

def served (vault : MemoryVault) : Nat :=
  vault.counter.toNat

def find? (vault : MemoryVault) (title : String) : Option Item :=
  vault.items.find? (·.title == title)

/-- Each mark is what a lookup adds to the counter. -/
def service (vault : MemoryVault) : Service USize := fun location =>
  ⟨[1], .ok ((vault.find? location.itemName).bind (Vault.select location))⟩

def answers (vault : MemoryVault) : Vault :=
  vault.service.answers

inductive Step where
  | insert (item : Item)
  | ask (query : Query)

def perform (timing : Timing Resolution.Placed) (vault : MemoryVault) :
    Step → Option Reply × MemoryVault
  | .insert item => (none, vault.insert item)
  | .ask query =>
    let served := query.serve timing vault.service
    (some served.result, { vault with counter := served.marks.foldl (· + ·) vault.counter })

end MemoryVault

end SecretEnv
