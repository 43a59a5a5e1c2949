import Mathlib.Data.List.Perm.Basic
import SecretEnv.Proofs.Json.Written

namespace SecretEnv.Json

def Value.record (members : Members) : Value :=
  .object (members.map fun m => member m.1 m.2)

@[simp] theorem named?_record (members : Members) :
    named? (Value.record members) = some members := by
  induction members with
  | nil => rfl
  | cons m rest ih =>
    change (rest.map fun m => member m.1 m.2).mapM _ = some rest at ih
    change ((m :: rest).map fun m => member m.1 m.2).mapM _ = _
    rw [List.map_cons, List.mapM_cons, ih]
    rfl

theorem Value.textual_record {members : Members} (h : ∀ m ∈ members, m.2.Textual) :
    (Value.record members).Textual := by
  refine .object ?_ ?_ <;> intro m hm <;> obtain ⟨own, hown, rfl⟩ := List.mem_map.1 hm
  · exact ⟨own.1, rfl⟩
  · exact h own hown

/-- A text, a truth value or null. -/
inductive Value.Flat : Value → Prop where
  | null : Flat .null
  | bool (b : Bool) : Flat (.bool b)
  | text (s : String) : Flat (text s)

theorem Value.Flat.textual {v : Value} (h : v.Flat) : v.Textual := by
  cases h with
  | null => exact .null
  | bool b => exact .bool b
  | text s => exact .text s

theorem Value.Flat.depth_eq {v : Value} (h : v.Flat) : v.depth = 0 := by
  cases h <;> rfl

theorem depth_record {members : Members} (h : ∀ m ∈ members, m.2.Flat) :
    (Value.record members).depth = 1 := by
  have hmembers : membersDepth (members.map fun m => member m.1 m.2) = 0 := by
    induction members with
    | nil => rfl
    | cons m rest ih =>
      obtain ⟨hm, hrest⟩ := List.forall_mem_cons.1 h
      change max m.2.depth (membersDepth (rest.map fun m => member m.1 m.2)) = 0
      rw [hm.depth_eq, ih hrest, Nat.max_self]
  rw [Value.record, Value.depth, hmembers]

namespace Members

variable {members others : Members}

theorem single?_perm (h : members.Perm others) (name : String) :
    members.single? name = others.single? name := by
  have hfound := h.filter (·.1 == name)
  unfold single?
  generalize members.filter (·.1 == name) = found at hfound
  generalize others.filter (·.1 == name) = found' at hfound
  match found, found', hfound with
  | [], found', hfound => rw [hfound.nil_eq]
  | [m], found', hfound => rw [List.singleton_perm.1 hfound]
  | _ :: _ :: _, found', hfound =>
    -- Two members of the name are refused, whichever stands first.
    match found', hfound.length_eq with
    | _ :: _ :: _, _ => rfl

theorem single?_append (name : String) (h : ∀ m ∈ others, m.1 ≠ name) :
    single? (members ++ others) name = members.single? name := by
  have hothers : others.filter (·.1 == name) = [] := by
    simpa [List.filter_eq_nil_iff] using h
  rw [single?, single?, List.filter_append, hothers, List.append_nil]

end Members

end SecretEnv.Json
