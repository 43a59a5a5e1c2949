/-!
Collections that hold at most one element a key, in ascending key order. The order is part of the
type, so two collections are equal exactly when their lists of elements are, and what was put in
first never shows. Keys are ordered by code point.
-/
namespace SecretEnv

structure KeySorted {α : Type} (key : α → String) where
  toList : List α
  ascending : toList.Pairwise fun a b => key a < key b

namespace KeySorted

variable {α : Type} {key : α → String}

@[ext] theorem ext {a b : KeySorted key} (h : a.toList = b.toList) : a = b := by
  cases a; cases b; cases h; rfl

instance [DecidableEq α] : DecidableEq (KeySorted key) := fun a b =>
  decidable_of_iff (a.toList = b.toList) ⟨ext, fun h => h ▸ rfl⟩

def empty : KeySorted key := ⟨[], .nil⟩

/-- Puts `a` at the place of its key; an element with the same key gives way. -/
def place (key : α → String) (a : α) : List α → List α
  | [] => [a]
  | b :: rest =>
    if key a < key b then a :: b :: rest
    else if key b < key a then b :: place key a rest
    else a :: rest

theorem mem_place {a x : α} {list : List α} (h : x ∈ place key a list) : x = a ∨ x ∈ list := by
  induction list with
  | nil => simpa [place] using h
  | cons b rest ih =>
    simp only [place] at h
    split at h
    · simpa using h
    · split at h <;> grind

private theorem eq_of_not_lt {s t : String} (h₁ : ¬ s < t) (h₂ : ¬ t < s) : s = t :=
  String.le_antisymm (String.not_lt.1 h₂) (String.not_lt.1 h₁)

theorem ascending_place (a : α) {list : List α} (h : list.Pairwise fun a b => key a < key b) :
    (place key a list).Pairwise fun a b => key a < key b := by
  induction list with
  | nil => simp [place]
  | cons b rest ih =>
    obtain ⟨hb, hrest⟩ := List.pairwise_cons.1 h
    simp only [place]
    split
    · next hab =>
      refine List.pairwise_cons.2 ⟨fun x hx => ?_, h⟩
      rcases List.mem_cons.1 hx with rfl | hx
      · exact hab
      · exact String.lt_trans hab (hb x hx)
    · next hab =>
      split
      · next hba =>
        refine List.pairwise_cons.2 ⟨fun x hx => ?_, ih hrest⟩
        rcases mem_place hx with rfl | hx
        · exact hba
        · exact hb x hx
      · next hba =>
        refine List.pairwise_cons.2 ⟨fun x hx => ?_, hrest⟩
        rw [eq_of_not_lt hab hba]
        exact hb x hx

def insert (c : KeySorted key) (a : α) : KeySorted key :=
  ⟨place key a c.toList, ascending_place a c.ascending⟩

def insertAll (c : KeySorted key) (elements : List α) : KeySorted key :=
  elements.foldl insert c

/-- Collects a list; of elements with one key the last stays. -/
def ofList (elements : List α) : KeySorted key :=
  empty.insertAll elements

def overlay (c upper : KeySorted key) : KeySorted key :=
  c.insertAll upper.toList

def get? (c : KeySorted key) (k : String) : Option α :=
  c.toList.find? fun a => key a == k

def contains (c : KeySorted key) (k : String) : Bool :=
  (c.get? k).isSome

def keys (c : KeySorted key) : List String :=
  c.toList.map key

def size (c : KeySorted key) : Nat :=
  c.toList.length

def isEmpty (c : KeySorted key) : Bool :=
  c.toList.isEmpty

end KeySorted

end SecretEnv
