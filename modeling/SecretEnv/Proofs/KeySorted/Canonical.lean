import Mathlib.Data.List.Dedup
import SecretEnv.Proofs.KeySorted.Lookup
import SecretEnv.Source

namespace SecretEnv

namespace KeySorted

variable {α : Type} {key : α → String}

def codePoints (k : String) : List Nat :=
  k.toList.map Char.toNat

theorem codePoints_lt {s t : String} (h : s < t) : codePoints s < codePoints t := by
  apply List.map_lt
  · intro c d hlt
    exact hlt
  · exact h

/-- Of the elements with the key, `a` is the last in the list. -/
def LastWith (key : α → String) (elements : List α) (k : String) (a : α) : Prop :=
  ∃ before after, elements = before ++ a :: after ∧ key a = k ∧ ∀ later ∈ after, key later ≠ k

@[simp] theorem get?_ofList_eq_some_iff {elements : List α} {k : String} {a : α} :
    (ofList elements : KeySorted key).get? k = some a ↔ LastWith key elements k a := by
  have h : (ofList (elements.filterMap some) : KeySorted key).get? k = some a ↔ _ :=
    get?_ofList_filterMap_eq_some_iff
  simpa [LastWith] using h

@[simp] theorem contains_iff {c : KeySorted key} {k : String} :
    c.contains k = true ↔ k ∈ c.keys := by
  rw [contains, Option.isSome_iff_exists, mem_keys_iff]

@[simp] theorem map_get?_keys (c : KeySorted key) : c.keys.map c.get? = c.toList.map some := by
  rw [keys, List.map_map]
  apply List.map_congr_left
  intro a ha
  exact get?_eq_some_iff.2 ⟨ha, rfl⟩

theorem nodup_keys (c : KeySorted key) : c.keys.Nodup := by
  apply c.pairwise_keys.imp
  intro s t hlt heq
  exact String.lt_irrefl t (heq ▸ hlt)

@[simp] theorem size_ofList (elements : List α) :
    (ofList elements : KeySorted key).size = (elements.map key).dedup.length := by
  rw [← length_keys]
  apply List.Perm.length_eq
  rw [List.perm_ext_iff_of_nodup (nodup_keys _) (List.nodup_dedup _)]
  intro k
  simp

/-- What is collected from the elements: under every key the last of them that has it, the keys in
strictly ascending order. -/
structure Collects (elements : List α) (c : KeySorted key) : Prop where
  ascending : (c.keys.map codePoints).Pairwise (· < ·)
  mem_keys : ∀ k, k ∈ c.keys ↔ ∃ a ∈ elements, key a = k
  get? : ∀ k a, c.get? k = some a ↔ LastWith key elements k a
  contains : ∀ k, c.contains k = true ↔ ∃ a, LastWith key elements k a
  lists : c.toList.map some = c.keys.map c.get?
  size : c.size = (elements.map key).dedup.length

@[simp] theorem collects_ofList (elements : List α) :
    Collects elements (ofList elements : KeySorted key) where
  ascending := List.pairwise_map.2 ((pairwise_keys _).imp codePoints_lt)
  mem_keys _ := mem_keys_ofList_iff
  get? _ _ := get?_ofList_eq_some_iff
  contains k := by simp only [contains_iff, mem_keys_iff, get?_ofList_eq_some_iff]
  lists := (map_get?_keys _).symm
  size := size_ofList elements

theorem ofList_eq_iff {xs ys : List α} :
    (ofList xs : KeySorted key) = ofList ys ↔
      ∀ k a, LastWith key xs k a ↔ LastWith key ys k a := by
  simp only [← get?_ofList_eq_some_iff]
  constructor
  · intro h k a
    rw [h]
  · intro h
    apply ext_get?
    intro k
    exact Option.ext (h k)

/-- The elements of a list in another order, which keeps the order among those of one key. -/
structure Rearranged (key : α → String) (xs ys : List α) : Prop where
  perm : xs.Perm ys
  order : ∀ k, xs.filter (key · == k) = ys.filter (key · == k)

theorem ofList_of_rearranged {xs ys : List α} (h : Rearranged key xs ys) :
    (ofList xs : KeySorted key) = ofList ys := by
  apply ext_get?
  intro k
  rw [get?_ofList, get?_ofList, ← List.getLast?_filter, ← List.getLast?_filter, h.order k]

def toMap (c : KeySorted key) : KeySorted (Prod.fst : String × α → String) :=
  ⟨c.toList.map fun a => (key a, a), List.pairwise_map.2 c.ascending⟩

theorem keyed_toMap (c : KeySorted key) : ∀ entry ∈ c.toMap.toList, key entry.2 = entry.1 := by
  simp [toMap]

/-- A map as it stands. One that holds an element under any other than its own key is no collection
of this kind: no source is read as such a map, and merging does not make one. -/
def ofMap (map : KeySorted (Prod.fst : String × α → String))
    (keyed : ∀ entry ∈ map.toList, key entry.2 = entry.1) : KeySorted key where
  toList := map.toList.map Prod.snd
  ascending := by
    rw [List.pairwise_map]
    refine map.ascending.imp_of_mem ?_
    intro entry other hentry hother hlt
    rwa [keyed entry hentry, keyed other hother]

@[simp] theorem ofMap_toMap (c : KeySorted key) : ofMap c.toMap c.keyed_toMap = c := by
  ext1
  simp [ofMap, toMap, Function.comp_def]

end KeySorted

open KeySorted

/-- Bindings collected from expressions hold the last expression of every key in the order of the
keys, and nothing else of the list shows in them: lists with the same last expressions are collected
alike. In particular the bindings are collected again from their own expressions in any order, from
their map, and from the list in any order that keeps expressions of one key in theirs. -/
theorem Bindings.last_expressions_are_collected (expressions : List Expression) :
    Collects expressions (.ofList expressions : Bindings) ∧
    (∀ others, (.ofList expressions : Bindings) = .ofList others ↔
      ∀ k e, LastWith Expression.key expressions k e ↔ LastWith Expression.key others k e) ∧
    (∀ values, values.Perm (.ofList expressions : Bindings).toList →
      (.ofList values : Bindings) = .ofList expressions) ∧
    ofMap (.ofList expressions : Bindings).toMap (keyed_toMap _) =
      (.ofList expressions : Bindings) ∧
    ∀ others, Rearranged Expression.key others expressions →
      (.ofList others : Bindings) = .ofList expressions := by
  refine ⟨collects_ofList expressions, ?_, ?_, ofMap_toMap _, ?_⟩
  · intro others
    exact ofList_eq_iff
  · intro values hvalues
    exact ofList_of_perm hvalues
  · intro others hothers
    exact ofList_of_rearranged hothers

theorem Bindings.moved_expression_is_collected_alike :
    let expressions : List Expression :=
      [⟨"A", .literal "1"⟩, ⟨"A", .shorthand none⟩, ⟨"B", .literal "2"⟩]
    let others : List Expression :=
      [⟨"A", .literal "1"⟩, ⟨"B", .literal "2"⟩, ⟨"A", .shorthand none⟩]
    Rearranged Expression.key others expressions ∧
      (.ofList others : Bindings) = .ofList expressions := by
  intro expressions others
  have hmoved : Rearranged Expression.key others expressions := by
    constructor
    · exact .cons _ (.swap _ _ [])
    · intro k
      by_cases hk : "B" = k
      · subst hk
        rfl
      · simp [others, expressions, List.filter_cons, hk]
  obtain ⟨-, -, -, -, hrearranged⟩ := last_expressions_are_collected expressions
  exact ⟨hmoved, hrearranged others hmoved⟩

end SecretEnv
