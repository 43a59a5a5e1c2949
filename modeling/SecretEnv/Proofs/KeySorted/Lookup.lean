import SecretEnv.KeySorted

/-! What lookups see of a key-sorted collection. A collection is its lookup function: each operation
has one equation through `get?`, and two collections that answer every key alike are equal. -/
namespace SecretEnv.KeySorted

variable {α : Type} {key : α → String}

theorem get?_key {c : KeySorted key} {k : String} {a : α} (h : c.get? k = some a) : key a = k := by
  have hfound := List.find?_some h
  exact eq_of_beq hfound

theorem mem_of_get? {c : KeySorted key} {k : String} {a : α} (h : c.get? k = some a) :
    a ∈ c.toList :=
  List.mem_of_find?_eq_some h

private theorem key_injective {list : List α} (h : list.Pairwise fun a b => key a < key b)
    {a b : α} (ha : a ∈ list) (hb : b ∈ list) (hkey : key a = key b) : a = b := by
  induction list with
  | nil => cases ha
  | cons first rest ih =>
    obtain ⟨hfirst, hrest⟩ := List.pairwise_cons.1 h
    rcases List.mem_cons.1 ha with rfl | hain <;> rcases List.mem_cons.1 hb with rfl | hbin
    · rfl
    · exact absurd (hkey ▸ hfirst b hbin) (String.lt_irrefl _)
    · exact absurd (hkey ▸ hfirst a hain) (String.lt_irrefl _)
    · exact ih hrest hain hbin

theorem get?_eq_some_iff {c : KeySorted key} {k : String} {a : α} :
    c.get? k = some a ↔ a ∈ c.toList ∧ key a = k := by
  refine ⟨?_, ?_⟩
  · intro h
    exact ⟨mem_of_get? h, get?_key h⟩
  · rintro ⟨ha, rfl⟩
    have hsome : (c.get? (key a)).isSome := by
      rw [get?, List.find?_isSome]
      exact ⟨a, ha, beq_self_eq_true _⟩
    obtain ⟨b, hb⟩ := Option.isSome_iff_exists.1 hsome
    rw [hb, key_injective c.ascending (mem_of_get? hb) ha (get?_key hb)]

theorem mem_keys_iff {c : KeySorted key} {k : String} :
    k ∈ c.keys ↔ ∃ a, c.get? k = some a := by
  simp only [keys, List.mem_map, get?_eq_some_iff]

@[simp] theorem not_mem_keys_iff {c : KeySorted key} {k : String} :
    k ∉ c.keys ↔ c.get? k = none := by
  rw [mem_keys_iff, ← Option.not_isSome_iff_eq_none, Option.isSome_iff_exists]

theorem pairwise_keys (c : KeySorted key) : c.keys.Pairwise (· < ·) :=
  List.pairwise_map.2 c.ascending

private theorem nodup_of_ascending {β : Type} {other : β → String} {list : List β}
    (h : list.Pairwise fun a b => other a < other b) : list.Nodup := by
  refine h.imp ?_
  intro a b hlt heq
  exact String.lt_irrefl (other a) (heq ▸ hlt)

@[simp] theorem nodup_toList (c : KeySorted key) : c.toList.Nodup :=
  nodup_of_ascending c.ascending

private theorem eq_of_mem_iff {β : Type} {other : β → String} {xs ys : List β}
    (hxs : xs.Pairwise fun a b => other a < other b)
    (hys : ys.Pairwise fun a b => other a < other b) (h : ∀ b, b ∈ xs ↔ b ∈ ys) : xs = ys := by
  apply List.Perm.eq_of_pairwise _ hxs hys
  · exact (List.perm_ext_iff_of_nodup (nodup_of_ascending hxs) (nodup_of_ascending hys)).2 h
  · intro a b _ _ hab hba
    exact absurd (String.lt_trans hab hba) (String.lt_irrefl _)

/-- Collections with the same keys list them alike, whatever they hold. -/
theorem keys_eq_of_mem_iff {β : Type} {other : β → String} {a : KeySorted key}
    {b : KeySorted other} (h : ∀ k, k ∈ a.keys ↔ k ∈ b.keys) : a.keys = b.keys :=
  eq_of_mem_iff a.pairwise_keys b.pairwise_keys h

@[simp] theorem length_keys (c : KeySorted key) : c.keys.length = c.size := by
  simp [keys, size]

theorem ext_get? {a b : KeySorted key} (h : ∀ k, a.get? k = b.get? k) : a = b := by
  apply KeySorted.ext
  apply eq_of_mem_iff a.ascending b.ascending
  intro x
  have hx := h (key x)
  refine ⟨?_, ?_⟩ <;> intro hin
  · exact mem_of_get? (hx ▸ get?_eq_some_iff.2 ⟨hin, rfl⟩)
  · exact mem_of_get? (hx.symm ▸ get?_eq_some_iff.2 ⟨hin, rfl⟩)

@[simp] theorem get?_empty (k : String) : (empty : KeySorted key).get? k = none := rfl

private theorem find?_place (a : α) (list : List α) (k : String) :
    (place key a list).find? (fun x => key x == k) =
      if key a = k then some a else list.find? fun x => key x == k := by
  induction list with
  | nil => by_cases h : key a = k <;> simp [place, h]
  | cons b rest ih =>
    simp only [place]
    split
    · by_cases h : key a = k <;> simp [h]
    · next hab =>
      split
      · next hba =>
        by_cases hb : key b = k
        · have hne : key a ≠ k := fun ha => String.lt_irrefl k (by rwa [ha, hb] at hba)
          simp [hb, hne]
        · rw [List.find?_cons_of_neg (by simpa using hb), ih,
            List.find?_cons_of_neg (by simpa using hb)]
      · next hba =>
        have hkey : key a = key b :=
          String.le_antisymm (String.not_lt.1 hba) (String.not_lt.1 hab)
        by_cases h : key b = k <;> simp [hkey, h]

@[simp] theorem get?_insert (c : KeySorted key) (a : α) (k : String) :
    (c.insert a).get? k = if key a = k then some a else c.get? k :=
  find?_place a c.toList k

@[simp] theorem insertAll_append (c : KeySorted key) (below above : List α) :
    c.insertAll (below ++ above) = (c.insertAll below).insertAll above :=
  List.foldl_append

theorem get?_insertAll (c : KeySorted key) (elements : List α) (k : String) :
    (c.insertAll elements).get? k =
      (elements.reverse.find? fun a => key a == k).or (c.get? k) := by
  induction elements generalizing c with
  | nil => rfl
  | cons a rest ih =>
    have hstep : c.insertAll (a :: rest) = (c.insert a).insertAll rest := rfl
    rw [hstep, ih, get?_insert, List.reverse_cons, List.find?_append, Option.or_assoc]
    by_cases h : key a = k <;> simp [h]

theorem get?_ofList (elements : List α) (k : String) :
    (ofList elements : KeySorted key).get? k = elements.reverse.find? fun a => key a == k := by
  rw [ofList, get?_insertAll, get?_empty, Option.or_none]

theorem mem_of_get?_ofList {elements : List α} {k : String} {a : α}
    (h : (ofList elements : KeySorted key).get? k = some a) : a ∈ elements := by
  rw [get?_ofList] at h
  exact List.mem_reverse.1 (List.mem_of_find?_eq_some h)

theorem get?_ofList_of_unique {elements : List α} {a : α} (ha : a ∈ elements)
    (honly : ∀ b ∈ elements, key b = key a → b = a) :
    (ofList elements : KeySorted key).get? (key a) = some a := by
  have hsome : ((ofList elements : KeySorted key).get? (key a)).isSome := by
    rw [get?_ofList, List.find?_isSome]
    exact ⟨a, List.mem_reverse.2 ha, beq_self_eq_true _⟩
  obtain ⟨b, hb⟩ := Option.isSome_iff_exists.1 hsome
  rw [hb, honly b (mem_of_get?_ofList hb) (get?_key hb)]

@[simp] theorem get?_ofList_eq_none_iff {elements : List α} {k : String} :
    (ofList elements : KeySorted key).get? k = none ↔ ∀ a ∈ elements, key a ≠ k := by
  simp [get?_ofList]

@[simp] theorem mem_keys_ofList_iff {elements : List α} {k : String} :
    k ∈ (ofList elements : KeySorted key).keys ↔ ∃ a ∈ elements, key a = k := by
  rw [mem_keys_iff, ← Option.isSome_iff_exists, get?_ofList, List.find?_isSome]
  simp

@[simp] theorem get?_ofList_append (below above : List α) (k : String) :
    (ofList (below ++ above) : KeySorted key).get? k =
      ((ofList above : KeySorted key).get? k).or ((ofList below : KeySorted key).get? k) := by
  simp only [get?_ofList, List.reverse_append, List.find?_append]

theorem get?_ofList_filterMap_eq_some_iff {β : Type} {f : β → Option α} {list : List β}
    {k : String} {a : α} :
    (ofList (list.filterMap f) : KeySorted key).get? k = some a ↔
      ∃ before b after, list = before ++ b :: after ∧ f b = some a ∧ key a = k ∧
        ∀ later ∈ after, ∀ c, f later = some c → key c ≠ k := by
  rw [get?_ofList, ← List.filterMap_reverse, List.find?_filterMap, Option.bind_eq_some_iff]
  refine ⟨?_, ?_⟩
  · rintro ⟨b, hb, hfb⟩
    obtain ⟨hkey, after, before, hsplit, hafter⟩ := List.find?_eq_some_iff_append.1 hb
    refine ⟨before.reverse, b, after.reverse, ?_, hfb, by simpa [hfb] using hkey, ?_⟩
    · rw [← List.reverse_reverse list, hsplit]
      simp
    · intro later hlater c hc
      simpa [hc] using hafter later (List.mem_reverse.1 hlater)
  · rintro ⟨before, b, after, rfl, hfb, hkey, hafter⟩
    refine ⟨b, List.find?_eq_some_iff_append.2 ⟨?_, after.reverse, before.reverse, ?_, ?_⟩, hfb⟩
    · simpa [hfb] using hkey
    · simp
    · intro later hlater
      cases hc : f later with
      | none => rfl
      | some c => simpa using hafter later (List.mem_reverse.1 hlater) c hc

theorem ofList_of_perm {c : KeySorted key} {elements : List α} (h : elements.Perm c.toList) :
    ofList elements = c := by
  apply ext_get?
  intro k
  cases hget : c.get? k with
  | some a =>
    obtain ⟨ha, rfl⟩ := get?_eq_some_iff.1 hget
    apply get?_ofList_of_unique (h.mem_iff.2 ha)
    intro b hb hkey
    exact key_injective c.ascending (h.mem_iff.1 hb) ha hkey
  | none =>
    cases hof : (ofList elements : KeySorted key).get? k with
    | none => rfl
    | some a =>
      have ha := get?_eq_some_iff.2 ⟨h.mem_iff.1 (mem_of_get?_ofList hof), get?_key hof⟩
      rw [hget] at ha
      cases ha

@[simp] theorem ofList_toList (c : KeySorted key) : ofList c.toList = c :=
  ofList_of_perm (.refl _)

@[simp] theorem get?_overlay (c upper : KeySorted key) (k : String) :
    (c.overlay upper).get? k = (upper.get? k).or (c.get? k) := by
  rw [overlay, get?_insertAll, ← get?_ofList, ofList_toList]

@[simp] theorem empty_overlay (c : KeySorted key) : empty.overlay c = c :=
  ofList_toList c

@[simp] theorem overlay_insert (c upper : KeySorted key) (a : α) :
    c.overlay (upper.insert a) = (c.overlay upper).insert a := by
  apply ext_get?
  intro k
  simp only [get?_overlay, get?_insert]
  split <;> rfl

theorem overlay_assoc (lower middle upper : KeySorted key) :
    (lower.overlay middle).overlay upper = lower.overlay (middle.overlay upper) := by
  apply ext_get?
  intro k
  simp only [get?_overlay, Option.or_assoc]

theorem get?_foldl_overlay (c : KeySorted key) (layers : List (KeySorted key)) (k : String) :
    (layers.foldl overlay c).get? k =
      (layers.reverse.findSome? fun layer => layer.get? k).or (c.get? k) := by
  induction layers generalizing c with
  | nil => rfl
  | cons layer rest ih =>
    rw [List.foldl_cons, ih, get?_overlay, List.reverse_cons, List.findSome?_append, Option.or_assoc]
    cases h : layer.get? k <;> simp [h]

end SecretEnv.KeySorted
