import Mathlib.Data.List.Dedup
import SecretEnv.Proofs.Loading.Checks
import SecretEnv.Proofs.Loading.Stack

namespace SecretEnv

section Searches

variable {α β γ : Type}

theorem findSome?_flatMap (f : β → Option γ) (g : α → List β) (list : List α) :
    (list.flatMap g).findSome? f = list.findSome? fun a => (g a).findSome? f := by
  induction list with
  | nil => rfl
  | cons a rest ih =>
    rw [List.flatMap_cons, List.findSome?_append, ih, List.findSome?_cons]
    cases (g a).findSome? f <;> rfl

theorem findSome?_eq_of_unique {f : α → Option β} {list : List α} {a : α} (ha : a ∈ list)
    (honly : ∀ other ∈ list, ∀ b, f other = some b → other = a) : list.findSome? f = f a := by
  cases hfound : list.findSome? f with
  | none => exact (List.findSome?_eq_none_iff.1 hfound a ha).symm
  | some b =>
    obtain ⟨other, hother, hb⟩ := List.exists_of_findSome?_eq_some hfound
    rw [← honly other hother b hb, hb]

/-- The last `a` in the list stands before the last `b`. -/
def LastBefore (list : List α) (a b : α) : Prop :=
  ∃ before after, list = before ++ a :: after ∧ a ∉ after ∧ b ∈ after

theorem LastBefore.cons {list : List α} {a b : α} (h : LastBefore list a b) (first : α) :
    LastBefore (first :: list) a b := by
  obtain ⟨before, after, rfl, ha, hb⟩ := h
  exact ⟨first :: before, after, rfl, ha, hb⟩

theorem LastBefore.asymm {list : List α} {a b : α} (h : LastBefore list a b) :
    ¬ LastBefore list b a := by
  rintro ⟨before', after', hsplit', hb', ha'⟩
  obtain ⟨before, after, hsplit, ha, hb⟩ := h
  have hsuffix : after <:+ list := ⟨before ++ [a], by simp [hsplit]⟩
  have hsuffix' : after' <:+ list := ⟨before' ++ [b], by simp [hsplit']⟩
  rcases List.suffix_or_suffix_of_suffix hsuffix hsuffix' with hle | hle
  · exact hb' (hle.mem hb)
  · exact ha (hle.mem ha')

variable [DecidableEq α]

theorem findSome?_reverse_dedup (f : α → Option β) (list : List α) :
    list.dedup.reverse.findSome? f = list.reverse.findSome? f := by
  induction list with
  | nil => rfl
  | cons a rest ih =>
    by_cases ha : a ∈ rest
    · rw [List.dedup_cons_of_mem ha, ih, List.reverse_cons, List.findSome?_append]
      cases hrest : rest.reverse.findSome? f with
      | some b => rfl
      | none =>
        have hnone : f a = none := List.findSome?_eq_none_iff.1 hrest a (List.mem_reverse.2 ha)
        simp [hnone]
    · simp [List.dedup_cons_of_notMem ha, List.findSome?_append, ih]

theorem pairwise_lastBefore_dedup (list : List α) :
    list.dedup.Pairwise (LastBefore list) := by
  induction list with
  | nil => exact .nil
  | cons a rest ih =>
    have hrest : rest.dedup.Pairwise (LastBefore (a :: rest)) := ih.imp fun h => h.cons a
    by_cases ha : a ∈ rest
    · rwa [List.dedup_cons_of_mem ha]
    · rw [List.dedup_cons_of_notMem ha]
      apply List.Pairwise.cons _ hrest
      intro b hb
      exact ⟨[], rest, rfl, ha, List.mem_dedup.1 hb⟩

theorem dedup_eq_of_lastBefore {list other : List α} (hmem : ∀ a, a ∈ list ↔ a ∈ other)
    (horder : ∀ a b, LastBefore list a b ↔ LastBefore other a b) : list.dedup = other.dedup := by
  apply List.Perm.eq_of_pairwise _ (pairwise_lastBefore_dedup list)
  · apply (pairwise_lastBefore_dedup other).imp
    intro a b h
    exact (horder a b).2 h
  · rw [List.perm_ext_iff_of_nodup (List.nodup_dedup _) (List.nodup_dedup _)]
    simpa using hmem
  · intro a b _ _ hab hba
    exact absurd hba hab.asymm

theorem dedup_of_mem_after {a : α} {before after : List α} (h : a ∈ after) :
    (before ++ a :: after).dedup = (before ++ after).dedup := by
  rw [List.dedup_append, List.dedup_cons_of_mem h, ← List.dedup_append]

end Searches

namespace Layer

def fault? (reader : Reader) (layer : Layer) : Option LoadError :=
  match layer.read reader with
  | .ok _ => none
  | .error error => some error

def gives? (reader : Reader) (key : String) (layer : Layer) : Option Expression :=
  (layer.content reader).get? key

theorem exists_gives_of_gives? {reader : Reader} {key : String} {layer : Layer} {e : Expression}
    (h : layer.gives? reader key = some e) :
    ∃ bindings, layer.Gives reader bindings ∧ key ∈ bindings.keys := by
  rw [gives?, content] at h
  cases hread : layer.read reader with
  | error error =>
    rw [hread] at h
    cases h
  | ok bindings =>
    rw [hread] at h
    exact ⟨bindings, read_eq_ok_iff.1 hread, KeySorted.mem_keys_iff.2 ⟨e, h⟩⟩

end Layer

namespace Loading

variable {reader : Reader} {localOverrides : Bool} {paths : List String}

def fileLayers (reader : Reader) (localOverrides : Bool) (paths : List String) : List Layer :=
  (filePaths reader localOverrides paths).map .file

theorem fileLayers_eq_flatMap (reader : Reader) (localOverrides : Bool) (paths : List String) :
    fileLayers reader localOverrides paths =
      paths.flatMap fun path => fileLayers reader localOverrides [path] := by
  induction paths with
  | nil => cases localOverrides <;> rfl
  | cons path rest ih =>
    rw [fileLayers, filePaths_cons, List.map_append, List.flatMap_cons, ← ih]
    rfl

theorem foldlM_overlayLayer_eq_error_iff {layers : List Layer} {base : Bindings}
    {error : LoadError} :
    layers.foldlM (overlayLayer reader) base = .error error ↔
      layers.findSome? (Layer.fault? reader) = some error := by
  induction layers generalizing base with
  | nil => exact ⟨nofun, nofun⟩
  | cons layer rest ih =>
    rw [List.foldlM_cons, List.findSome?_cons, overlayLayer, Layer.fault?]
    cases layer.read reader with
    | error other => simp [Functor.map, Except.map, bind, Except.bind]
    | ok bindings => exact ih

theorem error?_files_eq_findSome? (reader : Reader) (localOverrides : Bool) (paths : List String) :
    (files reader localOverrides paths).error? =
      (fileLayers reader localOverrides paths).findSome? (Layer.fault? reader) := by
  ext error
  rw [error?_eq_some_iff, outcome_files]
  exact foldlM_overlayLayer_eq_error_iff

theorem error?_files (reader : Reader) (localOverrides : Bool) (paths : List String) :
    (files reader localOverrides paths).error? =
      paths.findSome? fun path => (files reader localOverrides [path]).error? := by
  simp only [error?_files_eq_findSome?]
  rw [fileLayers_eq_flatMap, findSome?_flatMap]

def pathGives? (reader : Reader) (localOverrides : Bool) (key path : String) : Option Expression :=
  (fileLayers reader localOverrides [path]).reverse.findSome? (Layer.gives? reader key)

theorem get?_files {merged : Bindings}
    (h : (files reader localOverrides paths).outcome = .ok merged) (key : String) :
    merged.get? key = paths.reverse.findSome? (pathGives? reader localOverrides key) := by
  rw [outcome_files, foldlM_overlayLayer_eq_ok_iff] at h
  have hstack : merged.get? key =
      (fileLayers reader localOverrides paths).reverse.findSome? (Layer.gives? reader key) := by
    rw [h.2, KeySorted.get?_foldl_overlay, KeySorted.get?_empty, Option.or_none, ← List.map_reverse,
      List.findSome?_map]
    rfl
  rw [hstack, fileLayers_eq_flatMap, List.reverse_flatMap, findSome?_flatMap]
  rfl

/-- A source of the path, its file or the companion over it, has the key. -/
def Defines (reader : Reader) (localOverrides : Bool) (path key : String) : Prop :=
  ∃ source ∈ filePaths reader localOverrides [path], ∃ bindings,
    (Layer.file source).Gives reader bindings ∧ key ∈ bindings.keys

/-- The path cannot be loaded, whatever else is listed. -/
def Fails (reader : Reader) (localOverrides : Bool) (path : String) : Prop :=
  ∃ error, (files reader localOverrides [path]).outcome = .error error

theorem defines_of_pathGives? {key path : String} {e : Expression}
    (h : pathGives? reader localOverrides key path = some e) :
    Defines reader localOverrides path key := by
  obtain ⟨layer, hlayer, hgives⟩ := List.exists_of_findSome?_eq_some h
  obtain ⟨source, hsource, rfl⟩ := List.mem_map.1 (List.mem_reverse.1 hlayer)
  exact ⟨source, hsource, Layer.exists_gives_of_gives? hgives⟩

@[simp] theorem error?_eq_none_iff {α : Type} {loading : Loading α} :
    loading.error? = none ↔ ∃ a, loading.outcome = .ok a := by
  unfold error?
  cases loading.outcome <;> simp

theorem succeeds_iff :
    (∃ merged, (files reader localOverrides paths).outcome = .ok merged) ↔
      ∀ path ∈ paths, ¬ Fails reader localOverrides path := by
  rw [← error?_eq_none_iff, error?_files, List.findSome?_eq_none_iff]
  simp only [Fails, ← error?_eq_some_iff, Option.eq_none_iff_forall_ne_some, not_exists, ne_eq]

theorem mem_keys_files {merged : Bindings}
    (h : (files reader localOverrides paths).outcome = .ok merged) {key : String} :
    key ∈ merged.keys ↔
      ∃ path ∈ paths, ∃ e, pathGives? reader localOverrides key path = some e := by
  rw [KeySorted.mem_keys_iff, ← Option.isSome_iff_exists, get?_files h, List.findSome?_isSome_iff]
  simp only [List.mem_reverse, Option.isSome_iff_exists]

theorem get?_files_of_unique {merged : Bindings}
    (h : (files reader localOverrides paths).outcome = .ok merged) {key path : String}
    (hpath : path ∈ paths)
    (honly : ∀ path' ∈ paths, Defines reader localOverrides path' key → path' = path) :
    merged.get? key = pathGives? reader localOverrides key path := by
  rw [get?_files h]
  apply findSome?_eq_of_unique (List.mem_reverse.2 hpath)
  intro path' hpath' e he
  exact honly path' (List.mem_reverse.1 hpath') (defines_of_pathGives? he)

theorem error?_files_of_unique {path : String} (hpath : path ∈ paths)
    (honly : ∀ path' ∈ paths, Fails reader localOverrides path' → path' = path) :
    (files reader localOverrides paths).error? = (files reader localOverrides [path]).error? := by
  rw [error?_files]
  apply findSome?_eq_of_unique hpath
  intro path' hpath' error herror
  exact honly path' hpath' ⟨error, error?_eq_some_iff.1 herror⟩

theorem toOption_files_of_dedup_eq {others : List String} (h : paths.dedup = others.dedup) :
    (files reader localOverrides paths).outcome.toOption =
      (files reader localOverrides others).outcome.toOption := by
  have hsame (path : String) : path ∈ paths ↔ path ∈ others := by
    rw [← List.mem_dedup, h, List.mem_dedup]
  have hsucceeds : (∃ merged, (files reader localOverrides paths).outcome = .ok merged) ↔
      ∃ merged, (files reader localOverrides others).outcome = .ok merged := by
    simp only [succeeds_iff, hsame]
  cases hpaths : (files reader localOverrides paths).outcome with
  | error error =>
    cases hothers : (files reader localOverrides others).outcome with
    | error other => rfl
    | ok merged =>
      obtain ⟨merged, hmerged⟩ := hsucceeds.2 ⟨merged, hothers⟩
      cases hpaths.symm.trans hmerged
  | ok merged =>
    obtain ⟨other, hothers⟩ := hsucceeds.1 ⟨merged, hpaths⟩
    have heq : merged = other := by
      apply KeySorted.ext_get?
      intro key
      rw [get?_files hpaths, get?_files hothers, ← findSome?_reverse_dedup, h,
        findSome?_reverse_dedup]
    rw [hothers, heq]

/-- Two lists of the same paths are loaded or refused together. What only one path defines or causes
is the same in both: the expression of a key that no other path has, and the error if no other path
fails. Beyond that only the order of the last places counts: if it is the same, so are the bindings,
and a path that is listed again later may be left out. Of several failing paths the first is
reported, so that an error may change with the order. -/
theorem order_only_decides_conflicts (reader : Reader) (localOverrides : Bool)
    {paths others : List String} (hsame : ∀ path, path ∈ paths ↔ path ∈ others) :
    ((∃ merged, (files reader localOverrides paths).outcome = .ok merged) ↔
      ∃ merged, (files reader localOverrides others).outcome = .ok merged) ∧
    (∀ merged other, (files reader localOverrides paths).outcome = .ok merged →
      (files reader localOverrides others).outcome = .ok other →
      merged.keys = other.keys ∧
      ∀ key, ∀ path ∈ paths,
        (∀ path' ∈ paths, Defines reader localOverrides path' key → path' = path) →
        merged.get? key = other.get? key) ∧
    (∀ path ∈ paths, (∀ path' ∈ paths, Fails reader localOverrides path' → path' = path) →
      (files reader localOverrides paths).error? = (files reader localOverrides others).error?) ∧
    ((∀ path path', LastBefore paths path path' ↔ LastBefore others path path') →
      (files reader localOverrides paths).outcome.toOption =
        (files reader localOverrides others).outcome.toOption) ∧
    ∀ before path after, paths = before ++ path :: after → path ∈ after →
      (files reader localOverrides (before ++ after)).outcome.toOption =
        (files reader localOverrides paths).outcome.toOption := by
  refine ⟨?_, ?_, ?_, ?_, ?_⟩
  · simp only [succeeds_iff, hsame]
  · intro merged other hmerged hother
    constructor
    · apply KeySorted.keys_eq_of_mem_iff
      intro key
      simp only [mem_keys_files hmerged, mem_keys_files hother, hsame]
    · intro key path hpath honly
      rw [get?_files_of_unique hmerged hpath honly]
      simp only [hsame] at hpath honly
      rw [get?_files_of_unique hother hpath honly]
  · intro path hpath honly
    rw [error?_files_of_unique hpath honly]
    simp only [hsame] at hpath honly
    rw [error?_files_of_unique hpath honly]
  · intro horder
    exact toOption_files_of_dedup_eq (dedup_eq_of_lastBefore hsame horder)
  · rintro before path after rfl hagain
    exact toOption_files_of_dedup_eq (dedup_of_mem_after hagain).symm

/-- A key of one file alone stays what it is when the files are swapped and one is listed twice,
while a key of both goes to the companion of the file that now comes last. -/
theorem swapped_files_keep_unshared_key :
    let reader := Reader.ofTable
      [("a", .ok "ONLY\nKEY='1'"), ("a.local", .ok "KEY='2'"), ("b", .ok "KEY='3'")]
    (∀ path, path ∈ ["a", "b"] ↔ path ∈ ["a", "b", "a"]) ∧
    ∃ merged other, (files reader true ["a", "b"]).outcome = .ok merged ∧
      (files reader true ["a", "b", "a"]).outcome = .ok other ∧
      merged.keys = other.keys ∧ merged.get? "ONLY" = other.get? "ONLY" ∧
      merged.get? "KEY" = some ⟨"KEY", .literal "3"⟩ ∧
      other.get? "KEY" = some ⟨"KEY", .literal "2"⟩ := by
  intro reader
  have hsame : ∀ path, path ∈ ["a", "b"] ↔ path ∈ ["a", "b", "a"] := by
    intro path
    simp only [List.mem_cons, List.not_mem_nil]
    tauto
  have hmerged : (files reader true ["a", "b"]).outcome =
      .ok (.ofList [⟨"KEY", .literal "3"⟩, ⟨"ONLY", .shorthand none⟩]) := by
    decide +kernel
  have hother : (files reader true ["a", "b", "a"]).outcome =
      .ok (.ofList [⟨"KEY", .literal "2"⟩, ⟨"ONLY", .shorthand none⟩]) := by
    decide +kernel
  have hsources : filePaths reader true ["b"] = ["b"] := by decide +kernel
  have hread : (Layer.file "b").read reader = .ok (.ofList [⟨"KEY", .literal "3"⟩]) := by
    decide +kernel
  have honly : ∀ path ∈ ["a", "b"], Defines reader true path "ONLY" → path = "a" := by
    rw [List.forall_mem_cons, List.forall_mem_singleton]
    refine ⟨fun _ => rfl, ?_⟩
    rintro ⟨source, hsource, bindings, hgives, hkey⟩
    rw [hsources, List.mem_singleton] at hsource
    rw [hsource, ← Layer.read_eq_ok_iff, hread] at hgives
    cases hgives
    exact absurd hkey (by decide)
  obtain ⟨-, hboth, -⟩ := order_only_decides_conflicts reader true hsame
  obtain ⟨hkeys, hget⟩ := hboth _ _ hmerged hother
  exact ⟨hsame, _, _, hmerged, hother, hkeys, hget "ONLY" "a" (by simp) honly, rfl, rfl⟩

example :
    (files (.ofTable []) false ["a", "b", "a"]).error? =
        some (.unreadable "a" (.absent "not found")) ∧
      (files (.ofTable []) false ["b", "a"]).error? =
        some (.unreadable "b" (.absent "not found")) := by
  decide +kernel

end Loading

end SecretEnv
