import SecretEnv.Proofs.Load.WellFormed
import SecretEnv.Proofs.Loading.Order
import SecretEnv.Proofs.Source.Entry

namespace SecretEnv

@[simp] theorem bind_eq_ok_iff {ε α β : Type} {x : Except ε α} {f : α → Except ε β} {b : β} :
    x >>= f = .ok b ↔ ∃ a, x = .ok a ∧ f a = .ok b := by
  cases x <;> simp [bind, Except.bind]

namespace Source

@[simp] theorem parseApart_eq_ok_iff {above below : String} {bindings : Bindings} :
    parseApart above below = .ok bindings ↔ ∃ lower, parse above = .ok lower ∧
      ∃ upper, parse below = .ok upper ∧ lower.overlay upper = bindings := by
  simp only [parseApart, bind_eq_ok_iff, pure, Except.pure, Except.ok.injEq]

theorem parse_append_of_headerless {above below : String}
    (h : ∀ line ∈ significantLines above, ¬ Line.IsHeader line) :
    parse (above ++ "\n" ++ below) = parseApart above below := by
  rw [parse, significantLines_append_lineFeed]
  exact parseLines_append (.inl h)

theorem parseEntry_append_lineFeed_eq_ok_iff {above below : String} {bindings : Bindings} :
    parseEntry (above ++ "\n" ++ below) = .ok bindings ↔ ∃ lower, parseEntry above = .ok lower ∧
      ∃ upper, parseEntry below = .ok upper ∧ lower.overlay upper = bindings := by
  simp only [parseEntry_eq_ok_iff]
  rw [significantLines_append_lineFeed, List.forall_mem_append]
  refine ⟨?_, ?_⟩
  · rintro ⟨hparse, habove, hbelow⟩
    rw [parse_append_of_headerless habove, parseApart_eq_ok_iff] at hparse
    obtain ⟨lower, hlower, upper, hupper, hbindings⟩ := hparse
    exact ⟨lower, ⟨hlower, habove⟩, upper, ⟨hupper, hbelow⟩, hbindings⟩
  · rintro ⟨lower, ⟨hlower, habove⟩, upper, ⟨hupper, hbelow⟩, hbindings⟩
    refine ⟨?_, habove, hbelow⟩
    rw [parse_append_of_headerless habove, parseApart_eq_ok_iff]
    exact ⟨lower, hlower, upper, hupper, hbindings⟩

end Source

namespace Layer

variable {reader : Reader} {text : String}

@[simp] theorem fault?_entry_eq_some_iff {error : LoadError} :
    (entry text).fault? reader = some error ↔
      ∃ cause, Source.parseEntry text = .error cause ∧ error = .inEntry text cause := by
  rw [fault?, read_entry]
  cases Source.parseEntry text with
  | error cause => simp [Except.mapError, eq_comm]
  | ok bindings => simp [Except.mapError]

@[simp] theorem fault?_entry_eq_none_iff :
    (entry text).fault? reader = none ↔ ∃ bindings, Source.parseEntry text = .ok bindings := by
  rw [fault?, read_entry]
  cases Source.parseEntry text <;> simp [Except.mapError]

end Layer

namespace Bindings

theorem overlayEntries_append (base : Bindings) (entries more : List String) :
    base.overlayEntries (entries ++ more) =
      base.overlayEntries entries >>= fun merged => overlayEntries merged more :=
  List.foldlM_append

@[simp] theorem overlayEntries_singleton (base : Bindings) (entry : String) :
    base.overlayEntries [entry] = base.overlayEntry entry := by
  rw [overlayEntries, List.foldlM_cons]
  exact bind_pure _

theorem overlayEntries_eq_map (base : Bindings) (entries : List String) :
    base.overlayEntries entries = base.overlay <$> overlayEntries .empty entries := by
  induction entries generalizing base with
  | nil => rfl
  | cons entry rest ih =>
    have hstep (below : Bindings) : below.overlayEntries (entry :: rest) =
        below.overlayEntry entry >>= fun next => overlayEntries next rest := List.foldlM_cons
    rw [hstep, hstep, overlayEntry, overlayEntry]
    cases Source.parseEntry entry with
    | error cause => rfl
    | ok bindings =>
      change overlayEntries (base.overlay bindings) rest =
        base.overlay <$> overlayEntries (KeySorted.empty.overlay bindings) rest
      rw [KeySorted.empty_overlay, ih (base.overlay bindings), ih bindings]
      cases overlayEntries .empty rest with
      | error cause => rfl
      | ok upper => exact congrArg Except.ok (KeySorted.overlay_assoc base bindings upper)

theorem overlayEntries_eq_ok_iff {base merged : Bindings} {entries : List String} :
    base.overlayEntries entries = .ok merged ↔
      ∃ upper, overlayEntries .empty entries = .ok upper ∧ base.overlay upper = merged := by
  rw [overlayEntries_eq_map]
  cases overlayEntries .empty entries <;> simp [Functor.map, Except.map]

theorem overlayEntries_eq_error_iff {base : Bindings} {entries : List String} {error : LoadError} :
    base.overlayEntries entries = .error error ↔ ∃ before entry after cause,
      entries = before ++ entry :: after ∧
        (∀ earlier ∈ before, ∃ bindings, Source.parseEntry earlier = .ok bindings) ∧
        Source.parseEntry entry = .error cause ∧ error = .inEntry entry cause := by
  -- Entries ask no reader for anything, so any reader will do.
  rw [Loading.overlayEntries_eq (.ofTable []), Loading.foldlM_overlayLayer_eq_error_iff,
    List.findSome?_map, List.findSome?_eq_some_iff]
  simp only [Function.comp_apply, Layer.fault?_entry_eq_some_iff, Layer.fault?_entry_eq_none_iff]
  refine ⟨?_, ?_⟩
  · rintro ⟨before, entry, after, hsplit, ⟨cause, hcause, herror⟩, hbefore⟩
    exact ⟨before, entry, after, cause, hsplit, hbefore, hcause, herror⟩
  · rintro ⟨before, entry, after, cause, hsplit, hbefore, hcause, herror⟩
    exact ⟨before, entry, after, hsplit, ⟨cause, hcause, herror⟩, hbefore⟩

def joinEntries (entries : List String) : String :=
  "\n".intercalate entries

theorem parseEntry_joinEntries_eq_ok_iff {entries : List String} {bindings : Bindings} :
    Source.parseEntry (joinEntries entries) = .ok bindings ↔
      overlayEntries .empty entries = .ok bindings := by
  induction entries generalizing bindings with
  | nil =>
    have hjoined : Source.parseEntry (joinEntries []) = .ok .empty := by decide +kernel
    have hmerged : overlayEntries .empty [] = .ok .empty := rfl
    simp only [hjoined, hmerged, Except.ok.injEq]
  | cons entry rest ih =>
    rw [overlayEntries_cons_eq_ok_iff]
    simp only [KeySorted.empty_overlay]
    cases rest with
    | nil =>
      have hjoin : joinEntries [entry] = entry := String.intercalate_singleton
      rw [hjoin]
      simp [overlayEntries, pure, Except.pure]
    | cons next rest =>
      have hjoin : joinEntries (entry :: next :: rest) =
          entry ++ "\n" ++ joinEntries (next :: rest) := String.intercalate_cons_cons
      rw [hjoin, Source.parseEntry_append_lineFeed_eq_ok_iff]
      simp only [ih]
      apply exists_congr
      intro lower
      rw [overlayEntries_eq_ok_iff]

@[simp] theorem overlayEntries_joined_eq_ok_iff {base merged : Bindings}
    {groups : List (List String)} :
    base.overlayEntries (groups.map joinEntries) = .ok merged ↔
      base.overlayEntries groups.flatten = .ok merged := by
  induction groups generalizing base with
  | nil => rfl
  | cons group rest ih =>
    rw [List.map_cons, List.flatten_cons, overlayEntries_cons_eq_ok_iff, overlayEntries_append,
      bind_eq_ok_iff]
    refine ⟨?_, ?_⟩
    · rintro ⟨upper, hupper, hrest⟩
      exact ⟨base.overlay upper,
        overlayEntries_eq_ok_iff.2 ⟨upper, parseEntry_joinEntries_eq_ok_iff.1 hupper, rfl⟩,
        ih.1 hrest⟩
    · rintro ⟨lower, hlower, hrest⟩
      obtain ⟨upper, hupper, rfl⟩ := overlayEntries_eq_ok_iff.1 hlower
      exact ⟨upper, parseEntry_joinEntries_eq_ok_iff.2 hupper, ih.2 hrest⟩

/-- Entries that are merged in two batches or one by one answer as they do all at once, and the
error is that of the first entry at fault. Neighbours written as one entry are accepted exactly when
all entries are, and say the same. -/
theorem entries_may_be_batched (base : Bindings) :
    (∀ entries more, base.overlayEntries (entries ++ more) =
      base.overlayEntries entries >>= fun merged => overlayEntries merged more) ∧
    (∀ entries, entries.foldlM (fun merged entry => overlayEntries merged [entry]) base =
      base.overlayEntries entries) ∧
    (∀ entries error, base.overlayEntries entries = .error error ↔ ∃ before entry after cause,
      entries = before ++ entry :: after ∧
        (∀ earlier ∈ before, ∃ bindings, Source.parseEntry earlier = .ok bindings) ∧
        Source.parseEntry entry = .error cause ∧ error = .inEntry entry cause) ∧
    ∀ (groups : List (List String)) merged,
      base.overlayEntries (groups.map joinEntries) = .ok merged ↔
        base.overlayEntries groups.flatten = .ok merged := by
  refine ⟨overlayEntries_append base, ?_, fun _ _ => overlayEntries_eq_error_iff,
    fun _ _ => overlayEntries_joined_eq_ok_iff⟩
  intro entries
  simp only [overlayEntries_singleton]
  rfl

example :
    overlayEntries .empty ["A", "bad-key"] =
        .error (.inEntry "bad-key" (.malformed "bad-key")) ∧
      overlayEntries .empty [joinEntries ["A", "bad-key"]] =
        .error (.inEntry "A\nbad-key" (.malformed "bad-key")) := by
  decide +kernel

end Bindings

end SecretEnv
