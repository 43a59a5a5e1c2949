import SecretEnv.Proofs.Load.EndToEnd
import SecretEnv.Proofs.Source.Written

/-! What collecting sources can yield. Every layer is well formed on its own, and putting one over
another keeps whole expressions; an inline entry takes its keys out of every section. Nothing else
is needed to write the outcome down as a single source that says the same. -/
namespace SecretEnv

namespace Bindings

/-- One of the inline entries defines the key, which then no file decides. -/
def SetBy (entries : List String) (key : String) : Prop :=
  ∃ entry ∈ entries, ∃ bindings, Source.parseEntry entry = .ok bindings ∧ key ∈ bindings.keys

def UnscopedAt (bindings : Bindings) (key : String) : Prop :=
  ∀ e, bindings.get? key = some e → e.rule.item? = none

theorem UnscopedAt.overlay {base upper : Bindings} {key : String} (hupper : upper.Unscoped)
    (h : key ∈ upper.keys ∨ base.UnscopedAt key) : UnscopedAt (base.overlay upper) key := by
  intro e he
  rw [KeySorted.get?_overlay, Option.or_eq_some_iff] at he
  rcases he with he | ⟨hnone, he⟩
  · exact hupper key e he
  · rcases h with hkey | hbase
    · exact absurd hkey (KeySorted.not_mem_keys_iff.2 hnone)
    · exact hbase e he

theorem overlayEntries_cons_eq_ok_iff {base merged : Bindings} {entry : String}
    {rest : List String} :
    base.overlayEntries (entry :: rest) = .ok merged ↔ ∃ bindings,
      Source.parseEntry entry = .ok bindings ∧
        overlayEntries (base.overlay bindings) rest = .ok merged := by
  rw [overlayEntries, List.foldlM_cons, overlayEntry]
  cases Source.parseEntry entry with
  | error error => simp [bind, Except.bind]
  | ok bindings =>
    simp only [Except.ok.injEq, exists_eq_left']
    rfl

theorem WellFormed.overlayEntries {base merged : Bindings} {entries : List String}
    (hbase : base.WellFormed) (h : base.overlayEntries entries = .ok merged) :
    merged.WellFormed := by
  induction entries generalizing base with
  | nil =>
    cases h
    exact hbase
  | cons entry rest ih =>
    obtain ⟨bindings, hentry, hrest⟩ := overlayEntries_cons_eq_ok_iff.1 h
    have hbindings := Source.wellFormed_parse (Source.parse_of_parseEntry hentry).1
    exact ih (hbase.overlay hbindings) hrest

theorem unscopedAt_overlayEntries {base merged : Bindings} {entries : List String} {key : String}
    (h : base.overlayEntries entries = .ok merged)
    (hkey : SetBy entries key ∨ base.UnscopedAt key) : merged.UnscopedAt key := by
  induction entries generalizing base with
  | nil =>
    cases h
    rcases hkey with ⟨entry, hin, -⟩ | hbase
    · cases hin
    · exact hbase
  | cons entry rest ih =>
    obtain ⟨bindings, hentry, hrest⟩ := overlayEntries_cons_eq_ok_iff.1 h
    have hupper := Source.unscoped_parseEntry hentry
    apply ih hrest
    -- This entry defines the key, a later one does, or the base has taken it out already.
    rcases hkey with ⟨setter, hin, set, hset, hdefines⟩ | hbase
    · rcases List.mem_cons.1 hin with rfl | hin
      · cases hentry.symm.trans hset
        exact .inr (.overlay hupper (.inl hdefines))
      · exact .inl ⟨setter, hin, set, hset, hdefines⟩
    · exact .inr (.overlay hupper (.inr hbase))

structure Collected (bindings : Bindings) (entries : List String) : Prop where
  wellFormed : bindings.WellFormed
  unscoped : ∀ key, SetBy entries key → bindings.UnscopedAt key

theorem WellFormed.collected {base merged : Bindings} {entries : List String}
    (hbase : base.WellFormed) (h : base.overlayEntries entries = .ok merged) :
    merged.Collected entries :=
  ⟨hbase.overlayEntries h, fun _ hkey => unscopedAt_overlayEntries h (.inl hkey)⟩

end Bindings

theorem Layer.wellFormed_of_read {reader : Reader} {layer : Layer} {bindings : Bindings}
    (h : layer.read reader = .ok bindings) : bindings.WellFormed := by
  rw [read_eq_ok_iff] at h
  cases layer with
  | file path =>
    obtain ⟨text, -, hparse⟩ := h
    exact Source.wellFormed_parse hparse
  | entry text => exact Source.wellFormed_parse (Source.parse_of_parseEntry h).1

namespace Loading

variable {reader : Reader} {localOverrides : Bool} {paths entries : List String}

theorem wellFormed_foldlM {layers : List Layer} {base merged : Bindings} (hbase : base.WellFormed)
    (h : layers.foldlM (overlayLayer reader) base = .ok merged) : merged.WellFormed := by
  induction layers generalizing base with
  | nil =>
    cases h
    exact hbase
  | cons layer rest ih =>
    rw [List.foldlM_cons, overlayLayer] at h
    cases hread : layer.read reader with
    | error error =>
      rw [hread] at h
      cases h
    | ok bindings =>
      rw [hread] at h
      exact ih (hbase.overlay (Layer.wellFormed_of_read hread)) h

theorem wellFormed_files {bindings : Bindings}
    (h : (files reader localOverrides paths).outcome = .ok bindings) : bindings.WellFormed := by
  rw [outcome_files] at h
  exact wellFormed_foldlM Bindings.wellFormed_empty h

theorem collected_layers {merged : Bindings}
    (h : (layers reader localOverrides paths entries).outcome = .ok merged) :
    merged.Collected entries := by
  unfold layers at h
  rw [outcome_bind] at h
  cases hfiles : (files reader localOverrides paths).outcome with
  | error error =>
    rw [hfiles] at h
    cases h
  | ok base =>
    rw [hfiles] at h
    exact (wellFormed_files hfiles).collected h

end Loading

theorem Settings.collected_collect {settings : Settings} {reader : Reader} {entries : List String}
    {merged : Bindings} (h : (settings.collect reader entries).outcome = .ok merged) :
    merged.Collected entries := by
  unfold collect at h
  split at h
  · exact Loading.collected_layers h
  · exact Bindings.wellFormed_empty.collected h

/-- Whatever reads sources yields well-formed bindings: from one text, one entry, one file, several
files, entries over well-formed bindings, files under entries, and whole settings. A key that an
entry defines is in no section, whatever the sources below it say. -/
theorem results_are_well_formed (reader : Reader) (localOverrides : Bool)
    (paths entries : List String) (settings : Settings) :
    (∀ text bindings, Source.parse text = .ok bindings → bindings.WellFormed) ∧
    (∀ text bindings, Source.parseEntry text = .ok bindings →
      bindings.WellFormed ∧ bindings.Unscoped) ∧
    (∀ path bindings, (Loading.file reader path).outcome = .ok bindings → bindings.WellFormed) ∧
    (∀ bindings, (Loading.files reader localOverrides paths).outcome = .ok bindings →
      bindings.WellFormed) ∧
    (∀ base bindings : Bindings, base.WellFormed → base.overlayEntries entries = .ok bindings →
      bindings.Collected entries) ∧
    (∀ bindings, (Loading.layers reader localOverrides paths entries).outcome = .ok bindings →
      bindings.Collected entries) ∧
    ∀ bindings, (settings.collect reader entries).outcome = .ok bindings →
      bindings.Collected entries := by
  refine ⟨fun _ _ => Source.wellFormed_parse, ?_, ?_, fun _ => Loading.wellFormed_files,
    fun _ _ => Bindings.WellFormed.collected, fun _ => Loading.collected_layers,
    fun _ => Settings.collected_collect⟩
  · intro text bindings h
    exact ⟨Source.wellFormed_parse (Source.parse_of_parseEntry h).1, Source.unscoped_parseEntry h⟩
  · intro path bindings h
    rw [Loading.outcome_file] at h
    exact Layer.wellFormed_of_read h

theorem entry_takes_key_out_of_section :
    let load := Loading.layers (.ofTable [("a", .ok "[item: my db ]\nHOST\nPORT='1'")]) false ["a"]
      ["HOST=B"]
    ∃ merged, load.outcome = .ok merged ∧ merged.WellFormed ∧ merged.UnscopedAt "HOST" := by
  intro load
  obtain ⟨-, -, -, -, -, hlayers, -⟩ := results_are_well_formed
    (.ofTable [("a", .ok "[item: my db ]\nHOST\nPORT='1'")]) false ["a"] ["HOST=B"] .default
  have hkey : Bindings.SetBy ["HOST=B"] "HOST" :=
    ⟨"HOST=B", by simp, .ofList [⟨"HOST", .reference "B" none⟩], rfl, by decide⟩
  have hsucceeds : load.outcome.isOk = true := by decide +kernel
  cases houtcome : load.outcome with
  | error error =>
    rw [houtcome] at hsucceeds
    cases hsucceeds
  | ok merged =>
    have hcollected := hlayers merged houtcome
    exact ⟨merged, rfl, hcollected.wellFormed, hcollected.unscoped "HOST" hkey⟩

/-- Well-formed bindings are what sources say: any text that writes them down is read as them, and
one such text is `Bindings.render`. So a load, whatever it reads, amounts to one source, and what
entries can say is just what is well formed and in no section. -/
theorem written_bindings_read_back :
    (∀ (bindings : Bindings) text, bindings.WellFormed → bindings.WrittenAs text →
      Source.parse text = .ok bindings) ∧
    (∀ bindings : Bindings, bindings.WrittenAs bindings.render) ∧
    (∀ reader localOverrides paths entries bindings,
      (Loading.layers reader localOverrides paths entries).outcome = .ok bindings →
        Source.parse bindings.render = .ok bindings) ∧
    (∀ (settings : Settings) reader entries bindings,
      (settings.collect reader entries).outcome = .ok bindings →
        Source.parse bindings.render = .ok bindings) ∧
    (∀ bindings : Bindings,
      (∃ text, Source.parse text = .ok bindings) ↔ bindings.WellFormed) ∧
    ∀ bindings : Bindings,
      (∃ text, Source.parseEntry text = .ok bindings) ↔
        bindings.WellFormed ∧ bindings.Unscoped := by
  refine ⟨fun _ _ => Source.parse_of_writtenAs, Bindings.writtenAs_render, ?_, ?_, ?_, ?_⟩
  · intro reader localOverrides paths entries bindings h
    exact Source.parse_render (Loading.collected_layers h).wellFormed
  · intro settings reader entries bindings h
    exact Source.parse_render (Settings.collected_collect h).wellFormed
  · intro bindings
    refine ⟨?_, fun h => ⟨_, Source.parse_render h⟩⟩
    rintro ⟨text, h⟩
    exact Source.wellFormed_parse h
  · intro bindings
    refine ⟨?_, fun h => ⟨_, Source.parseEntry_render h.1 h.2⟩⟩
    rintro ⟨text, h⟩
    exact ⟨Source.wellFormed_parse (Source.parse_of_parseEntry h).1, Source.unscoped_parseEntry h⟩

end SecretEnv
