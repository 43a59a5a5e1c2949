import SecretEnv.Load
import SecretEnv.Proofs.Loading.Stack
import SecretEnv.Proofs.Resolution.Outcome

namespace SecretEnv

namespace Bindings

/-- The secrets that bindings ask for, each with the key that asks. -/
def requests (bindings : Bindings) : List (String × Location) :=
  bindings.toList.filterMap fun e => e.location?.map fun location => (e.key, location)

@[simp] theorem map_snd_requests (bindings : Bindings) :
    bindings.requests.map Prod.snd = bindings.toList.filterMap Expression.location? := by
  rw [requests, List.map_filterMap]
  apply List.filterMap_congr
  intro e _
  cases e.location? <;> rfl

@[simp] theorem mem_requests_iff {bindings : Bindings} {key : String} {location : Location} :
    (key, location) ∈ bindings.requests ↔
      ∃ e, bindings.get? key = some e ∧ e.Asks location := by
  simp only [requests, List.mem_filterMap, Option.map_eq_some_iff, KeySorted.get?_eq_some_iff,
    Prod.mk.injEq, Expression.location?_eq_some_iff]
  refine ⟨?_, ?_⟩
  · intro h
    obtain ⟨e, he, place, hplace, hkey, rfl⟩ := h
    exact ⟨e, ⟨he, hkey⟩, hplace⟩
  · intro h
    obtain ⟨e, ⟨he, hkey⟩, hplace⟩ := h
    exact ⟨e, he, location, hplace, hkey, rfl⟩

theorem pairwise_requests (bindings : Bindings) :
    (bindings.requests.map Prod.fst).Pairwise (· < ·) := by
  rw [requests, List.map_filterMap, List.pairwise_filterMap]
  refine bindings.ascending.imp ?_
  intro e later hlt key hkey other hother
  have hfst (e : Expression) (key : String)
      (hkey : (e.location?.map fun location => (e.key, location)).map Prod.fst = some key) :
      e.key = key := by
    cases hlocation : e.location? <;> simp_all
  rw [← hfst e key hkey, ← hfst later other hother]
  exact hlt

theorem failures_eq_nil_iff {vault : Vault} {bindings : Bindings} :
    Resolution.failures vault bindings.toList = [] ↔
      ∀ location ∈ bindings.requests.map Prod.snd, ∃ secret, vault location = .ok (some secret) := by
  rw [map_snd_requests, Resolution.failures_eq_nil_iff]

@[simp] theorem literalCount_add_lookupCount (bindings : Bindings) :
    bindings.literalCount + bindings.lookupCount = bindings.size := by
  have hle : bindings.literalCount ≤ bindings.size := List.countP_le_length
  unfold lookupCount
  omega

/-- What is counted is what is asked, although one is subtracted and the other collected. -/
theorem lookupCount_eq (bindings : Bindings) :
    bindings.lookupCount = bindings.requests.length := by
  have hsplit := List.length_eq_countP_add_countP Expression.isLiteral (l := bindings.toList)
  have hasked : bindings.requests.length =
      bindings.toList.countP fun e => ¬ e.isLiteral = true := by
    rw [requests, List.length_filterMap_eq_countP]
    apply List.countP_congr
    intro e _
    rw [Option.isSome_map, Option.isSome_iff_ne_none, ne_eq, Expression.location?_eq_none_iff,
      decide_eq_true_iff]
  unfold lookupCount literalCount KeySorted.size
  omega

end Bindings

/-- The layers of a load with these settings, the lowest first. -/
def Settings.stack (settings : Settings) (reader : Reader) (entries : List String) : List Layer :=
  Loading.stack reader settings.localOverrides (if settings.readFiles then settings.files else [])
    entries

theorem Settings.outcome_collect (settings : Settings) (reader : Reader) (entries : List String) :
    (settings.collect reader entries).outcome =
      (settings.stack reader entries).foldlM (Loading.overlayLayer reader) .empty := by
  unfold collect stack
  cases settings.readFiles with
  | true => exact Loading.outcome_layers reader settings.localOverrides settings.files entries
  | false =>
    rw [← Loading.outcome_layers]
    rfl

namespace Settings

variable (settings : Settings) (timing : Timing Resolution.Placed) (reader : Reader)
  (vault : Vault) (entries : List String)

theorem load_of_error {error : LoadError}
    (h : (settings.collect reader entries).outcome = .error error) :
    settings.load timing reader vault entries =
      ⟨(settings.collect reader entries).reads, [], .error (.sources error)⟩ := by
  simp only [load, h]

theorem load_of_ok {bindings : Bindings}
    (h : (settings.collect reader entries).outcome = .ok bindings) :
    settings.load timing reader vault entries =
      ⟨(settings.collect reader entries).reads,
        (Resolution.resolve settings.schedule timing vault bindings.toList).events,
        if Resolution.failures vault bindings.toList = [] then
          .ok ⟨.ofList (Resolution.values vault bindings.toList), bindings.literalCount,
            bindings.lookupCount⟩
        else .error (.lookups ⟨Resolution.failures vault bindings.toList⟩)⟩ := by
  simp only [load, h, Resolution.outcome_eq]
  by_cases hnone : Resolution.failures vault bindings.toList = []
  · simp only [if_pos hnone]
  · simp only [if_neg hnone]

theorem calls_load {bindings : Bindings}
    (h : (settings.collect reader entries).outcome = .ok bindings) :
    (settings.load timing reader vault entries).calls = bindings.requests.map Prod.snd := by
  rw [load_of_ok settings timing reader vault entries h, Bindings.map_snd_requests,
    ← Resolution.map_location_lookups]
  exact Resolution.calls_resolve settings.schedule timing vault bindings.toList

theorem get?_collect {bindings : Bindings}
    (h : (settings.collect reader entries).outcome = .ok bindings) (key : String)
    (e : Expression) :
    bindings.get? key = some e ↔ Loading.Uppermost reader (settings.stack reader entries) key e := by
  rw [outcome_collect] at h
  obtain ⟨hgives, rfl⟩ := Loading.foldlM_overlayLayer_eq_ok_iff.1 h
  exact Loading.get?_of_stack hgives key e

theorem loaded_of_found {bindings : Bindings}
    (h : (settings.collect reader entries).outcome = .ok bindings)
    (hfound : ∀ location ∈ (settings.load timing reader vault entries).calls,
      ∃ secret, vault location = .ok (some secret)) :
    ∃ loaded, (settings.load timing reader vault entries).outcome = .ok loaded ∧
      loaded.environment.keys = bindings.keys ∧
      (∀ key value, loaded.environment.get? key = some (key, value) ↔
        ∃ e, bindings.get? key = some e ∧ e.Yields vault value) ∧
      loaded.literalCount + loaded.lookupCount = loaded.environment.size ∧
      loaded.lookupCount = (settings.load timing reader vault entries).calls.length := by
  rw [calls_load settings timing reader vault entries h] at hfound ⊢
  have hnone := Bindings.failures_eq_nil_iff.2 hfound
  have hkeys := Resolution.keys_values hnone
  rw [load_of_ok settings timing reader vault entries h, if_pos hnone]
  refine ⟨_, rfl, hkeys, fun _ _ => Resolution.get?_values, ?_, ?_⟩
  · rw [bindings.literalCount_add_lookupCount, ← KeySorted.length_keys, ← KeySorted.length_keys,
      hkeys]
  · rw [List.length_map, bindings.lookupCount_eq]

theorem load_of_missing {bindings : Bindings}
    (h : (settings.collect reader entries).outcome = .ok bindings)
    (hmissing : ∃ location ∈ (settings.load timing reader vault entries).calls,
      ∀ secret, vault location ≠ .ok (some secret)) :
    Resolution.failures vault bindings.toList ≠ [] ∧
      (settings.load timing reader vault entries).outcome =
        .error (.lookups ⟨Resolution.failures vault bindings.toList⟩) := by
  rw [calls_load settings timing reader vault entries h] at hmissing
  obtain ⟨location, hlocation, hmissing⟩ := hmissing
  have hsome : Resolution.failures vault bindings.toList ≠ [] := by
    intro hnone
    obtain ⟨secret, hfound⟩ := Bindings.failures_eq_nil_iff.1 hnone location hlocation
    exact hmissing secret hfound
  rw [load_of_ok settings timing reader vault entries h, if_neg hsome]
  exact ⟨hsome, rfl⟩

@[simp] theorem reads_load : (settings.load timing reader vault entries).reads =
    (settings.collect reader entries).reads := by
  unfold load
  dsimp only
  split <;> rfl

/-- Faulty sources keep the vault from being asked anything. From good ones the surviving
expressions are collected, each that is no literal is looked up once, in key order, and there is a
value for every key unless a lookup fails. -/
theorem load_asks_survivors_once :
    let load := settings.load timing reader vault entries
    let collected := (settings.collect reader entries).outcome
    (∀ error, collected = .error error →
      load.outcome = .error (.sources error) ∧ load.events = []) ∧
    (∀ bindings, collected = .ok bindings →
      (∀ key e, bindings.get? key = some e ↔
        Loading.Uppermost reader (settings.stack reader entries) key e) ∧
      (∃ requests : List (String × Location), load.calls = requests.map Prod.snd ∧
        (requests.map Prod.fst).Pairwise (· < ·) ∧
        ∀ key location, (key, location) ∈ requests ↔
          ∃ e, bindings.get? key = some e ∧ e.Asks location) ∧
      ((∀ location ∈ load.calls, ∃ secret, vault location = .ok (some secret)) →
        ∃ loaded, load.outcome = .ok loaded ∧ loaded.environment.keys = bindings.keys ∧
          (∀ key value, loaded.environment.get? key = some (key, value) ↔
            ∃ e, bindings.get? key = some e ∧ e.Yields vault value) ∧
          loaded.literalCount + loaded.lookupCount = loaded.environment.size ∧
          loaded.lookupCount = load.calls.length) ∧
      ((∃ location ∈ load.calls, ∀ secret, vault location ≠ .ok (some secret)) →
        Resolution.failures vault bindings.toList ≠ [] ∧
        load.outcome = .error (.lookups ⟨Resolution.failures vault bindings.toList⟩))) ∧
    (settings.readFiles = false →
      load.reads = [] ∧ collected = Bindings.overlayEntries .empty entries) := by
  refine ⟨?_, ?_, ?_⟩
  · intro error h
    rw [load_of_error settings timing reader vault entries h]
    exact ⟨rfl, rfl⟩
  · intro bindings h
    refine ⟨get?_collect settings reader entries h,
      ⟨bindings.requests, calls_load settings timing reader vault entries h,
        bindings.pairwise_requests, fun _ _ => Bindings.mem_requests_iff⟩,
      loaded_of_found settings timing reader vault entries h,
      load_of_missing settings timing reader vault entries h⟩
  · intro hunread
    have hcollect : settings.collect reader entries =
        Loading.done (Bindings.overlayEntries .empty entries) := by
      simp [collect, hunread]
    rw [reads_load, hcollect]
    exact ⟨rfl, rfl⟩

theorem load_of_collect_eq {other : Settings} (later : Timing Resolution.Placed)
    (h : settings.collect reader entries = other.collect reader entries) :
    (settings.load timing reader vault entries).outcome =
        (other.load later reader vault entries).outcome ∧
      (settings.load timing reader vault entries).calls =
        (other.load later reader vault entries).calls ∧
      (settings.load timing reader vault entries).reads =
        (other.load later reader vault entries).reads := by
  cases hother : (other.collect reader entries).outcome with
  | error error =>
    have hsettings : (settings.collect reader entries).outcome = .error error := h ▸ hother
    rw [load_of_error settings timing reader vault entries hsettings,
      load_of_error other later reader vault entries hother, h]
    exact ⟨rfl, rfl, rfl⟩
  | ok bindings =>
    have hsettings : (settings.collect reader entries).outcome = .ok bindings := h ▸ hother
    refine ⟨?_, ?_, ?_⟩
    · rw [load_of_ok settings timing reader vault entries hsettings,
        load_of_ok other later reader vault entries hother]
    · rw [calls_load settings timing reader vault entries hsettings,
        calls_load other later reader vault entries hother]
    · rw [reads_load, reads_load, h]

/-- Neither the schedule nor the timing shows in what is answered or in what is asked: every call
begins in its turn, and the outcomes are put back into that order however the calls end. -/
theorem schedule_is_unobservable (schedule other : Schedule)
    (later : Timing Resolution.Placed) (expressions : List Expression) :
    let resolution := Resolution.resolve schedule timing vault expressions
    let resolution' := Resolution.resolve other later vault expressions
    let load := { settings with schedule := schedule }.load timing reader vault entries
    let load' := { settings with schedule := other }.load later reader vault entries
    (resolution.outcome = resolution'.outcome ∧ resolution.calls = resolution'.calls) ∧
    load.outcome = load'.outcome ∧ load.calls = load'.calls ∧ load.reads = load'.reads := by
  intro resolution resolution' load load'
  refine ⟨⟨?_, ?_⟩, load_of_collect_eq _ timing reader vault entries later rfl⟩
  · simp only [resolution, resolution', Resolution.outcome_eq]
  · simp only [resolution, resolution', Resolution.calls_resolve]

end Settings

end SecretEnv
