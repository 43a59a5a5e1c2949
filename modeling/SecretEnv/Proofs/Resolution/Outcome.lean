import SecretEnv.Proofs.KeySorted.Lookup
import SecretEnv.Proofs.Run.Completion
import SecretEnv.Resolution

/-! What resolution answers, whatever the schedule and the timing: calls begin in the order of the
expressions, and their outcomes are put back into that order however they arrive. -/
namespace SecretEnv

@[simp] theorem Schedule.flatten_groups {α : Type} (schedule : Schedule) (calls : List α) :
    (schedule.groups calls).flatten = calls := by
  cases schedule with
  | primeThenFanOut => cases calls <;> simp [groups]
  | fanOut => simp [groups]

/-- The place in the vault that an expression asks for. Literals ask for nothing. -/
inductive Expression.Asks : Expression → Location → Prop where
  | reference (key target : String) : Asks ⟨key, .reference target none⟩ (.item target)
  | scopedReference (key target item : String) :
      Asks ⟨key, .reference target (some item)⟩ (.field item target)
  | shorthand (key : String) : Asks ⟨key, .shorthand none⟩ (.item key)
  | scopedShorthand (key item : String) : Asks ⟨key, .shorthand (some item)⟩ (.field item key)

/-- What a variable is given: the text of its literal, or the secret at the place it points at. -/
def Expression.Yields (vault : Vault) (e : Expression) (value : String) : Prop :=
  e.rule = .literal value ∨ ∃ location secret, e.Asks location ∧
    vault location = .ok (some secret) ∧ secret.value = value

namespace Expression

@[simp] theorem location?_eq_some_iff {e : Expression} {location : Location} :
    e.location? = some location ↔ e.Asks location := by
  refine ⟨?_, ?_⟩
  · obtain ⟨key, rule⟩ := e
    intro h
    cases rule with
    | literal text => cases h
    | reference target item =>
      cases item with
      | none =>
        cases h
        exact .reference key target
      | some item =>
        cases h
        exact .scopedReference key target item
    | shorthand item =>
      cases item with
      | none =>
        cases h
        exact .shorthand key
      | some item =>
        cases h
        exact .scopedShorthand key item
  · rintro ⟨⟩ <;> rfl

@[simp] theorem location?_eq_none_iff {e : Expression} :
    e.location? = none ↔ e.isLiteral = true := by
  obtain ⟨key, rule⟩ := e
  cases rule <;> simp [location?, lookupName?, isLiteral, Rule.isLiteral]

theorem exists_asks {e : Expression} (h : e.isLiteral = false) : ∃ location, e.Asks location := by
  simp only [← location?_eq_some_iff, ← Option.isSome_iff_exists, Option.isSome_iff_ne_none]
  rw [ne_eq, location?_eq_none_iff, h]
  exact Bool.false_ne_true

theorem Asks.unique {e : Expression} {location other : Location} (h : e.Asks location)
    (hother : e.Asks other) : location = other := by
  rw [← location?_eq_some_iff] at h hother
  exact Option.some.inj (h.symm.trans hother)

theorem not_asks_of_literal {e : Expression} {text : String} (h : e.rule = .literal text)
    (location : Location) : ¬ e.Asks location := by
  rintro ⟨⟩ <;> cases h

theorem Yields.eq {vault : Vault} {e : Expression} {value other : String}
    (h : e.Yields vault value) (hother : e.Yields vault other) : value = other := by
  rcases h with hrule | ⟨location, secret, hasks, hfound, rfl⟩ <;>
    rcases hother with hrule' | ⟨location', secret', hasks', hfound', rfl⟩
  · cases hrule.symm.trans hrule'
    rfl
  · exact absurd hasks' (not_asks_of_literal hrule location')
  · exact absurd hasks (not_asks_of_literal hrule' location)
  · cases hasks.unique hasks'
    cases hfound.symm.trans hfound'
    rfl

end Expression

namespace Lookup

variable {μ : Type}

def outcome (vault : Vault) (lookup : Lookup) : Except LookupFailure (String × String) :=
  lookup.conclude (vault lookup.location)

@[simp] theorem result_run (service : Service μ) (lookup : Lookup) :
    (lookup.run service).result = lookup.outcome service.answers := rfl

@[simp] theorem marks_run (service : Service μ) (lookup : Lookup) :
    (lookup.run service).marks = (service lookup.location).marks := rfl

end Lookup

@[simp] theorem Lookup.outcome_eq_ok_iff {vault : Vault} {lookup : Lookup} {key value : String} :
    lookup.outcome vault = .ok (key, value) ↔
      lookup.key = key ∧ ∃ secret, vault lookup.location = .ok (some secret) ∧
        secret.value = value := by
  unfold outcome
  cases vault lookup.location with
  | error error => simp
  | ok found => cases found <;> simp

theorem Lookup.outcome_eq (vault : Vault) (lookup : Lookup) :
    lookup.outcome vault = match (vault lookup.location).map (Option.map Secret.value) with
      | .ok (some value) => .ok (lookup.key, value)
      | .ok none => .error ⟨lookup.key, lookup.missingMessage⟩
      | .error error => .error ⟨lookup.key, error.message⟩ := by
  unfold outcome
  cases vault lookup.location with
  | error error => rfl
  | ok found => cases found <;> rfl

namespace Resolution

@[simp] theorem begun_run (schedule : Schedule) (timing : Timing Placed) (lookups : List Lookup) :
    (run schedule timing lookups).filterMap Event.begun? = lookups.zipIdx := by
  rw [run, Run.begun_events, Run.unbegun, Run.ofGroups, List.nil_append, Schedule.flatten_groups]

theorem ended_run (schedule : Schedule) (timing : Timing Placed) (lookups : List Lookup) :
    ((run schedule timing lookups).filterMap Event.ended?).Perm lookups.zipIdx := by
  have hended := Run.ended_events timing (Run.ofGroups (schedule.groups lookups.zipIdx))
  rw [Run.unended, Run.unbegun, Run.ofGroups, List.nil_append, List.nil_append,
    Schedule.flatten_groups] at hended
  exact hended

section Through

variable {μ : Type} (schedule : Schedule) (timing : Timing Placed) (service : Service μ)
  (vault : Vault) (expressions : List Expression)

@[simp] theorem calls_through : (through schedule timing service expressions).calls =
    (lookups expressions).flatMap fun lookup => (service lookup.location).marks := by
  rw [calls, through, Event.filterMap_begun?_spread, begun_run]
  have hfst := List.flatMap_map Prod.fst (fun lookup : Lookup => (lookup.run service).marks)
    (lookups expressions).zipIdx
  rw [List.zipIdx_map_fst] at hfst
  exact hfst.symm

@[simp] theorem events_resolve : (resolve schedule timing vault expressions).events =
    (run schedule timing (lookups expressions)).map (Event.map fun placed => placed.1.location) :=
  Event.flatMap_spread_singleton (fun placed : Placed => placed.1.location) _

@[simp] theorem calls_resolve : (resolve schedule timing vault expressions).calls =
    (lookups expressions).map Lookup.location := by
  rw [resolve, calls_through, List.map_eq_flatMap]
  rfl

end Through

private theorem lookup_eq_some {β : Type} {arrived : List (Nat × β)} {i : Nat} {b : β}
    (hin : (i, b) ∈ arrived) (honly : ∀ c, (i, c) ∈ arrived → c = b) :
    arrived.lookup i = some b := by
  cases hlookup : arrived.lookup i with
  | none =>
    have hne := List.lookup_eq_none_iff.1 hlookup (i, b) hin
    simp at hne
  | some c =>
    obtain ⟨before, after, rfl, -⟩ := List.lookup_eq_some_iff.1 hlookup
    rw [honly c (by simp)]

private theorem filterMap_range_getElem? {β : Type} (list : List β) :
    ((List.range list.length).filterMap fun i => list[i]?) = list := by
  induction list with
  | nil => rfl
  | cons b rest ih =>
    rw [List.length_cons, List.range_succ_eq_map, List.filterMap_cons, List.filterMap_map]
    simpa [Function.comp_def] using ih

/-- Each outcome goes back to the place of its call, in whatever order the outcomes arrived. -/
theorem arrange_of_perm {α β : Type} (f : α → β) {list : List α} {arrived : List (Nat × β)}
    (h : arrived.Perm (list.zipIdx.map fun placed => (placed.2, f placed.1))) :
    arrange list.length arrived = list.map f := by
  have hmem (i : Nat) (b : β) : (i, b) ∈ arrived ↔ ∃ a, list[i]? = some a ∧ f a = b := by
    rw [h.mem_iff]
    simp [List.mk_mem_zipIdx_iff_getElem?]
  have hlookup : ∀ i ∈ List.range list.length, arrived.lookup i = (list.map f)[i]? := by
    intro i hi
    rw [List.mem_range] at hi
    rw [List.getElem?_map, List.getElem?_eq_getElem hi, Option.map_some]
    apply lookup_eq_some
    · exact (hmem i _).2 ⟨list[i], List.getElem?_eq_getElem hi, rfl⟩
    · intro c hc
      obtain ⟨a, ha, rfl⟩ := (hmem i c).1 hc
      rw [List.getElem?_eq_getElem hi] at ha
      cases ha
      rfl
  rw [arrange, List.filterMap_congr hlookup]
  have hrange := filterMap_range_getElem? (list.map f)
  rwa [List.length_map] at hrange

/-- The answer depends on the outcome of each lookup alone, not on the schedule or the timing. -/
theorem outcome_through {μ : Type} (schedule : Schedule) (timing : Timing Placed)
    (service : Service μ) (expressions : List Expression) :
    (through schedule timing service expressions).outcome =
      settle expressions ((lookups expressions).map (Lookup.outcome service.answers)) := by
  unfold through
  dsimp only
  congr 1
  apply arrange_of_perm
  exact (ended_run schedule timing (lookups expressions)).map _

theorem outcome_resolve (schedule : Schedule) (timing : Timing Placed) (vault : Vault)
    (expressions : List Expression) :
    (resolve schedule timing vault expressions).outcome =
      settle expressions ((lookups expressions).map (Lookup.outcome vault)) :=
  outcome_through schedule timing vault.recorded expressions

/-- The lookups that find nothing or fail, in the order of the expressions. -/
def failures (vault : Vault) (expressions : List Expression) : List LookupFailure :=
  (lookups expressions).filterMap fun lookup => failure? (lookup.outcome vault)

def values (vault : Vault) (expressions : List Expression) : List (String × String) :=
  literals expressions ++
    (lookups expressions).filterMap fun lookup => (lookup.outcome vault).toOption

theorem settle_outcomes (vault : Vault) (expressions : List Expression) :
    settle expressions ((lookups expressions).map (Lookup.outcome vault)) =
      if failures vault expressions = [] then .ok (.ofList (values vault expressions))
      else .error ⟨failures vault expressions⟩ := by
  have hfailures : ((lookups expressions).map (Lookup.outcome vault)).filterMap failure? =
      failures vault expressions := List.filterMap_map
  have hvalues : literals expressions ++
      ((lookups expressions).map (Lookup.outcome vault)).filterMap Except.toOption =
      values vault expressions := by
    rw [List.filterMap_map]
    rfl
  rw [settle, hfailures, hvalues]
  cases failures vault expressions <;> rfl

theorem outcome_through_eq {μ : Type} (schedule : Schedule) (timing : Timing Placed)
    (service : Service μ) (expressions : List Expression) :
    (through schedule timing service expressions).outcome =
      if failures service.answers expressions = [] then
        .ok (.ofList (values service.answers expressions))
      else .error ⟨failures service.answers expressions⟩ := by
  rw [outcome_through, settle_outcomes]

theorem outcome_eq (schedule : Schedule) (timing : Timing Placed) (vault : Vault)
    (expressions : List Expression) :
    (resolve schedule timing vault expressions).outcome =
      if failures vault expressions = [] then .ok (.ofList (values vault expressions))
      else .error ⟨failures vault expressions⟩ :=
  outcome_through_eq schedule timing vault.recorded expressions

@[simp] theorem map_location_lookups (expressions : List Expression) :
    (lookups expressions).map Lookup.location = expressions.filterMap Expression.location? := by
  rw [lookups, List.map_filterMap]
  apply List.filterMap_congr
  intro e _
  rw [Lookup.ofExpression?, Option.map_map]
  cases e.location? <;> rfl

theorem outcome_congr_value {vault other : Vault} {expressions : List Expression}
    (h : ∀ location ∈ expressions.filterMap Expression.location?,
      (vault location).map (Option.map Secret.value) =
        (other location).map (Option.map Secret.value))
    (schedule : Schedule) (timing timing' : Timing Placed) :
    (resolve schedule timing vault expressions).outcome =
      (resolve schedule timing' other expressions).outcome := by
  rw [← map_location_lookups, List.forall_mem_map] at h
  rw [outcome_resolve, outcome_resolve]
  congr 1
  apply List.map_congr_left
  intro lookup hlookup
  rw [Lookup.outcome_eq, h lookup hlookup, ← Lookup.outcome_eq]

theorem outcome_congr {vault other : Vault} {expressions : List Expression}
    (h : ∀ location ∈ expressions.filterMap Expression.location?,
      vault location = other location) (schedule : Schedule) (timing timing' : Timing Placed) :
    (resolve schedule timing vault expressions).outcome =
      (resolve schedule timing' other expressions).outcome := by
  apply outcome_congr_value
  intro location hlocation
  rw [h location hlocation]

theorem failures_eq_nil_iff {vault : Vault} {expressions : List Expression} :
    failures vault expressions = [] ↔
      ∀ location ∈ expressions.filterMap Expression.location?,
        ∃ secret, vault location = .ok (some secret) := by
  rw [failures, List.filterMap_eq_nil_iff, ← map_location_lookups, List.forall_mem_map]
  refine forall₂_congr ?_
  intro lookup _
  unfold Lookup.outcome
  cases vault lookup.location with
  | error error => simp [failure?]
  | ok found => cases found <;> simp [failure?]

theorem exists_yields {vault : Vault} {expressions : List Expression}
    (h : failures vault expressions = []) {e : Expression} (he : e ∈ expressions) :
    ∃ value, e.Yields vault value := by
  obtain ⟨key, rule⟩ := e
  cases hlocation : Expression.location? ⟨key, rule⟩ with
  | some location =>
    obtain ⟨secret, hfound⟩ := failures_eq_nil_iff.1 h location
      (List.mem_filterMap.2 ⟨_, he, hlocation⟩)
    exact ⟨secret.value,
      .inr ⟨location, secret, Expression.location?_eq_some_iff.1 hlocation, hfound, rfl⟩⟩
  | none =>
    cases rule with
    | literal text => exact ⟨text, .inl rfl⟩
    | reference target item => cases hlocation
    | shorthand item => cases hlocation

theorem ofExpression?_of_asks {e : Expression} {location : Location} (h : e.Asks location) :
    Lookup.ofExpression? e = some ⟨e.key, location, e.rule.kind == .reference⟩ := by
  rw [Lookup.ofExpression?, Expression.location?_eq_some_iff.2 h]
  rfl

@[simp] theorem mem_literals_iff {expressions : List Expression} {key value : String} :
    (key, value) ∈ literals expressions ↔
      ∃ e ∈ expressions, e.key = key ∧ e.rule = .literal value := by
  rw [literals, List.mem_filterMap]
  refine exists_congr fun e => and_congr_right fun _ => ?_
  cases e.rule <;> simp

private theorem toOption_outcome_eq_some_iff {vault : Vault} {lookup : Lookup}
    {pair : String × String} :
    (lookup.outcome vault).toOption = some pair ↔ lookup.outcome vault = .ok pair := by
  cases lookup.outcome vault <;> simp [Except.toOption]

@[simp] theorem mem_values_iff {vault : Vault} {expressions : List Expression}
    {key value : String} :
    (key, value) ∈ values vault expressions ↔
      ∃ e ∈ expressions, e.key = key ∧ e.Yields vault value := by
  rw [values, List.mem_append, mem_literals_iff, List.mem_filterMap]
  simp only [toOption_outcome_eq_some_iff, Lookup.outcome_eq_ok_iff]
  refine ⟨?_, ?_⟩
  · intro h
    rcases h with ⟨e, he, hkey, hrule⟩ | ⟨lookup, hlookup, hkey, secret, hfound, hvalue⟩
    · exact ⟨e, he, hkey, .inl hrule⟩
    · rw [lookups, List.mem_filterMap] at hlookup
      obtain ⟨e, he, hof⟩ := hlookup
      obtain ⟨location, hlocation, rfl⟩ := Option.map_eq_some_iff.1 hof
      exact ⟨e, he, hkey,
        .inr ⟨location, secret, Expression.location?_eq_some_iff.1 hlocation, hfound, hvalue⟩⟩
  · intro h
    obtain ⟨e, he, hkey, hrule | ⟨location, secret, hasks, hfound, hvalue⟩⟩ := h
    · exact .inl ⟨e, he, hkey, hrule⟩
    · exact .inr ⟨_, List.mem_filterMap.2 ⟨e, he, ofExpression?_of_asks hasks⟩, hkey, secret,
        hfound, hvalue⟩

theorem mem_keys_values_iff {vault : Vault} {expressions : List Expression}
    (hnone : failures vault expressions = []) {key : String} :
    key ∈ (.ofList (values vault expressions) : Environment).keys ↔
      ∃ e ∈ expressions, e.key = key := by
  rw [KeySorted.mem_keys_ofList_iff]
  refine ⟨?_, ?_⟩
  · rintro ⟨⟨name, value⟩, hpair, rfl⟩
    obtain ⟨e, he, hkey, -⟩ := mem_values_iff.1 hpair
    exact ⟨e, he, hkey⟩
  · rintro ⟨e, he, rfl⟩
    obtain ⟨value, hyields⟩ := exists_yields hnone he
    exact ⟨(e.key, value), mem_values_iff.2 ⟨e, he, rfl, hyields⟩, rfl⟩

theorem get?_values {vault : Vault} {bindings : Bindings} {key value : String} :
    KeySorted.get? (.ofList (values vault bindings.toList) : Environment) key = some (key, value) ↔
      ∃ e, bindings.get? key = some e ∧ e.Yields vault value := by
  have honly {e : Expression} (he : bindings.get? key = some e) (hyields : e.Yields vault value) :
      ∀ pair ∈ values vault bindings.toList, pair.1 = key → pair = (key, value) := by
    intro pair hpair hkey
    obtain ⟨e', he', hkey', hyields'⟩ := mem_values_iff.1 hpair
    have hget : bindings.get? key = some e' :=
      KeySorted.get?_eq_some_iff.2 ⟨he', hkey'.trans hkey⟩
    cases he.symm.trans hget
    rw [← hkey, hyields.eq hyields']
  refine ⟨?_, ?_⟩
  · intro h
    obtain ⟨e, he, hkey, hyields⟩ := mem_values_iff.1 (KeySorted.mem_of_get?_ofList h)
    exact ⟨e, KeySorted.get?_eq_some_iff.2 ⟨he, hkey⟩, hyields⟩
  · intro h
    obtain ⟨e, he, hyields⟩ := h
    have hin : (key, value) ∈ values vault bindings.toList :=
      mem_values_iff.2 ⟨e, KeySorted.mem_of_get? he, KeySorted.get?_key he, hyields⟩
    exact KeySorted.get?_ofList_of_unique hin (honly he hyields)

theorem keys_values {vault : Vault} {bindings : Bindings}
    (h : failures vault bindings.toList = []) :
    KeySorted.keys (.ofList (values vault bindings.toList) : Environment) = bindings.keys := by
  apply KeySorted.keys_eq_of_mem_iff
  intro key
  rw [mem_keys_values_iff h]
  exact List.mem_map.symm

end Resolution

end SecretEnv
