import SecretEnv.Proofs.Resolution.Answer
import SecretEnv.Proofs.Vault.Memory

/-! A vault in memory over whole runs. What it answers is decided by the items put in so far, of
each title the last, and what it counts by the questions asked so far; putting items in is not
counted, and asking changes no item. -/
namespace SecretEnv

namespace Expression

/-- The expression asks for a place that holds nothing when these items have been put in. -/
def Unheld (items : List Item) (e : Expression) : Prop :=
  ∃ location, e.Asks location ∧ ∀ secret, ¬ location.Holds items secret

/-- What the key of an expression is given when these items have been put in. -/
inductive Obtains (items : List Item) : Expression → String → Prop where
  | literal (key text : String) : Obtains items ⟨key, .literal text⟩ text
  | secret {e : Expression} {location : Location} {secret : Secret} (asks : e.Asks location)
      (holds : location.Holds items secret) : Obtains items e secret.value

/-- What is said of an expression that asks for a place that holds nothing. -/
inductive Misses : Expression → String → Prop where
  | field {e : Expression} {item label : String} (asks : e.Asks (.field item label)) :
      Misses e ("No field \"" ++ label ++ "\" found in item \"" ++ item ++ "\"")
  | reference (key target : String) :
      Misses ⟨key, .reference target none⟩ ("No item found for reference " ++ target)
  | shorthand (key : String) : Misses ⟨key, .shorthand none⟩ ("No item found for " ++ key)

variable {vault : MemoryVault} {e : Expression}

@[simp] theorem unmet_iff : e.Unmet vault.answers ↔ e.Unheld vault.history := by
  refine exists_congr fun location => and_congr_right fun _ => forall_congr' fun secret => ?_
  rw [ne_eq, MemoryVault.answers_eq_some_iff]

instance (items : List Item) : DecidablePred (Unheld items) := fun e =>
  decidable_of_iff (e.Unmet (MemoryVault.ofItems items).answers)
    (by rw [unmet_iff, MemoryVault.history_ofItems])

theorem Yields.obtains {value : String} (h : e.Yields vault.answers value) :
    e.Obtains vault.history value := by
  obtain ⟨key, rule⟩ := e
  rcases h with hrule | ⟨location, secret, hasks, hfound, rfl⟩
  · cases hrule
    exact .literal key value
  · exact .secret hasks (MemoryVault.answers_eq_some_iff.1 hfound)

theorem Complaint.misses {message : String} (h : e.Complaint vault.answers message) :
    e.Misses message := by
  cases h with
  | field asks missing => exact .field asks
  | reference missing => exact .reference _ _
  | shorthand missing => exact .shorthand _
  | fault asks fails => cases fails

end Expression

/-- How many lookups a query takes: one, or one for every key whose surviving expression is no
literal. -/
def Query.lookups : Query → Nat
  | look _ => 1
  | resolve text _ =>
    match Source.parse text with
    | .error _ => 0
    | .ok bindings => bindings.toList.countP fun e => !e.isLiteral

namespace MemoryVault

abbrev Timed := Timing Resolution.Placed × Step

def after (vault : MemoryVault) (steps : List Timed) : MemoryVault :=
  steps.foldl (fun vault step => (vault.perform step.1 step.2).2) vault

def Step.inserted? : Step → Option Item
  | .insert item => some item
  | .ask _ => none

def inserted (steps : List Timed) : List Item :=
  steps.filterMap fun step => step.2.inserted?

def Step.lookups : Step → Nat
  | .insert _ => 0
  | .ask query => query.lookups

def lookups : List Timed → Nat
  | [] => 0
  | step :: rest => step.2.lookups + lookups rest

/-- What may come of a step, the reply and the vault after it, when these items have been put in. -/
inductive Yields (history : List Item) (vault : MemoryVault) :
    Step → Option Reply × MemoryVault → Prop where
  | insert (item : Item) :
      Yields history vault (.insert item) (none, ⟨item :: vault.items, vault.counter⟩)
  | look (location : Location) (found : Option Secret)
      (holds : ∀ secret, found = some secret ↔ location.Holds history secret) :
      Yields history vault (.ask (.look location))
        (some (.found (.ok found)), ⟨vault.items, vault.counter + 1⟩)
  | misread (text : String) (schedule : Schedule) (error : LineError)
      (bad : Source.parse text = .error error) :
      Yields history vault (.ask (.resolve text schedule)) (some (.misread error), vault)
  | resolved (text : String) (schedule : Schedule) (bindings : Bindings)
      (environment : Environment) (good : Source.parse text = .ok bindings)
      (keys : environment.keys = bindings.keys)
      (values : ∀ e ∈ bindings.toList, ∃ value, e.Obtains history value ∧
        environment.get? e.key = some (e.key, value)) :
      Yields history vault (.ask (.resolve text schedule))
        (some (.resolved (.ok environment)),
          ⟨vault.items, vault.counter + .ofNat (bindings.toList.countP fun e => !e.isLiteral)⟩)
  | failed (text : String) (schedule : Schedule) (bindings : Bindings)
      (failures : List LookupFailure) (good : Source.parse text = .ok bindings)
      (fails : failures ≠ [])
      (missing : List.Forall₂ (fun e failure => failure.key = e.key ∧ e.Misses failure.message)
        (bindings.toList.filter fun e => e.Unheld history) failures) :
      Yields history vault (.ask (.resolve text schedule))
        (some (.resolved (.error ⟨failures⟩)),
          ⟨vault.items, vault.counter + .ofNat (bindings.toList.countP fun e => !e.isLiteral)⟩)

private theorem foldl_add_one {α : Type} (list : List α) (count : USize) :
    list.foldl (fun count _ => count + 1) count = count + .ofNat list.length := by
  induction list generalizing count with
  | nil => exact (USize.add_zero count).symm
  | cons a rest ih =>
    rw [List.foldl_cons, ih, List.length_cons, Nat.add_comm, USize.ofNat_add, USize.add_assoc]
    rfl

theorem count_calls (vault : MemoryVault) (schedule : Schedule)
    (timing : Timing Resolution.Placed) (expressions : List Expression) :
    (Resolution.through schedule timing vault.service expressions).calls.foldl (· + ·)
        vault.counter =
      vault.counter + .ofNat (expressions.countP fun e => !e.isLiteral) := by
  rw [Resolution.calls_through, List.foldl_flatMap, List.countP_eq_length_filter,
    (Resolution.asks_lookups expressions).length_eq]
  exact foldl_add_one _ _

theorem missing_of_failures (vault : MemoryVault) (expressions : List Expression) :
    List.Forall₂ (fun e failure => failure.key = e.key ∧ e.Misses failure.message)
      (expressions.filter fun e => e.Unheld vault.history)
      (Resolution.failures vault.answers expressions) := by
  have hcomplaints := Resolution.complaints_failures vault.answers expressions
  simp only [Expression.unmet_iff] at hcomplaints
  exact hcomplaints.imp fun e failure h => ⟨h.1, h.2.misses⟩

theorem yields_perform (vault : MemoryVault) (timing : Timing Resolution.Placed) (step : Step) :
    Yields vault.history vault step (vault.perform timing step) := by
  cases step with
  | insert item => exact .insert item
  | ask query =>
    cases query with
    | look location =>
      refine .look location _ fun secret => ?_
      rw [← answers_eq_some_iff, answers_apply, Except.ok.injEq]
    | resolve text schedule =>
      cases hparse : Source.parse text with
      | error error =>
        simp only [perform, Query.serve, hparse]
        exact .misread text schedule error hparse
      | ok bindings =>
        simp only [perform, Query.serve, hparse, count_calls, Resolution.outcome_through_eq]
        split
        · next hnone =>
          refine .resolved text schedule bindings _ hparse (Resolution.keys_values hnone) ?_
          intro e he
          obtain ⟨value, hyields⟩ := Resolution.exists_yields hnone he
          exact ⟨value, hyields.obtains, Resolution.get?_values.2
            ⟨e, KeySorted.get?_eq_some_iff.2 ⟨he, rfl⟩, hyields⟩⟩
        · next hsome =>
          exact .failed text schedule bindings _ hparse hsome
            (vault.missing_of_failures bindings.toList)

section Step

variable {history : List Item} {vault : MemoryVault} {step : Step}
  {shown : Option Reply × MemoryVault}

theorem Yields.history_eq (h : Yields history vault step shown) :
    shown.2.history = vault.history ++ step.inserted?.toList := by
  cases h with
  | insert item => exact history_insert vault item
  | look => exact (List.append_nil _).symm
  | misread => exact (List.append_nil _).symm
  | resolved => exact (List.append_nil _).symm
  | failed => exact (List.append_nil _).symm

theorem Yields.counter_eq (h : Yields history vault step shown) :
    shown.2.counter = vault.counter + .ofNat step.lookups := by
  cases h with
  | insert item => exact (USize.add_zero _).symm
  | look location found holds => rfl
  | misread text schedule error bad =>
    simp only [Step.lookups, Query.lookups, bad]
    exact (USize.add_zero _).symm
  | resolved text schedule bindings environment good => simp [Step.lookups, Query.lookups, good]
  | failed text schedule bindings failures good => simp [Step.lookups, Query.lookups, good]

end Step

@[simp] theorem inserted_cons (step : Timed) (rest : List Timed) :
    inserted (step :: rest) = step.2.inserted?.toList ++ inserted rest := by
  rw [inserted, List.filterMap_cons]
  cases step.2.inserted? <;> rfl

@[simp] theorem history_after (vault : MemoryVault) (steps : List Timed) :
    (vault.after steps).history = vault.history ++ inserted steps := by
  -- For all vaults at once: the rest runs from the one that the first step leaves.
  induction steps generalizing vault with
  | nil => exact (List.append_nil _).symm
  | cons step rest ih =>
    have hstep := (vault.yields_perform step.1 step.2).history_eq
    rw [after, List.foldl_cons, ← after, ih, hstep, List.append_assoc, inserted_cons]

@[simp] theorem counter_after (vault : MemoryVault) (steps : List Timed) :
    (vault.after steps).counter = vault.counter + .ofNat (lookups steps) := by
  induction steps generalizing vault with
  | nil => exact (USize.add_zero _).symm
  | cons step rest ih =>
    have hstep := (vault.yields_perform step.1 step.2).counter_eq
    rw [after, List.foldl_cons, ← after, ih, hstep, USize.add_assoc, ← USize.ofNat_add]
    rfl

/-- Whatever was done before, the vault holds the items put in so far and has counted the lookups
made so far, and the next step yields what follows from these items. -/
theorem run_follows_history (items : List Item) (done : List Timed)
    (timing : Timing Resolution.Placed) (step : Step) :
    let vault := (ofItems items).after done
    let history := items ++ inserted done
    vault.history = history ∧
      (vault.counter = .ofNat (lookups done) ∧ vault.served = lookups done % USize.size) ∧
      Yields history vault step (vault.perform timing step) := by
  intro vault history
  have hhistory : vault.history = history := by
    rw [history_after, history_ofItems]
  have hcounter : vault.counter = .ofNat (lookups done) := by
    rw [counter_after, counter_ofItems, USize.zero_add]
  refine ⟨hhistory, ⟨hcounter, ?_⟩, ?_⟩
  · rw [served, hcounter, USize.toNat_ofNat']
  · rw [← hhistory]
    exact vault.yields_perform timing step

end MemoryVault

end SecretEnv
