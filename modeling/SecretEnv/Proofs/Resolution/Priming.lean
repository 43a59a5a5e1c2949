import SecretEnv.Proofs.Resolution.Answer
import SecretEnv.Proofs.Run.Trace

namespace SecretEnv

/-- The lookups that are under way together if every lookup waits. -/
def Schedule.waves {α : Type} : Schedule → List α → List (List α)
  | _, [] => []
  | fanOut, calls => [calls]
  | primeThenFanOut, [first] => [[first]]
  | primeThenFanOut, first :: rest => [[first], rest]

@[simp] theorem Schedule.filter_groups {α : Type} (schedule : Schedule) (calls : List α) :
    (schedule.groups calls).filter (!·.isEmpty) = schedule.waves calls := by
  cases schedule with
  | fanOut => cases calls <;> rfl
  | primeThenFanOut =>
    cases calls with
    | nil => rfl
    | cons first rest => cases rest <;> rfl

@[simp] theorem Schedule.map_waves {α β : Type} (schedule : Schedule) (f : α → β) (calls : List α) :
    (schedule.waves calls).map (List.map f) = schedule.waves (calls.map f) := by
  cases schedule with
  | fanOut => cases calls <;> rfl
  | primeThenFanOut =>
    cases calls with
    | nil => rfl
    | cons first rest => cases rest <;> rfl

theorem Event.eq_begun_of_alone {α : Type} {first : α} {before rest after : List (Event α)}
    (h : .begun first :: .ended first :: after = before ++ rest) (hbefore : before ≠ [])
    (hended : .ended first ∉ before) : before = [.begun first] := by
  cases before with
  | nil => exact absurd rfl hbefore
  | cons event before =>
    cases before with
    | nil =>
      cases h
      rfl
    | cons second before =>
      cases h
      simp at hended

namespace Resolution

variable (timing : Timing Placed) (asked : List Lookup)

theorem trace_run (schedule : Schedule) :
    Run.Trace timing.waits (schedule.groups asked.zipIdx) (run schedule timing asked) :=
  Run.trace_events timing _

theorem run_primed {first : Placed} {rest : List Placed} (h : asked.zipIdx = first :: rest) :
    ∃ after, run .primeThenFanOut timing asked = .begun first :: .ended first :: after ∧
      Run.Trace timing.waits [rest] after := by
  have htrace := trace_run timing asked .primeThenFanOut
  rw [h] at htrace
  exact htrace.alone

theorem underWay_primed {first : Placed} {rest : List Placed}
    (h : asked.zipIdx = first :: rest) {before after : List (Event Placed)}
    (hshown : run .primeThenFanOut timing asked = before ++ after) (hbefore : before ≠ [])
    (hended : .ended first ∉ before) (call : Placed) :
    Event.UnderWay before call ↔ call = first := by
  obtain ⟨_, halone, -⟩ := run_primed timing asked h
  rw [Event.eq_begun_of_alone (halone.symm.trans hshown) hbefore hended]
  simp [Event.UnderWay]

theorem begun_after_first {first : Placed} {rest : List Placed}
    (h : asked.zipIdx = first :: rest) {after : List (Event Placed)}
    (hshown : run .primeThenFanOut timing asked = .begun first :: .ended first :: after) :
    after.filterMap Event.begun? = rest := by
  have hbegun := begun_run .primeThenFanOut timing asked
  rw [hshown, h] at hbegun
  exact (List.cons.inj hbegun).2

theorem waves_run (schedule : Schedule)
    (hwaits : ∀ call ∈ asked.zipIdx, timing.waits call = true) :
    Event.waves (run schedule timing asked) = schedule.waves asked.zipIdx := by
  have hgroups : ∀ call ∈ (schedule.groups asked.zipIdx).flatten, timing.waits call = true := by
    rwa [Schedule.flatten_groups]
  rw [(trace_run timing asked schedule).waves_eq hgroups, Schedule.filter_groups]

theorem waves_resolve (schedule : Schedule) (vault : Vault) (expressions : List Expression)
    (hwaits : ∀ call ∈ (lookups expressions).zipIdx, timing.waits call = true) :
    Event.waves (resolve schedule timing vault expressions).events =
      schedule.waves (resolve schedule timing vault expressions).calls := by
  have hlocations : (lookups expressions).zipIdx.map (fun placed => placed.1.location) =
      ((lookups expressions).zipIdx.map Prod.fst).map Lookup.location := List.map_map.symm
  rw [events_resolve, Event.waves_map, waves_run _ _ _ hwaits, Schedule.map_waves, calls_resolve,
    hlocations, List.zipIdx_map_fst]

theorem asks_placed (expressions : List Expression) :
    List.Forall₂ (fun e call => call.1.key = e.key ∧ e.Asks call.1.location)
      (expressions.filter fun e => !e.isLiteral) (lookups expressions).zipIdx := by
  have hasks := asks_lookups expressions
  rwa [← List.zipIdx_map_fst 0 (lookups expressions), List.forall₂_map_right_iff] at hasks

/-- Every expression that is no literal has a lookup, which begins once, in order, and ends once.
Under priming the first is the only one under way until it has ended; the others follow it whatever
it answered. Lookups that are free to overlap and wait for their answers all begin before any of
them ends. -/
theorem first_lookup_runs_alone (schedule : Schedule) (timing : Timing Placed) (vault : Vault)
    (expressions : List Expression) :
    let calls := (lookups expressions).zipIdx
    let shown := run schedule timing (lookups expressions)
    let resolution := resolve schedule timing vault expressions
    List.Forall₂ (fun e call => call.1.key = e.key ∧ e.Asks call.1.location)
      (expressions.filter fun e => !e.isLiteral) calls ∧
    resolution.events = shown.map (Event.map fun call => call.1.location) ∧
    shown.filterMap Event.begun? = calls ∧
    (shown.filterMap Event.ended?).Perm calls ∧
    (∀ call before after, shown = before ++ .ended call :: after → .begun call ∈ before) ∧
    (schedule = .primeThenFanOut → ∀ first rest, calls = first :: rest →
      (∀ before after, shown = before ++ after → before ≠ [] → .ended first ∉ before →
        ∀ call, Event.UnderWay before call ↔ call = first) ∧
      ∃ after, shown = .begun first :: .ended first :: after ∧
        after.filterMap Event.begun? = rest ∧
        ((∀ call ∈ rest, timing.waits call = true) → Event.Together rest after)) ∧
    (schedule = .fanOut → (∀ call ∈ calls, timing.waits call = true) →
      Event.Together calls shown) ∧
    ((∀ call ∈ calls, timing.waits call = true) →
      Event.waves resolution.events = schedule.waves resolution.calls) := by
  intro calls shown resolution
  refine ⟨asks_placed expressions, events_resolve schedule timing vault expressions,
    begun_run schedule timing _, ended_run schedule timing _, ?_, ?_, ?_,
    waves_resolve timing schedule vault expressions⟩
  · intro call before after hshown
    refine (Run.begun_of_ended hshown).resolve_right ?_
    exact List.not_mem_nil
  · rintro rfl first rest hcalls
    obtain ⟨after, hshown, htrace⟩ := run_primed timing _ hcalls
    exact ⟨fun _ _ => underWay_primed timing _ hcalls, after, hshown,
      begun_after_first timing _ hcalls hshown, htrace.together⟩
  · rintro rfl hwaits
    exact (trace_run timing _ .fanOut).together hwaits

/-- Behind a literal, the first of three lookups is primed and the other two overlap. -/
theorem first_of_three_runs_alone (vault : Vault) :
    let expressions : List Expression := [⟨"A", .literal "a"⟩, ⟨"B", .shorthand none⟩,
      ⟨"C", .reference "c" none⟩, ⟨"D", .shorthand (some "db")⟩]
    Event.waves (resolve .primeThenFanOut .inOrder vault expressions).events =
      [[.item "B"], [.item "c", .field "db" "D"]] := by
  intro expressions
  obtain ⟨-, -, -, -, -, -, -, hwaves⟩ :=
    first_lookup_runs_alone .primeThenFanOut .inOrder vault expressions
  rw [hwaves (fun _ _ => rfl), calls_resolve]
  rfl

end Resolution

end SecretEnv
