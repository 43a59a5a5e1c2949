import Mathlib.Data.List.Perm.Basic
import SecretEnv.Run

namespace SecretEnv

namespace Event

variable {α β : Type}

@[simp] theorem begun?_begun (call : α) : begun? (begun call) = some call := rfl

@[simp] theorem begun?_ended (call : α) : begun? (ended call) = none := rfl

@[simp] theorem ended?_begun (call : α) : ended? (begun call) = none := rfl

@[simp] theorem ended?_ended (call : α) : ended? (ended call) = some call := rfl

theorem filterMap_begun?_spread (f : α → List β) (events : List (Event α)) :
    (events.flatMap (spread f)).filterMap begun? = (events.filterMap begun?).flatMap f := by
  induction events with
  | nil => rfl
  | cons event rest ih =>
    rw [List.flatMap_cons, List.filterMap_append, ih]
    cases event with
    | begun call => simp [spread, List.filterMap_map, Function.comp_def]
    | ended call => simp [spread, List.filterMap_map, Function.comp_def, List.filterMap_cons]

theorem flatMap_spread_singleton (f : α → β) (events : List (Event α)) :
    events.flatMap (spread fun call => [f call]) = events.map (Event.map f) := by
  rw [List.map_eq_flatMap]
  congr 1
  funext event
  cases event <;> rfl

end Event

namespace Run

variable {α : Type}

def unbegun (run : Run α) : List α :=
  run.waiting ++ run.held.flatten

def unended (run : Run α) : List α :=
  run.underWay ++ run.unbegun

theorem move_cases {timing : Timing α} {run next : Run α} {shown : List (Event α)}
    (h : run.move timing = some (shown, next)) :
    (∃ call waiting, run.waiting = call :: waiting ∧ timing.waits call = true ∧
      shown = [.begun call] ∧ next = ⟨waiting, run.underWay ++ [call], run.held⟩) ∨
    (∃ call waiting, run.waiting = call :: waiting ∧ timing.waits call = false ∧
      shown = [.begun call, .ended call] ∧ next = ⟨waiting, run.underWay, run.held⟩) ∨
    (∃ i call, run.waiting = [] ∧ run.underWay[i]? = some call ∧
      shown = [.ended call] ∧ next = ⟨[], run.underWay.eraseIdx i, run.held⟩) ∨
    (∃ group held, run = ⟨[], [], group :: held⟩ ∧ shown = [] ∧ next = ⟨group, [], held⟩) := by
  unfold move at h
  split at h
  · next call waiting underWay held =>
    split at h
    · next hwaits =>
      cases h
      exact .inl ⟨call, waiting, rfl, hwaits, rfl, rfl⟩
    · next hwaits =>
      cases h
      exact .inr (.inl ⟨call, waiting, rfl, by simpa using hwaits, rfl, rfl⟩)
  · next oldest younger held =>
    cases h
    have hlt := Nat.mod_lt (timing.picks 0) (Nat.zero_lt_succ younger.length)
    refine .inr (.inr (.inl ⟨timing.picks 0 % (oldest :: younger).length, _, rfl, ?_, rfl, rfl⟩))
    rw [List.getD_eq_getElem?_getD, List.getElem?_eq_getElem hlt]
    rfl
  · next group held =>
    cases h
    exact .inr (.inr (.inr ⟨group, held, rfl, rfl, rfl⟩))
  · cases h

theorem eq_of_move_none {timing : Timing α} {run : Run α} (h : run.move timing = none) :
    run = ⟨[], [], []⟩ := by
  unfold move at h
  split at h
  · split at h <;> cases h
  · cases h
  · cases h
  · rfl

theorem unbegun_of_move {timing : Timing α} {run next : Run α} {shown : List (Event α)}
    (h : run.move timing = some (shown, next)) :
    run.unbegun = shown.filterMap Event.begun? ++ next.unbegun := by
  rcases move_cases h with ⟨call, waiting, hwaiting, -, rfl, rfl⟩ |
    ⟨call, waiting, hwaiting, -, rfl, rfl⟩ | ⟨i, call, hwaiting, -, rfl, rfl⟩ |
    ⟨group, held, rfl, rfl, rfl⟩
  · simp [unbegun, hwaiting, Event.begun?]
  · simp [unbegun, hwaiting, Event.begun?]
  · simp [unbegun, hwaiting, Event.begun?]
  · simp [unbegun]

theorem unended_of_move {timing : Timing α} {run next : Run α} {shown : List (Event α)}
    (h : run.move timing = some (shown, next)) :
    run.unended.Perm (shown.filterMap Event.ended? ++ next.unended) := by
  rcases move_cases h with ⟨call, waiting, hwaiting, -, rfl, rfl⟩ |
    ⟨call, waiting, hwaiting, -, rfl, rfl⟩ | ⟨i, call, hwaiting, hcall, rfl, rfl⟩ |
    ⟨group, held, rfl, rfl, rfl⟩
  · simp [unended, unbegun, hwaiting, List.filterMap_cons, Event.ended?]
  · simp only [unended, unbegun, hwaiting, List.filterMap_cons, Event.ended?, List.filterMap_nil]
    exact List.perm_middle
  · obtain ⟨hlt, rfl⟩ := List.getElem?_eq_some_iff.1 hcall
    have hperm := (List.getElem_cons_eraseIdx_perm hlt).symm.append_right run.held.flatten
    simpa [unended, unbegun, hwaiting, List.filterMap_cons, Event.ended?] using hperm
  · simp [unended, unbegun]

/-- Calls begin in the order of the groups, each once. -/
@[simp] theorem begun_events (timing : Timing α) (run : Run α) :
    (run.events timing).filterMap Event.begun? = run.unbegun := by
  fun_induction events timing run with
  | case1 timing run hmove =>
    rw [eq_of_move_none hmove]
    rfl
  | case2 timing run shown next hmove ih =>
    rw [List.filterMap_append, ih, unbegun_of_move hmove]

theorem ended_events (timing : Timing α) (run : Run α) :
    ((run.events timing).filterMap Event.ended?).Perm run.unended := by
  fun_induction events timing run with
  | case1 timing run hmove =>
    rw [eq_of_move_none hmove]
    exact .nil
  | case2 timing run shown next hmove ih =>
    rw [List.filterMap_append]
    exact (ih.append_left _).trans (unended_of_move hmove).symm

end Run

end SecretEnv
