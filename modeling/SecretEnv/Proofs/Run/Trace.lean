import SecretEnv.Proofs.Run.Completion

/-! What runs can show, said without their moves: group after group, the calls begin in order, and
then those that wait end in some order. Timings leave exactly this open, no more and no less. From
it follow the waves of a run and that a call which is a group of its own runs alone. -/
namespace SecretEnv

namespace Event

variable {α : Type}

/-- What a call shows when it begins. One that does not wait ends in the same moment. -/
def opening (waits : α → Bool) (call : α) : List (Event α) :=
  if waits call then [.begun call] else [.begun call, .ended call]

/-- All of these calls begin, in this order, before any of them ends. -/
def Together (calls : List α) (events : List (Event α)) : Prop :=
  ∃ ends : List α, ends.Perm calls ∧ events = calls.map .begun ++ ends.map .ended

/-- The call has begun, and it has not ended. -/
def UnderWay (events : List (Event α)) (call : α) : Prop :=
  .begun call ∈ events ∧ .ended call ∉ events

theorem flatMap_opening_of_waits {waits : α → Bool} {calls : List α}
    (h : ∀ call ∈ calls, waits call = true) :
    calls.flatMap (opening waits) = calls.map .begun := by
  induction calls with
  | nil => rfl
  | cons call rest ih =>
    obtain ⟨hcall, hrest⟩ := List.forall_mem_cons.1 h
    rw [List.flatMap_cons, ih hrest, opening, if_pos hcall]
    rfl

@[simp] theorem wavesFrom_begun (group calls : List α) (rest : List (Event α)) :
    wavesFrom group (calls.map .begun ++ rest) = wavesFrom (group ++ calls) rest := by
  induction calls generalizing group with
  | nil => simp
  | cons call calls ih =>
    simp only [List.map_cons, List.cons_append, wavesFrom]
    rw [ih, List.append_assoc, List.singleton_append]

@[simp] theorem wavesFrom_nil_ended (ends : List α) (rest : List (Event α)) :
    wavesFrom [] (ends.map .ended ++ rest) = waves rest := by
  induction ends with
  | nil => rfl
  | cons call ends ih => simpa [wavesFrom] using ih

theorem wavesFrom_ended {group ends : List α} (h : ends.Perm group) (rest : List (Event α)) :
    wavesFrom group (ends.map .ended ++ rest) = [group].filter (!·.isEmpty) ++ waves rest := by
  cases ends with
  | nil =>
    rw [List.nil_perm] at h
    subst h
    rfl
  | cons call ends =>
    have hgroup : group.isEmpty = false := by
      rw [List.isEmpty_eq_false_iff]
      rintro rfl
      cases h.eq_nil
    simp [wavesFrom, hgroup]

theorem wavesFrom_map {β : Type} (f : α → β) (group : List α) (events : List (Event α)) :
    wavesFrom (group.map f) (events.map (Event.map f)) =
      (wavesFrom group events).map (List.map f) := by
  induction events generalizing group with
  | nil => cases group <;> rfl
  | cons event rest ih =>
    cases event with
    | begun call => simpa [wavesFrom, Event.map] using ih (group ++ [call])
    | ended call => cases group <;> simpa [wavesFrom, Event.map] using ih []

@[simp] theorem waves_map {β : Type} (f : α → β) (events : List (Event α)) :
    waves (events.map (Event.map f)) = (waves events).map (List.map f) :=
  wavesFrom_map f [] events

end Event

def Timing.before {α : Type} (pick : Nat) (timing : Timing α) : Timing α where
  waits := timing.waits
  picks
    | 0 => pick
    | move + 1 => timing.picks move

namespace Run

variable {α : Type}

/-- The events that runs of these groups can show. -/
inductive Trace (waits : α → Bool) : List (List α) → List (Event α) → Prop where
  | nil : Trace waits [] []
  | cons {group ends : List α} {groups : List (List α)} {events : List (Event α)}
      (order : ends.Perm (group.filter waits)) (rest : Trace waits groups events) :
      Trace waits (group :: groups)
        (group.flatMap (Event.opening waits) ++ ends.map .ended ++ events)

theorem events_of_move {timing : Timing α} {run next : Run α} {shown : List (Event α)}
    (h : run.move timing = some (shown, next)) :
    run.events timing = shown ++ next.events timing.later := by
  rw [events]
  split
  · next hmove => cases h.symm.trans hmove
  · next hmove =>
    cases h.symm.trans hmove
    rfl

@[simp] theorem events_over (timing : Timing α) : (⟨[], [], []⟩ : Run α).events timing = [] := by
  rw [events]
  rfl

@[simp] theorem events_next_group (timing : Timing α) (group : List α) (held : List (List α)) :
    (⟨[], [], group :: held⟩ : Run α).events timing =
      (⟨group, [], held⟩ : Run α).events timing.later := by
  rw [events_of_move (by rfl), List.nil_append]

theorem events_begin (timing : Timing α) (call : α) (waiting underWay : List α)
    (held : List (List α)) :
    (⟨call :: waiting, underWay, held⟩ : Run α).events timing =
      Event.opening timing.waits call ++
        (⟨waiting, underWay ++ [call].filter timing.waits, held⟩ : Run α).events timing.later := by
  apply events_of_move
  cases hwaits : timing.waits call <;> simp [move, hwaits, Event.opening]

theorem events_end {timing : Timing α} {underWay : List α} {held : List (List α)} {call : α}
    (h : underWay[timing.picks 0 % underWay.length]? = some call) :
    (⟨[], underWay, held⟩ : Run α).events timing =
      .ended call :: (⟨[], underWay.eraseIdx (timing.picks 0 % underWay.length), held⟩ :
        Run α).events timing.later := by
  rw [← List.singleton_append]
  apply events_of_move
  cases underWay with
  | nil => cases h
  | cons oldest younger =>
    rw [move, List.getD_eq_getElem?_getD, h]
    rfl

theorem exists_ends_underWay (timing : Timing α) (underWay : List α) (held : List (List α)) :
    ∃ (ends : List α) (after : Timing α), ends.Perm underWay ∧ after.waits = timing.waits ∧
      (⟨[], underWay, held⟩ : Run α).events timing =
        ends.map .ended ++ (⟨[], [], held⟩ : Run α).events after := by
  -- A pick may take any of the calls, so the induction is on how many are left.
  induction hlength : underWay.length generalizing timing underWay with
  | zero =>
    rw [List.length_eq_zero_iff] at hlength
    subst hlength
    exact ⟨[], timing, .nil, rfl, rfl⟩
  | succ count ih =>
    have hlt : timing.picks 0 % underWay.length < underWay.length := Nat.mod_lt _ (by omega)
    obtain ⟨ends, after, hperm, hwaits, hevents⟩ :=
      ih timing.later (underWay.eraseIdx (timing.picks 0 % underWay.length))
        (by rw [List.length_eraseIdx_of_lt hlt]; omega)
    refine ⟨underWay[timing.picks 0 % underWay.length] :: ends, after, ?_, hwaits, ?_⟩
    · exact (hperm.cons _).trans (List.getElem_cons_eraseIdx_perm hlt)
    · rw [events_end (List.getElem?_eq_getElem hlt), hevents]
      rfl

theorem exists_ends (timing : Timing α) (waiting underWay : List α) (held : List (List α)) :
    ∃ (ends : List α) (after : Timing α), ends.Perm (underWay ++ waiting.filter timing.waits) ∧
      after.waits = timing.waits ∧
      (⟨waiting, underWay, held⟩ : Run α).events timing =
        waiting.flatMap (Event.opening timing.waits) ++ ends.map .ended ++
          (⟨[], [], held⟩ : Run α).events after := by
  induction waiting generalizing timing underWay with
  | nil => simpa using exists_ends_underWay timing underWay held
  | cons call waiting ih =>
    obtain ⟨ends, after, hperm, hwaits, hevents⟩ :=
      ih timing.later (underWay ++ [call].filter timing.waits)
    have hfilter : (call :: waiting).filter timing.waits =
        [call].filter timing.waits ++ waiting.filter timing.waits := List.filter_append [call] waiting
    refine ⟨ends, after, ?_, hwaits, ?_⟩
    · rwa [hfilter, ← List.append_assoc]
    · rw [events_begin, hevents, List.flatMap_cons]
      simp only [List.append_assoc]
      rfl

theorem exists_timing_underWay (after : Timing α) {ends underWay : List α} (held : List (List α))
    (h : ends.Perm underWay) :
    ∃ timing : Timing α, timing.waits = after.waits ∧
      (⟨[], underWay, held⟩ : Run α).events timing =
        ends.map .ended ++ (⟨[], [], held⟩ : Run α).events after := by
  -- The picks follow the wanted order; the timing of what comes later is found first.
  induction ends generalizing underWay with
  | nil =>
    rw [List.nil_perm] at h
    subst h
    exact ⟨after, rfl, rfl⟩
  | cons call ends ih =>
    obtain ⟨i, hlt, hcall⟩ := List.getElem_of_mem (h.subset List.mem_cons_self)
    have hrest : ends.Perm (underWay.eraseIdx i) := by
      apply List.Perm.cons_inv (a := call)
      rw [← hcall] at h ⊢
      exact h.trans (List.getElem_cons_eraseIdx_perm hlt).symm
    obtain ⟨timing, hwaits, hevents⟩ := ih hrest
    have hpick : (timing.before i).picks 0 % underWay.length = i := Nat.mod_eq_of_lt hlt
    have hends : underWay[(timing.before i).picks 0 % underWay.length]? = some call := by
      rw [hpick, List.getElem?_eq_getElem hlt, hcall]
    refine ⟨timing.before i, hwaits, ?_⟩
    rw [events_end hends, hpick]
    change _ :: (⟨[], _, held⟩ : Run α).events timing = _
    rw [hevents]
    rfl

theorem exists_timing_group (after : Timing α) {ends : List α} (waiting underWay : List α)
    (held : List (List α)) (h : ends.Perm (underWay ++ waiting.filter after.waits)) :
    ∃ timing : Timing α, timing.waits = after.waits ∧
      (⟨waiting, underWay, held⟩ : Run α).events timing =
        waiting.flatMap (Event.opening after.waits) ++ ends.map .ended ++
          (⟨[], [], held⟩ : Run α).events after := by
  induction waiting generalizing underWay with
  | nil => simpa using exists_timing_underWay after held (by simpa using h)
  | cons call waiting ih =>
    have hfilter : (call :: waiting).filter after.waits =
        [call].filter after.waits ++ waiting.filter after.waits := List.filter_append [call] waiting
    rw [hfilter, ← List.append_assoc] at h
    obtain ⟨timing, hwaits, hevents⟩ := ih _ h
    refine ⟨timing.before 0, hwaits, ?_⟩
    rw [events_begin, List.flatMap_cons]
    change Event.opening timing.waits call ++
      (⟨waiting, underWay ++ [call].filter timing.waits, held⟩ : Run α).events timing = _
    rw [hwaits, hevents]
    simp only [List.append_assoc]

theorem trace_events (timing : Timing α) (groups : List (List α)) :
    Trace timing.waits groups ((ofGroups groups).events timing) := by
  induction groups generalizing timing with
  | nil =>
    rw [ofGroups, events_over]
    exact .nil
  | cons group held ih =>
    obtain ⟨ends, after, hperm, hwaits, hevents⟩ := exists_ends timing.later group [] held
    rw [ofGroups, events_next_group, hevents]
    have hrest := ih after
    rw [hwaits] at hrest
    exact .cons hperm hrest

theorem Trace.exists_timing {waits : α → Bool} {groups : List (List α)} {shown : List (Event α)}
    (h : Trace waits groups shown) :
    ∃ timing : Timing α, timing.waits = waits ∧ (ofGroups groups).events timing = shown := by
  induction h with
  | nil => exact ⟨⟨waits, fun _ => 0⟩, rfl, events_over _⟩
  | @cons group ends groups _ order rest ih =>
    obtain ⟨after, rfl, rfl⟩ := ih
    obtain ⟨timing, hwaits, hevents⟩ := exists_timing_group after group [] groups order
    refine ⟨timing.before 0, hwaits, ?_⟩
    rw [ofGroups, events_next_group]
    exact hevents

/-- Timings leave open exactly which calls wait and in which order those that wait end: every
order that the groups allow is the order of some timing. -/
theorem trace_iff {waits : α → Bool} {groups : List (List α)} {shown : List (Event α)} :
    Trace waits groups shown ↔
      ∃ timing : Timing α, timing.waits = waits ∧ (ofGroups groups).events timing = shown := by
  refine ⟨Trace.exists_timing, ?_⟩
  rintro ⟨timing, rfl, rfl⟩
  exact trace_events timing groups

theorem Trace.alone {waits : α → Bool} {call : α} {groups : List (List α)}
    {shown : List (Event α)} (h : Trace waits ([call] :: groups) shown) :
    ∃ after, shown = .begun call :: .ended call :: after ∧ Trace waits groups after := by
  cases h with
  | @cons _ ends _ after order rest =>
    refine ⟨after, ?_, rest⟩
    cases hwaits : waits call with
    | true =>
      rw [List.filter_singleton, hwaits, cond_true, List.perm_singleton] at order
      simp [order, Event.opening, hwaits]
    | false =>
      rw [List.filter_singleton, hwaits, cond_false, List.perm_nil] at order
      simp [order, Event.opening, hwaits]

theorem Trace.together {waits : α → Bool} {group : List α} {shown : List (Event α)}
    (h : Trace waits [group] shown) (hwaits : ∀ call ∈ group, waits call = true) :
    Event.Together group shown := by
  cases h with
  | @cons _ ends _ _ order rest =>
    cases rest
    rw [List.filter_eq_self.2 hwaits] at order
    exact ⟨ends, order, by rw [Event.flatMap_opening_of_waits hwaits, List.append_nil]⟩

theorem Trace.waves_eq {waits : α → Bool} {groups : List (List α)} {shown : List (Event α)}
    (h : Trace waits groups shown) (hwaits : ∀ call ∈ groups.flatten, waits call = true) :
    Event.waves shown = groups.filter (!·.isEmpty) := by
  induction h with
  | nil => rfl
  | @cons group ends groups shown order rest ih =>
    rw [List.flatten_cons] at hwaits
    obtain ⟨hgroup, hgroups⟩ := List.forall_mem_append.1 hwaits
    rw [List.filter_eq_self.2 hgroup] at order
    rw [Event.flatMap_opening_of_waits hgroup, List.append_assoc, Event.waves,
      Event.wavesFrom_begun, List.nil_append, Event.wavesFrom_ended order, ih hgroups,
      ← List.filter_append]
    rfl

theorem underWay_of_move {timing : Timing α} {run next : Run α} {shown : List (Event α)}
    {call : α} (h : run.move timing = some (shown, next)) (hcall : call ∈ next.underWay) :
    .begun call ∈ shown ∨ call ∈ run.underWay := by
  rcases move_cases h with ⟨first, waiting, -, -, rfl, rfl⟩ | ⟨first, waiting, -, -, rfl, rfl⟩ |
    ⟨i, first, -, -, rfl, rfl⟩ | ⟨group, held, rfl, rfl, rfl⟩
  · rcases List.mem_append.1 hcall with hin | hin
    · exact .inr hin
    · cases List.mem_singleton.1 hin
      exact .inl List.mem_cons_self
  · exact .inr hcall
  · exact .inr (List.mem_of_mem_eraseIdx hcall)
  · exact .inr hcall

theorem begun_of_ended_of_move {timing : Timing α} {run next : Run α}
    {before after : List (Event α)} {call : α}
    (h : run.move timing = some (before ++ .ended call :: after, next)) :
    .begun call ∈ before ∨ call ∈ run.underWay := by
  have hended : .ended call ∈ before ++ .ended call :: after := by simp
  rcases move_cases h with ⟨first, waiting, -, -, hshown, -⟩ |
    ⟨first, waiting, -, -, hshown, -⟩ | ⟨i, first, -, hfirst, hshown, -⟩ | ⟨group, held, -, hshown, -⟩
  · rw [hshown] at hended
    cases List.mem_singleton.1 hended
  · cases before with
    | nil => cases hshown
    | cons event before =>
      rw [hshown] at hended
      have hcall : call = first := by simpa using hended
      have hevent : event = .begun first := (List.cons.inj hshown).1
      rw [hcall, hevent]
      exact .inl List.mem_cons_self
  · rw [hshown] at hended
    cases List.mem_singleton.1 hended
    exact .inr (List.mem_of_getElem? hfirst)
  · rw [hshown] at hended
    cases hended

theorem begun_of_ended {timing : Timing α} {run : Run α} {before after : List (Event α)} {call : α}
    (h : run.events timing = before ++ .ended call :: after) :
    .begun call ∈ before ∨ call ∈ run.underWay := by
  fun_induction events timing run generalizing before with
  | case1 timing run hmove => simp at h
  | case2 timing run shown next hmove ih =>
    -- The call ends after what this move shows, or within it.
    rcases List.append_eq_append_iff.1 h with ⟨later, rfl, hnext⟩ | ⟨ended, rfl, hnext⟩
    · rcases ih hnext with hbegun | hunderWay
      · exact .inl (List.mem_append_right shown hbegun)
      · exact (underWay_of_move hmove hunderWay).imp_left (List.mem_append_left later)
    · cases ended with
      | nil =>
        rw [List.append_nil] at hmove
        have hrest : next.events timing.later = [] ++ .ended call :: after := hnext.symm
        exact underWay_of_move hmove ((ih hrest).resolve_left List.not_mem_nil)
      | cons event rest =>
        cases hnext
        exact begun_of_ended_of_move hmove

end Run

end SecretEnv
