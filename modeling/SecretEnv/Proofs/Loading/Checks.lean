import SecretEnv.Load

/-! A load is a sequence of checks: each file is read and parsed, then its companion, and then the
entries are parsed. The first check that fails ends the load and decides its error, and nothing is
read after it. -/
namespace SecretEnv

/-- One thing that can go wrong in a load. -/
inductive Check where
  | read (path : String)
  | readCompanion (path : String)
  | parse (path text : String)
  | parseEntry (entry : String)
  deriving DecidableEq, Repr

namespace Check

def FailsWith (reader : Reader) (error : LoadError) : Check → Prop
  | read path => ∃ cause, reader path = .error cause ∧ error = .unreadable path cause
  | readCompanion path => ∃ cause, reader path = .error (.unreadable cause) ∧
      error = .unreadable path (.unreadable cause)
  | parse path text => ∃ cause, Source.parse text = .error cause ∧ error = .inFile path cause
  | parseEntry entry => ∃ cause, Source.parseEntry entry = .error cause ∧
      error = .inEntry entry cause

def Passes (reader : Reader) (check : Check) : Prop :=
  ∀ error, ¬ check.FailsWith reader error

def reads : Check → List String
  | read path => [path]
  | readCompanion path => [path]
  | parse _ _ => []
  | parseEntry _ => []

def ofText (reader : Reader) (path : String) : List Check :=
  match reader path with
  | .ok text => [.parse path text]
  | .error _ => []

theorem ofText_of_ok {reader : Reader} {path text : String} (h : reader path = .ok text) :
    ofText reader path = [.parse path text] := by
  simp [ofText, h]

theorem ofText_of_error {reader : Reader} {path : String} {cause : ReadError}
    (h : reader path = .error cause) : ofText reader path = [] := by
  simp [ofText, h]

def ofPath (reader : Reader) (localOverrides : Bool) (path : String) : List Check :=
  [.read path] ++ ofText reader path ++
    if localOverrides then
      [.readCompanion (companionPath path)] ++ ofText reader (companionPath path)
    else []

def ofLoad (reader : Reader) (localOverrides : Bool) (paths entries : List String) : List Check :=
  paths.flatMap (ofPath reader localOverrides) ++ entries.map .parseEntry

theorem FailsWith.eq {reader : Reader} {check : Check} {error other : LoadError}
    (h : check.FailsWith reader error) (hother : check.FailsWith reader other) : error = other := by
  cases check <;>
    (obtain ⟨cause, hcause, rfl⟩ := h
     obtain ⟨cause', hcause', rfl⟩ := hother
     cases hcause.symm.trans hcause'
     rfl)

/-- Making checks in order, with what is read meanwhile and the error that ends it, if any. -/
inductive Run (reader : Reader) : List Check → List String → Option LoadError → Prop where
  | clear : Run reader [] [] none
  | next {check : Check} {checks : List Check} {reads : List String} {error? : Option LoadError}
      (passes : check.Passes reader) (rest : Run reader checks reads error?) :
      Run reader (check :: checks) (check.reads ++ reads) error?
  | stopped {check : Check} {checks : List Check} {error : LoadError}
      (fails : check.FailsWith reader error) :
      Run reader (check :: checks) check.reads (some error)

namespace Run

variable {reader : Reader} {checks later : List Check} {reads more : List String}
  {error? : Option LoadError}

theorem append (h : Run reader checks reads none) (hlater : Run reader later more error?) :
    Run reader (checks ++ later) (reads ++ more) error? := by
  -- The induction needs a variable where the relation has an index.
  generalize hnone : none = ended at h
  induction h with
  | clear => exact hlater
  | next passes rest ih =>
    rw [List.append_assoc]
    exact .next passes (ih hnone)
  | stopped fails => cases hnone

theorem append_stopped {error : LoadError} (h : Run reader checks reads (some error))
    (later : List Check) : Run reader (checks ++ later) reads (some error) := by
  generalize hsome : some error = ended at h
  induction h with
  | clear => cases hsome
  | next passes rest ih => exact .next passes (ih hsome)
  | stopped fails => exact .stopped fails

theorem of_first_fault (h : Run reader checks reads error?) {before after : List Check}
    {check : Check} {error : LoadError} (hsplit : checks = before ++ check :: after)
    (hbefore : ∀ earlier ∈ before, earlier.Passes reader) (hfails : check.FailsWith reader error) :
    error? = some error ∧ reads = (before ++ [check]).flatMap Check.reads := by
  induction h generalizing before with
  | clear => simp at hsplit
  | next passes rest ih =>
    cases before with
    | nil =>
      cases hsplit
      exact absurd hfails (passes error)
    | cons first before =>
      cases hsplit
      obtain ⟨herror, hreads⟩ := ih rfl (List.forall_mem_cons.1 hbefore).2
      exact ⟨herror, by rw [hreads]; rfl⟩
  | stopped fails =>
    cases before with
    | nil =>
      cases hsplit
      exact ⟨congrArg some (fails.eq hfails), by simp⟩
    | cons first before =>
      cases hsplit
      exact absurd fails ((List.forall_mem_cons.1 hbefore).1 _)

theorem of_all_pass (h : Run reader checks reads error?)
    (hpass : ∀ check ∈ checks, check.Passes reader) :
    error? = none ∧ reads = checks.flatMap Check.reads := by
  induction h with
  | clear => exact ⟨rfl, rfl⟩
  | next passes rest ih =>
    obtain ⟨herror, hreads⟩ := ih (List.forall_mem_cons.1 hpass).2
    exact ⟨herror, by rw [hreads]; rfl⟩
  | stopped fails => exact absurd fails ((List.forall_mem_cons.1 hpass).1 _)

theorem isSome_iff (h : Run reader checks reads error?) :
    (∃ error, error? = some error) ↔ ∃ check ∈ checks, ∃ error, check.FailsWith reader error := by
  induction h with
  | clear => simp
  | next passes rest ih =>
    rw [ih]
    simp [passes _]
  | stopped fails => simpa using .inl ⟨_, fails⟩

end Run

end Check

namespace Loading

variable {α β : Type} {reader : Reader}

def error? (loading : Loading α) : Option LoadError :=
  match loading.outcome with
  | .ok _ => none
  | .error error => some error

@[simp] theorem error?_eq_some_iff {loading : Loading α} {error : LoadError} :
    loading.error? = some error ↔ loading.outcome = .error error := by
  unfold error?
  cases loading.outcome <;> simp

def Makes (reader : Reader) (checks : List Check) (loading : Loading α) : Prop :=
  Check.Run reader checks loading.reads loading.error?

@[simp] theorem makes_pure (a : α) : (pure a : Loading α).Makes reader [] :=
  .clear

theorem Makes.bind {checks later : List Check} {loading : Loading α} {next : α → Loading β}
    (h : loading.Makes reader checks)
    (hnext : ∀ a, loading.outcome = .ok a → (next a).Makes reader later) :
    (loading >>= next).Makes reader (checks ++ later) := by
  change (loading.andThen next).Makes reader (checks ++ later)
  unfold Makes error? at h
  unfold Makes error? andThen
  cases houtcome : loading.outcome with
  | error error =>
    rw [houtcome] at h
    exact h.append_stopped later
  | ok a =>
    rw [houtcome] at h
    exact h.append (hnext a houtcome)

theorem makes_single {check : Check} {loading : Loading α} (hreads : loading.reads = check.reads)
    (hfails : ∀ error, check.FailsWith reader error ↔ loading.outcome = .error error) :
    loading.Makes reader [check] := by
  unfold Makes error?
  rw [hreads]
  cases houtcome : loading.outcome with
  | error error => exact .stopped ((hfails error).2 houtcome)
  | ok a =>
    have hpass : check.Passes reader := by
      intro error hfail
      cases houtcome.symm.trans ((hfails error).1 hfail)
    rw [← List.append_nil check.reads]
    exact .next hpass .clear

@[simp] theorem mapError_eq_error_iff {ε ε' : Type} {x : Except ε α} {f : ε → ε'} {error : ε'} :
    x.mapError f = .error error ↔ ∃ cause, x = .error cause ∧ error = f cause := by
  cases x with
  | ok a => exact ⟨nofun, nofun⟩
  | error cause =>
    refine ⟨?_, ?_⟩
    · intro h
      cases h
      exact ⟨cause, rfl, rfl⟩
    · rintro ⟨_, ⟨⟩, rfl⟩
      rfl

theorem makes_required (path : String) : (required reader path).Makes reader [.read path] := by
  apply makes_single rfl
  intro error
  rw [required, mapError_eq_error_iff]
  rfl

theorem makes_optional (path : String) :
    (optional reader path).Makes reader [.readCompanion path] := by
  apply makes_single rfl
  intro error
  rw [optional, Check.FailsWith]
  cases reader path with
  | ok text => simp
  | error cause => cases cause <;> simp [eq_comm]

theorem makes_parsed (path text : String) :
    (parsed path text).Makes reader [.parse path text] := by
  apply makes_single rfl
  intro error
  rw [parsed, done, mapError_eq_error_iff]
  rfl

theorem makes_file (path : String) :
    (file reader path).Makes reader ([.read path] ++ Check.ofText reader path) := by
  apply Makes.bind (makes_required path)
  intro text houtcome
  rw [required] at houtcome
  cases hread : reader path with
  | error cause =>
    rw [hread] at houtcome
    cases houtcome
  | ok found =>
    rw [hread] at houtcome
    cases houtcome
    rw [Check.ofText_of_ok hread]
    exact makes_parsed path _

theorem makes_companion (path : String) :
    (companion reader path).Makes reader
      ([.readCompanion (companionPath path)] ++ Check.ofText reader (companionPath path)) := by
  apply Makes.bind (makes_optional (companionPath path))
  intro found houtcome
  simp only [optional] at houtcome
  split at houtcome
  · next text hread =>
    cases houtcome
    rw [Check.ofText_of_ok hread]
    exact makes_parsed _ text
  · next hread =>
    cases houtcome
    rw [Check.ofText_of_error hread]
    exact makes_pure _
  · cases houtcome

theorem makes_overlayFile (localOverrides : Bool) (merged : Bindings) (path : String) :
    (overlayFile reader localOverrides merged path).Makes reader
      (Check.ofPath reader localOverrides path) := by
  apply Makes.bind (makes_file path)
  intro base _
  cases localOverrides with
  | false => exact makes_pure _
  | true =>
    -- Putting the companion over the file is one more step, without a check.
    rw [if_pos rfl, if_pos rfl, ← List.append_nil (_ ++ Check.ofText _ _)]
    exact (makes_companion path).bind fun _ _ => makes_pure _

theorem makes_foldlM {step : β → α → Loading β} {checks : α → List Check}
    (hstep : ∀ b a, (step b a).Makes reader (checks a)) (b : β) (list : List α) :
    (list.foldlM step b).Makes reader (list.flatMap checks) := by
  induction list generalizing b with
  | nil => exact makes_pure b
  | cons a rest ih =>
    rw [List.foldlM_cons, List.flatMap_cons]
    exact (hstep b a).bind fun next _ => ih next

theorem makes_overlayEntry (base : Bindings) (entry : String) :
    (done (base.overlayEntry entry)).Makes reader [.parseEntry entry] := by
  apply makes_single rfl
  intro error
  rw [done, Bindings.overlayEntry, Check.FailsWith]
  cases Source.parseEntry entry <;> simp [eq_comm]

theorem makes_overlayEntries (base : Bindings) (entries : List String) :
    (done (base.overlayEntries entries)).Makes reader (entries.map .parseEntry) := by
  induction entries generalizing base with
  | nil => exact makes_pure base
  | cons entry rest ih =>
    have hstep : done (base.overlayEntries (entry :: rest)) =
        done (base.overlayEntry entry) >>= fun next => done (next.overlayEntries rest) := by
      change _ = andThen _ _
      rw [Bindings.overlayEntries, List.foldlM_cons, andThen, done]
      cases base.overlayEntry entry <;> rfl
    rw [hstep]
    exact (makes_overlayEntry base entry).bind fun next _ => ih next

theorem makes_layers (reader : Reader) (localOverrides : Bool) (paths entries : List String) :
    (layers reader localOverrides paths entries).Makes reader
      (Check.ofLoad reader localOverrides paths entries) :=
  (makes_foldlM (makes_overlayFile localOverrides) _ paths).bind fun merged _ =>
    makes_overlayEntries merged entries

/-- The loading fails exactly if one of the checks does. The first that fails gives it its error and
is the last that reads. If none fails, all of them have read, in order. -/
structure StopsAtFirstFault (reader : Reader) (checks : List Check) (loading : Loading α) :
    Prop where
  fails_iff : (∃ error, loading.outcome = .error error) ↔
    ∃ check ∈ checks, ∃ error, check.FailsWith reader error
  of_fault : ∀ before check after error, checks = before ++ check :: after →
    (∀ earlier ∈ before, earlier.Passes reader) → check.FailsWith reader error →
    loading.outcome = .error error ∧ loading.reads = (before ++ [check]).flatMap Check.reads
  of_pass : (∀ check ∈ checks, check.Passes reader) →
    loading.reads = checks.flatMap Check.reads

theorem Makes.stopsAtFirstFault {checks : List Check} {loading : Loading α}
    (h : loading.Makes reader checks) : loading.StopsAtFirstFault reader checks where
  fails_iff := by
    simp only [← error?_eq_some_iff]
    exact h.isSome_iff
  of_fault before check after error hsplit hbefore hfails := by
    rw [← error?_eq_some_iff]
    exact h.of_first_fault hsplit hbefore hfails
  of_pass hpass := (h.of_all_pass hpass).2

/-- A load makes the checks of its files, their companions and its entries in order, and the first
fault ends it. The same holds of what settings collect from files. -/
theorem first_fault_ends_load (reader : Reader) (localOverrides : Bool)
    (paths entries : List String) (settings : Settings) :
    (layers reader localOverrides paths entries).StopsAtFirstFault reader
      (Check.ofLoad reader localOverrides paths entries) ∧
    ({ settings with readFiles := true }.collect reader entries).StopsAtFirstFault reader
      (Check.ofLoad reader settings.localOverrides settings.files entries) := by
  refine ⟨(makes_layers reader localOverrides paths entries).stopsAtFirstFault, ?_⟩
  exact (makes_layers reader settings.localOverrides settings.files entries).stopsAtFirstFault

/-- A companion that cannot be read hides a faulty file and a faulty entry that come after it. -/
theorem unreadable_companion_ends_load :
    let reader := Reader.ofTable
      [("a", .ok "A"), ("a.local", .error (.unreadable "denied")), ("b", .ok "bad-key")]
    let load := layers reader true ["a", "b"] ["[item:db]"]
    load.outcome = .error (.unreadable "a.local" (.unreadable "denied")) ∧
      load.reads = ["a", "a.local"] := by
  intro reader load
  have hbase : reader "a" = .ok "A" := rfl
  have hparse : (Source.parse "A").isOk = true := by decide +kernel
  have hbefore : ∀ earlier ∈ [.read "a", .parse "a" "A"], Check.Passes reader earlier := by
    simp only [List.forall_mem_cons]
    refine ⟨?_, ?_, nofun⟩
    · rintro error ⟨cause, hread, -⟩
      cases hbase.symm.trans hread
    · rintro error ⟨cause, hfault, -⟩
      rw [hfault] at hparse
      cases hparse
  exact (first_fault_ends_load reader true ["a", "b"] ["[item:db]"] .default).1.of_fault
    [.read "a", .parse "a" "A"] (.readCompanion "a.local")
    [.read "b", .parse "b" "bad-key", .readCompanion "b.local", .parseEntry "[item:db]"] _
    rfl hbefore ⟨"denied", rfl, rfl⟩

end Loading

end SecretEnv
