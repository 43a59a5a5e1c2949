import Mathlib.Data.List.Induction
import SecretEnv.Proofs.Settings.FileList
import SecretEnv.Vault.CommandLine

/-! Settings after any number of changes. A change writes some of the settings and leaves the others
alone, or it resets them all first; so each setting is what the last change to write it has written,
and the changes to the other settings do not matter. -/
namespace SecretEnv

open Text

namespace Settings

inductive Field where
  | vault
  | files
  | readFiles
  | localOverrides
  | schedule
  deriving DecidableEq, Repr

abbrev Field.Value : Field → Type
  | .vault => Option String
  | .files => List String
  | .readFiles => Bool
  | .localOverrides => Bool
  | .schedule => Schedule

def get (settings : Settings) : (field : Field) → field.Value
  | .vault => settings.vault
  | .files => settings.files
  | .readFiles => settings.readFiles
  | .localOverrides => settings.localOverrides
  | .schedule => settings.schedule

theorem eq_of_get_eq {settings other : Settings}
    (h : ∀ field, settings.get field = other.get field) : settings = other := by
  obtain ⟨vault, files, readFiles, localOverrides, schedule⟩ := settings
  obtain rfl : vault = other.vault := h .vault
  obtain rfl : files = other.files := h .files
  obtain rfl : readFiles = other.readFiles := h .readFiles
  obtain rfl : localOverrides = other.localOverrides := h .localOverrides
  obtain rfl : schedule = other.schedule := h .schedule
  rfl

/-- What environment variables say of a setting: the name of a vault that is not blank, without the
blanks around it, and the names in a list of files that has any. -/
inductive Variables.Say (vars : Variables) : (field : Field) → field.Value → Prop
  | vault {text name : String} : vars vaultVariable = some text →
      Padded text.toList name.toList → Trimmed name.toList → name ≠ "" →
      Say vars .vault (some name)
  | files {text : String} {names : List String} : vars filesVariable = some text →
      Listing text names → (∀ name ∈ names, FileName name) → names ≠ [] →
      Say vars .files names

inductive Change.Writes : Change → (field : Field) → field.Value → Prop
  | mergeVariables {vars : Variables} {field : Field} {value : field.Value} :
      vars.Say field value → Writes (.mergeVariables vars) field value
  | fromVariables {vars : Variables} {field : Field} {value : field.Value} :
      vars.Say field value → Writes (.fromVariables vars) field value
  | vault (name : String) : Writes (.vault name) .vault (some name)
  | files (names : List String) : Writes (.files names) .files names
  | readFiles (enabled : Bool) : Writes (.readFiles enabled) .readFiles enabled
  | localOverrides (enabled : Bool) : Writes (.localOverrides enabled) .localOverrides enabled
  | schedule (schedule : Schedule) : Writes (.schedule schedule) .schedule schedule

/-- A change that starts again from the defaults. -/
def Change.Resets (change : Change) : Prop :=
  ∃ vars, change = .fromVariables vars

def Change.Leaves (change : Change) (field : Field) : Prop :=
  ¬ change.Resets ∧ ∀ value, ¬ change.Writes field value

/-- The value of a setting after some changes: what was last written since the last reset, else the
default where there was a reset, else what it was at the start. -/
inductive Holds (start : Settings) : List Change → (field : Field) → field.Value → Prop
  | written {earlier later : List Change} {change : Change} {field : Field} {value : field.Value} :
      change.Writes field value → (∀ other ∈ later, other.Leaves field) →
      Holds start (earlier ++ change :: later) field value
  | reset {earlier later : List Change} {change : Change} {field : Field} :
      change.Resets → (∀ value, ¬ change.Writes field value) →
      (∀ other ∈ later, other.Leaves field) →
      Holds start (earlier ++ change :: later) field (default.get field)
  | kept {changes : List Change} {field : Field} : (∀ change ∈ changes, change.Leaves field) →
      Holds start changes field (start.get field)

section Step

variable {vars : Variables} {change : Change} {field : Field} {value : field.Value}

@[simp] theorem say_vault_iff {value : Option String} : vars.Say .vault value ↔
    ∃ name, (vars vaultVariable).bind nonBlank? = some name ∧ value = some name := by
  simp only [Option.bind_eq_some_iff, nonBlank?_eq_some_iff]
  refine ⟨?_, ?_⟩
  · rintro (⟨hvar, hpadded, htrimmed, hne⟩ | _)
    exact ⟨_, ⟨_, hvar, hpadded, htrimmed, hne⟩, rfl⟩
  · rintro ⟨name, ⟨text, hvar, hpadded, htrimmed, hne⟩, rfl⟩
    exact .vault hvar hpadded htrimmed hne

@[simp] theorem say_files_iff {names : List String} : vars.Say .files names ↔
    ∃ text, vars filesVariable = some text ∧ fileNames text = names ∧ names ≠ [] := by
  simp only [fileNames_eq_iff]
  refine ⟨?_, ?_⟩
  · rintro (_ | ⟨hvar, hlisting, hnames, hne⟩)
    exact ⟨_, hvar, ⟨hlisting, hnames⟩, hne⟩
  · rintro ⟨text, hvar, ⟨hlisting, hnames⟩, hne⟩
    exact .files hvar hlisting hnames hne

@[simp] theorem get_mergeVault_of_ne (h : field ≠ .vault) (settings : Settings) (vars : Variables) :
    (settings.mergeVault vars).get field = settings.get field := by
  rw [mergeVault]
  cases field with
  | vault => exact absurd rfl h
  | files | readFiles | localOverrides | schedule => split <;> rfl

@[simp] theorem get_mergeFiles_of_ne (h : field ≠ .files) (settings : Settings) (vars : Variables) :
    (settings.mergeFiles vars).get field = settings.get field := by
  rw [mergeFiles]
  cases field with
  | files => exact absurd rfl h
  | vault | readFiles | localOverrides | schedule => split <;> rfl

theorem get_mergeVariables_of_say (h : vars.Say field value) (settings : Settings) :
    (settings.mergeVariables vars).get field = value := by
  cases field with
  | vault =>
    obtain ⟨name, hname, rfl⟩ := say_vault_iff.1 h
    rw [mergeVariables, mergeVault_of_some hname]
    exact get_mergeFiles_of_ne (by decide) _ _
  | files =>
    obtain ⟨text, htext, rfl, hne⟩ := say_files_iff.1 h
    exact (files_mergeVariables htext settings).trans (if_neg hne)
  | readFiles => cases h
  | localOverrides => cases h
  | schedule => cases h

theorem get_mergeVariables_of_silent (h : ∀ value, ¬ vars.Say field value) (settings : Settings) :
    (settings.mergeVariables vars).get field = settings.get field := by
  cases field with
  | vault =>
    have hnone : (vars vaultVariable).bind nonBlank? = none :=
      Option.eq_none_iff_forall_ne_some.2 fun name hname => h _ (say_vault_iff.2 ⟨name, hname, rfl⟩)
    rw [mergeVariables, mergeVault_of_none hnone]
    exact get_mergeFiles_of_ne (by decide) _ _
  | files =>
    have hnil : ∀ text, vars filesVariable = some text → fileNames text = [] := by
      intro text htext
      by_cases hne : fileNames text = []
      · exact hne
      · exact absurd (say_files_iff.2 ⟨text, htext, rfl, hne⟩) (h _)
    rw [mergeVariables, mergeFiles_of_eq_nil hnil]
    exact get_mergeVault_of_ne (by decide) _ _
  | readFiles | localOverrides | schedule =>
    exact (get_mergeFiles_of_ne (by decide) _ _).trans (get_mergeVault_of_ne (by decide) _ _)

theorem get_apply_of_writes (h : change.Writes field value) (settings : Settings) :
    (settings.apply change).get field = value := by
  cases h with
  | mergeVariables hsay => exact get_mergeVariables_of_say hsay settings
  | fromVariables hsay => exact get_mergeVariables_of_say hsay default
  | vault | files | readFiles | localOverrides | schedule => rfl

theorem get_apply_of_resets (hresets : change.Resets) (h : ∀ value, ¬ change.Writes field value)
    (settings : Settings) : (settings.apply change).get field = default.get field := by
  obtain ⟨vars, rfl⟩ := hresets
  exact get_mergeVariables_of_silent (fun value hsay => h value (.fromVariables hsay)) default

theorem get_apply_of_leaves (h : change.Leaves field) (settings : Settings) :
    (settings.apply change).get field = settings.get field := by
  obtain ⟨hresets, hwrites⟩ := h
  cases change with
  | mergeVariables vars =>
    exact get_mergeVariables_of_silent (fun value hsay => hwrites value (.mergeVariables hsay)) _
  | fromVariables vars => exact absurd ⟨vars, rfl⟩ hresets
  | vault name =>
    cases field with
    | vault => exact absurd (.vault name) (hwrites _)
    | files | readFiles | localOverrides | schedule => rfl
  | files names =>
    cases field with
    | files => exact absurd (.files names) (hwrites _)
    | vault | readFiles | localOverrides | schedule => rfl
  | readFiles enabled =>
    cases field with
    | readFiles => exact absurd (.readFiles enabled) (hwrites _)
    | vault | files | localOverrides | schedule => rfl
  | localOverrides enabled =>
    cases field with
    | localOverrides => exact absurd (.localOverrides enabled) (hwrites _)
    | vault | files | readFiles | schedule => rfl
  | schedule schedule =>
    cases field with
    | schedule => exact absurd (.schedule schedule) (hwrites _)
    | vault | files | readFiles | localOverrides => rfl

theorem Change.writes_or_resets_or_leaves (change : Change) (field : Field) :
    (∃ value, change.Writes field value) ∨
      (change.Resets ∧ ∀ value, ¬ change.Writes field value) ∨ change.Leaves field := by
  rw [Leaves, ← or_and_right]
  by_cases hwrites : ∃ value, change.Writes field value
  · exact .inl hwrites
  · exact .inr ⟨Classical.em _, not_exists.1 hwrites⟩

theorem get_apply_congr {settings other : Settings} (h : settings.get field = other.get field) :
    (settings.apply change).get field = (other.apply change).get field := by
  rcases change.writes_or_resets_or_leaves field with
    ⟨value, hwrites⟩ | ⟨hresets, hwrites⟩ | hleaves
  · rw [get_apply_of_writes hwrites, get_apply_of_writes hwrites]
  · rw [get_apply_of_resets hresets hwrites, get_apply_of_resets hresets hwrites]
  · rw [get_apply_of_leaves hleaves, get_apply_of_leaves hleaves, h]

end Step

section Run

variable {start : Settings} {changes : List Change} {field : Field} {value : field.Value}

@[simp] theorem applyAll_append (start : Settings) (earlier later : List Change) :
    start.applyAll (earlier ++ later) = (start.applyAll earlier).applyAll later :=
  List.foldl_append

@[simp] theorem applyAll_cons (start : Settings) (change : Change) (later : List Change) :
    start.applyAll (change :: later) = (start.apply change).applyAll later := rfl

theorem get_applyAll_of_leaves (h : ∀ change ∈ changes, change.Leaves field) (start : Settings) :
    (start.applyAll changes).get field = start.get field := by
  induction changes generalizing start with
  | nil => rfl
  | cons change later ih =>
    obtain ⟨hchange, hlater⟩ := List.forall_mem_cons.1 h
    rw [applyAll_cons, ih hlater, get_apply_of_leaves hchange]

theorem Holds.get_applyAll (h : Holds start changes field value) :
    (start.applyAll changes).get field = value := by
  cases h with
  | written hwrites hlater =>
    rw [applyAll_append, applyAll_cons, get_applyAll_of_leaves hlater, get_apply_of_writes hwrites]
  | reset hresets hwrites hlater =>
    rw [applyAll_append, applyAll_cons, get_applyAll_of_leaves hlater,
      get_apply_of_resets hresets hwrites]
  | kept hleaves => exact get_applyAll_of_leaves hleaves start

theorem Holds.concat (h : Holds start changes field value) {change : Change}
    (hleaves : change.Leaves field) : Holds start (changes ++ [change]) field value := by
  have hmore {later : List Change} (hlater : ∀ other ∈ later, other.Leaves field) :
      ∀ other ∈ later ++ [change], other.Leaves field :=
    List.forall_mem_append.2 ⟨hlater, List.forall_mem_singleton.2 hleaves⟩
  cases h with
  | written hwrites hlater =>
    rw [List.append_assoc, List.cons_append]
    exact .written hwrites (hmore hlater)
  | reset hresets hwrites hlater =>
    rw [List.append_assoc, List.cons_append]
    exact .reset hresets hwrites (hmore hlater)
  | kept hkept => exact .kept (hmore hkept)

theorem exists_holds (start : Settings) (changes : List Change) (field : Field) :
    ∃ value, Holds start changes field value := by
  induction changes using List.reverseRecOn with
  | nil => exact ⟨_, .kept nofun⟩
  | append_singleton earlier change ih =>
    rcases change.writes_or_resets_or_leaves field with
      ⟨value, hwrites⟩ | ⟨hresets, hwrites⟩ | hleaves
    · exact ⟨value, .written hwrites nofun⟩
    · exact ⟨_, .reset hresets hwrites nofun⟩
    · obtain ⟨value, hvalue⟩ := ih
      exact ⟨value, hvalue.concat hleaves⟩

theorem get_applyAll_iff :
    (start.applyAll changes).get field = value ↔ Holds start changes field value := by
  refine ⟨?_, Holds.get_applyAll⟩
  rintro rfl
  obtain ⟨value, hvalue⟩ := exists_holds start changes field
  rwa [hvalue.get_applyAll]

theorem apply_comm {first second : Change}
    (h : ∀ field, first.Leaves field ∨ second.Leaves field) (settings : Settings) :
    (settings.apply first).apply second = (settings.apply second).apply first := by
  apply eq_of_get_eq
  intro field
  rcases h field with hfirst | hsecond
  · rw [get_apply_of_leaves hfirst]
    exact get_apply_congr (get_apply_of_leaves hfirst settings)
  · rw [get_apply_of_leaves hsecond]
    exact (get_apply_congr (get_apply_of_leaves hsecond settings)).symm

@[simp] theorem mergeVariables_mergeVariables (settings : Settings) (vars : Variables) :
    (settings.mergeVariables vars).mergeVariables vars = settings.mergeVariables vars := by
  apply eq_of_get_eq
  intro field
  by_cases hsay : ∃ value, vars.Say field value
  · obtain ⟨value, hsay⟩ := hsay
    rw [get_mergeVariables_of_say hsay, get_mergeVariables_of_say hsay]
  · exact get_mergeVariables_of_silent (not_exists.1 hsay) _

end Run

end Settings

section Vault

open Settings

variable {settings : Settings} {change : Change}

theorem CommandVault.vaultName?_eq_ok_iff {name : String} :
    CommandVault.vaultName? settings = .ok name ↔ settings.vault = some name := by
  rw [CommandVault.vaultName?]
  cases settings.vault <;> simp

theorem Settings.Change.Writes.isSome {value : Option String} (h : change.Writes .vault value) :
    value.isSome := by
  rcases h with hsay | hsay | _
  · obtain ⟨name, -, rfl⟩ := say_vault_iff.1 hsay
    rfl
  · obtain ⟨name, -, rfl⟩ := say_vault_iff.1 hsay
    rfl
  · rfl

theorem Settings.isSome_vault_apply (h : settings.vault.isSome) (hresets : ¬ change.Resets) :
    (settings.apply change).vault.isSome := by
  rcases change.writes_or_resets_or_leaves .vault with ⟨value, hwrites⟩ | ⟨hdoes, -⟩ | hleaves
  · have hvault : (settings.apply change).vault = value := get_apply_of_writes hwrites settings
    rw [hvault]
    exact hwrites.isSome
  · exact absurd hdoes hresets
  · have hvault : (settings.apply change).vault = settings.vault :=
      get_apply_of_leaves hleaves settings
    rwa [hvault]

theorem Settings.isSome_vault_applyAll {changes : List Change} (h : settings.vault.isSome)
    (hresets : ∀ change ∈ changes, ¬ change.Resets) : (settings.applyAll changes).vault.isSome := by
  induction changes generalizing settings with
  | nil => exact h
  | cons change later ih =>
    obtain ⟨hchange, hlater⟩ := List.forall_mem_cons.1 hresets
    exact ih (isSome_vault_apply h hchange) hlater

end Vault

open Settings

/-- Each setting, after any changes to any settings, is what was last written to it since the last
reset. So changes that write no setting in common can be made in either order, merging one
environment twice is merging it once, and once the vault has a name the program can be asked until
the next reset. -/
theorem last_writer_decides :
    (∀ (start : Settings) changes field (value : field.Value),
      (start.applyAll changes).get field = value ↔ Holds start changes field value) ∧
    (∀ (start : Settings) first second,
      (∀ field, first.Leaves field ∨ second.Leaves field) → ∀ earlier later,
      start.applyAll (earlier ++ first :: second :: later) =
        start.applyAll (earlier ++ second :: first :: later)) ∧
    (∀ (start : Settings) vars earlier later,
      start.applyAll (earlier ++ .mergeVariables vars :: .mergeVariables vars :: later) =
        start.applyAll (earlier ++ .mergeVariables vars :: later)) ∧
    ∀ (start : Settings) earlier change name later, change.Writes .vault (some name) →
      (∀ other ∈ later, ¬ other.Resets) →
      ∃ named, Holds start (earlier ++ change :: later) .vault (some named) ∧
        CommandVault.vaultName? (start.applyAll (earlier ++ change :: later)) = .ok named := by
  refine ⟨fun _ _ _ _ => get_applyAll_iff, ?_, ?_, ?_⟩
  · intro start first second hleaves earlier later
    simp only [applyAll_append, applyAll_cons, apply_comm hleaves]
  · intro start vars earlier later
    simp only [applyAll_append, applyAll_cons, Settings.apply, mergeVariables_mergeVariables]
  · intro start earlier change name later hwrites hlater
    have hwritten : ((start.applyAll earlier).apply change).vault = some name :=
      get_apply_of_writes hwrites _
    have hsome := isSome_vault_applyAll (by rw [hwritten]; rfl) hlater
    rw [← applyAll_cons, ← applyAll_append] at hsome
    obtain ⟨named, hnamed⟩ := Option.isSome_iff_exists.1 hsome
    exact ⟨named, get_applyAll_iff.1 hnamed, CommandVault.vaultName?_eq_ok_iff.2 hnamed⟩

/-- A reset names the vault anew; a blank list and a switch that come after it leave the name. -/
theorem vault_named_at_a_reset :
    let reset : Change := .fromVariables (.only vaultVariable " prod\n")
    let blank : Change := .mergeVariables (.only filesVariable " , ")
    (default.applyAll [.vault "dev", reset, blank, .readFiles false]).get .vault = some "prod" ∧
      default.applyAll [reset, .vault "dev", .readFiles false] =
        default.applyAll [reset, .readFiles false, .vault "dev"] ∧
      ∃ named, CommandVault.vaultName?
        (default.applyAll [.vault "dev", reset, blank, .readFiles false]) = .ok named := by
  intro reset blank
  obtain ⟨hlast, hswap, -, hnamed⟩ := last_writer_decides
  have hvar : Variables.only vaultVariable " prod\n" vaultVariable = some " prod\n" := rfl
  have hwrites : reset.Writes .vault (some "prod") :=
    .fromVariables (.vault hvar ⟨[' '], ['\n'], by decide, by decide, by decide⟩
      (by decide) (by decide))
  have hblank : Change.Leaves (.mergeVariables (.only filesVariable " , ")) .vault := by
    refine ⟨nofun, ?_⟩
    rintro _ (⟨⟨hvar⟩⟩)
    cases hvar
  have hlater : ∀ other ∈ [blank, .readFiles false], other.Leaves .vault :=
    List.forall_mem_cons.2 ⟨hblank, List.forall_mem_singleton.2 ⟨nofun, nofun⟩⟩
  have hholds : Holds default ([.vault "dev"] ++ reset :: [blank, .readFiles false]) .vault
      (some "prod") := .written hwrites hlater
  refine ⟨(hlast default _ .vault _).2 hholds, ?_, ?_⟩
  · refine hswap default (.vault "dev") (.readFiles false) (fun field => ?_) [reset] []
    cases field with
    | readFiles => exact .inl ⟨nofun, nofun⟩
    | vault | files | localOverrides | schedule => exact .inr ⟨nofun, nofun⟩
  · obtain ⟨named, -, hname⟩ := hnamed default [.vault "dev"] reset "prod" [blank, .readFiles false]
      hwrites fun other hother => (hlater other hother).1
    exact ⟨named, hname⟩

end SecretEnv
