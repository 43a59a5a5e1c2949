import SecretEnv.Proofs.Json.Records
import SecretEnv.Proofs.Settings.Changes
import SecretEnv.Settings.Json

namespace SecretEnv

open Json

namespace Settings

def Field.all : List Field :=
  [.vault, .files, .readFiles, .localOverrides, .schedule]

def Field.name : Field → String
  | .vault => "vault"
  | .files => "files"
  | .readFiles => "readFiles"
  | .localOverrides => "resolveLocalOverrides"
  | .schedule => "schedule"

def Field.toJson : (field : Field) → field.Value → Json.Value
  | .vault, name? => Json.Value.ofOptionalText name?
  | .files, names => .array (names.map Json.text)
  | .readFiles, enabled => .bool enabled
  | .localOverrides, enabled => .bool enabled
  | .schedule, chosen => chosen.toJson

def Field.ofJson? : (field : Field) → Json.Value → Option field.Value
  | .vault => Json.Value.optionalText?
  | .files => Json.Value.list? Json.Value.text?
  | .readFiles => Json.Value.flag?
  | .localOverrides => Json.Value.flag?
  | .schedule => Schedule.ofJson?

@[simp] theorem Field.mem_all (field : Field) : field ∈ all := by
  cases field <;> decide

theorem holdsList_text (names : List String) :
    HoldsList HoldsText names (.array (names.map Json.text)) := by
  apply HoldsList.of_map
  intro name
  rfl

@[simp] theorem Field.ofJson?_toJson (field : Field) (value : field.Value) :
    field.ofJson? (field.toJson value) = some value := by
  cases field with
  | vault => exact HoldsOptionalText.optionalText?_eq rfl
  | files => exact (holdsList_text value).list?_eq fun _ _ => HoldsText.text?_eq
  | readFiles => rfl
  | localOverrides => rfl
  | schedule => cases value <;> decide

theorem Field.textual_toJson (field : Field) (value : field.Value) :
    (field.toJson value).Textual := by
  cases field with
  | vault => exact HoldsOptionalText.textual rfl
  | files => exact (holdsList_text value).textual fun _ _ => HoldsText.textual
  | readFiles => exact .bool value
  | localOverrides => exact .bool value
  | schedule => exact .text value.name

/-- The value of each setting that is kept, and nothing under the names of the others. -/
def choices (settings : Settings) (kept : Field → Bool) : Choices :=
  Field.all.map fun field =>
    (field.name, if kept field then some (field.toJson (settings.get field)) else none)

/-- A JSON text that holds the settings that are kept and nothing else that is asked for. -/
def JsonForm (settings : Settings) (kept : Field → Bool) (text : String) : Prop :=
  ∃ members, Members.Make (settings.choices kept) members ∧
    Spaced (Value.record members).Layout text.toList

def ofFields (value : (field : Field) → field.Value) : Settings :=
  ⟨value .vault, value .files, value .readFiles, value .localOverrides, value .schedule⟩

/-- The settings that are kept, over the defaults. -/
def part (settings : Settings) (kept : Field → Bool) : Settings :=
  ofFields fun field => if kept field then settings.get field else default.get field

variable {settings : Settings} {kept kept' : Field → Bool} {members : Members}

theorem get_ofFields (value : (field : Field) → field.Value) (field : Field) :
    (ofFields value).get field = value field := by
  cases field <;> rfl

theorem get_part (settings : Settings) (kept : Field → Bool) (field : Field) :
    (settings.part kept).get field =
      if kept field then settings.get field else default.get field :=
  get_ofFields _ field

@[simp] theorem part_all (settings : Settings) : settings.part (fun _ => true) = settings :=
  eq_of_get_eq (get_part settings _)

theorem part_congr (h : ∀ field, kept field = kept' field ∨ settings.get field = default.get field) :
    settings.part kept = settings.part kept' := by
  apply eq_of_get_eq
  intro field
  rw [get_part, get_part]
  rcases h field with hkept | hdefault
  · rw [hkept]
  · rw [hdefault, ite_self, ite_self]

@[simp] theorem names_choices (settings : Settings) (kept : Field → Bool) :
    (settings.choices kept).names = memberNames := rfl

@[simp] theorem record_choices_all (settings : Settings) :
    Value.record (settings.choices fun _ => true).members = settings.toJson := rfl

theorem says_choice (settings : Settings) (kept : Field → Bool) (field : Field) :
    Says (fun value v => v = field.toJson value) (default.get field)
      ((settings.part kept).get field)
      (if kept field then some (field.toJson (settings.get field)) else none) := by
  rw [get_part]
  split
  · exact .said rfl
  · exact .left_out rfl

section Make

variable (h : Members.Make (settings.choices kept) members)
include h

theorem textual_of_make : (Value.record members).Textual := by
  apply Value.textual_record
  apply h.textual
  intro choice hchoice
  obtain ⟨field, -, rfl⟩ := List.mem_map.1 hchoice
  apply (says_choice settings kept field).textual
  rintro v rfl
  exact field.textual_toJson _

theorem withDefault?_of_make (field : Field) :
    members.withDefault? field.name (default.get field) field.ofJson? =
      some ((settings.part kept).get field) := by
  have hdistinct : (settings.choices kept).names.Nodup := by
    rw [names_choices]
    decide
  apply h.withDefault?_eq hdistinct (List.mem_map_of_mem field.mem_all)
    (says_choice settings kept field)
  rintro v rfl
  exact field.ofJson?_toJson _

theorem ofJson?_of_make : ofJson? (Value.record members) = some (settings.part kept) := by
  -- Every setting in turn, as the decoder asks for it.
  have hvault : members.withDefault? "vault" default.vault Value.optionalText? =
      some (settings.part kept).vault := withDefault?_of_make h .vault
  have hfiles : members.withDefault? "files" default.files (Value.list? Value.text?) =
      some (settings.part kept).files := withDefault?_of_make h .files
  have hreadFiles : members.withDefault? "readFiles" default.readFiles Value.flag? =
      some (settings.part kept).readFiles := withDefault?_of_make h .readFiles
  have hlocalOverrides :
      members.withDefault? "resolveLocalOverrides" default.localOverrides Value.flag? =
        some (settings.part kept).localOverrides := withDefault?_of_make h .localOverrides
  have hschedule : members.withDefault? "schedule" default.schedule Schedule.ofJson? =
      some (settings.part kept).schedule := withDefault?_of_make h .schedule
  rw [ofJson?, record?_record]
  simp [hvault, hfiles, hreadFiles, hlocalOverrides, hschedule]

theorem jsonForm_record : settings.JsonForm kept (Value.record members).render :=
  ⟨members, h, spaced_render (textual_of_make h)⟩

end Make

theorem read?_of_jsonForm {text : String} (h : settings.JsonForm kept text) :
    read? text = some (settings.part kept) := by
  obtain ⟨members, hmade, hlayout⟩ := h
  rw [read?, parse?_of_layout hlayout]
  exact ofJson?_of_make hmade

@[simp] theorem jsonForm_render (settings : Settings) :
    settings.JsonForm (fun _ => true) settings.render := by
  rw [render, ← record_choices_all]
  exact jsonForm_record (.ofChoices _)

/-- A JSON text that says a part of the settings, with its members in any order and layout and among
others, is read as that part over the default settings. What is written for settings says all of
them and is read back, as is every other text that says all of them. A vault that has no name may be
null or left out. -/
theorem parts_are_read_over_defaults :
    (∀ (settings : Settings) kept text, settings.JsonForm kept text →
      ∃ read, read? text = some read ∧
        (∀ field, kept field = true → read.get field = settings.get field) ∧
        ∀ field, kept field = false → read.get field = default.get field) ∧
    (∀ (settings : Settings) kept members, Members.Make (settings.choices kept) members →
      settings.JsonForm kept (Value.record members).render) ∧
    (∀ settings : Settings,
      settings.toJson = Value.record (settings.choices fun _ => true).members ∧
      settings.JsonForm (fun _ => true) settings.render ∧
      ∀ text, settings.JsonForm (fun _ => true) text → read? text = some settings) ∧
    ∀ (settings : Settings) kept kept' text text', settings.vault = none →
      (∀ field, field ≠ .vault → kept field = kept' field) →
      settings.JsonForm kept text → settings.JsonForm kept' text' → read? text = read? text' := by
  refine ⟨?_, ?_, ?_, ?_⟩
  · intro settings kept text hform
    refine ⟨settings.part kept, read?_of_jsonForm hform, ?_, ?_⟩
    · intro field hkept
      rw [get_part, if_pos hkept]
    · intro field hkept
      rw [get_part, hkept]
      rfl
  · intro settings kept members hmade
    exact jsonForm_record hmade
  · intro settings
    refine ⟨settings.record_choices_all.symm, settings.jsonForm_render, fun text hform => ?_⟩
    rw [read?_of_jsonForm hform, part_all]
  · intro settings kept kept' text text' hvault hkept hform hform'
    have hpart : settings.part kept = settings.part kept' := by
      apply part_congr
      intro field
      by_cases hfield : field = .vault
      · subst hfield
        exact .inr hvault
      · exact .inl (hkept field hfield)
    rw [read?_of_jsonForm hform, read?_of_jsonForm hform', hpart]

/-- What a text leaves out is lost: the files were not to be read, and by default they are. The
vault is null in one text and missing in the other, and a name that is nearly that of a setting says
nothing. -/
theorem unnamed_vault_may_be_left_out :
    let settings : Settings := ⟨none, ["a", "b c"], false, true, .fanOut⟩
    let files : Value := .array [text "a", text "b c"]
    let members : Members :=
      [("schedule", text "fan-out"), ("read_files", .bool false), ("files", files)]
    let kept : Field → Bool := (· ∈ [Field.files, .schedule])
    settings.JsonForm kept (Value.record members).render ∧
      ∃ read, read? (Value.record members).render = some read ∧
        read.files = ["a", "b c"] ∧ read.readFiles = true ∧
        read? (Value.record (members ++ [("vault", .null)])).render = some read := by
  intro settings files members kept
  obtain ⟨hread, hform, -, hvault⟩ := parts_are_read_over_defaults
  let others : Members := [("read_files", .bool false)]
  have hothers : ∀ m ∈ others, m.1 ∉ memberNames ∧ m.2.Flat :=
    List.forall_mem_singleton.2 ⟨by decide, .bool false⟩
  have horder : members.Perm ([("files", files), ("schedule", text "fan-out")] ++ others) :=
    List.perm_append_singleton ("files", files) [_, _]
  have hkept : settings.JsonForm kept (Value.record members).render :=
    hform settings kept members (.ofPerm hothers horder)
  have hnull : settings.JsonForm (fun field => field = .vault || kept field)
      (Value.record (members ++ [("vault", .null)])).render :=
    hform settings _ _ (.ofPerm hothers
      ((List.perm_append_singleton ("vault", Value.null) members).trans (horder.cons _)))
  obtain ⟨read, hreads, hsaid, hunsaid⟩ := hread settings kept _ hkept
  refine ⟨hkept, read, hreads, hsaid .files rfl, hunsaid .readFiles rfl, ?_⟩
  rw [← hreads]
  refine (hvault settings kept _ _ _ rfl (fun field hfield => ?_) hkept hnull).symm
  simp [hfield]

example : read? "\x7b \"vault\":null,\n\"sched\\u0075le\" : \"fan-out\"\x7d" =
    some { default with schedule := .fanOut } := by
  decide +kernel

end Settings

end SecretEnv
