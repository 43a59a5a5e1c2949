import SecretEnv.Proofs.Json.Members

/-! Records from which members may be left out. What such a record says is one choice for each of
its names: a value, or nothing. The choices are read back whatever order the members stand in and
whatever members of other names stand among them, and a member that was left out reads as its
default. -/
namespace SecretEnv.Json

variable {α : Type}

/-- By name, the value that stands under it, if there is one. -/
abbrev Choices := List (String × Option Value)

namespace Choices

def names (choices : Choices) : List String :=
  choices.map Prod.fst

def members (choices : Choices) : Members :=
  choices.flatMap fun choice => (choice.2.map (choice.1, ·)).toList

variable {choices : Choices} {name : String} {value? : Option Value}

theorem mem_names (h : (name, value?) ∈ choices) : name ∈ choices.names :=
  List.mem_map_of_mem h

theorem mem_of_mem_members {m : String × Value} (h : m ∈ choices.members) :
    (m.1, some m.2) ∈ choices := by
  simp only [members, List.mem_flatMap, Option.mem_toList, Option.map_eq_some_iff] at h
  obtain ⟨⟨_, _⟩, hchoice, v, rfl, rfl⟩ := h
  exact hchoice

theorem filter_members (hdistinct : choices.names.Nodup) (h : (name, value?) ∈ choices) :
    choices.members.filter (·.1 == name) = (value?.map (name, ·)).toList := by
  induction choices with
  | nil => cases h
  | cons first rest ih =>
    obtain ⟨hnot, hrest⟩ := List.nodup_cons.1 hdistinct
    rw [members, List.flatMap_cons, List.filter_append]
    change _ ++ (members rest).filter _ = _
    rcases List.mem_cons.1 h with rfl | hin
    · have hothers : (members rest).filter (·.1 == name) = [] := by
        simp only [List.filter_eq_nil_iff, beq_iff_eq]
        rintro m hm rfl
        exact hnot (mem_names (mem_of_mem_members hm))
      rw [hothers]
      cases value? <;> simp
    · have hne : first.1 ≠ name := by
        rintro rfl
        exact hnot (mem_names hin)
      rw [ih hrest hin]
      cases first.2 <;> simp [hne]

theorem single?_members (hdistinct : choices.names.Nodup) (h : (name, value?) ∈ choices) :
    choices.members.single? name = some value? := by
  rw [Members.single?, filter_members hdistinct h]
  cases value? <;> rfl

end Choices

def HoldsText (s : String) (v : Value) : Prop :=
  v = text s

def HoldsOptionalText (s? : Option String) (v : Value) : Prop :=
  v = Value.ofOptionalText s?

def HoldsRecord (holds : α → Members → Prop) (a : α) (v : Value) : Prop :=
  ∃ members, holds a members ∧ v = Value.record members

def HoldsList (holds : α → Value → Prop) (list : List α) (v : Value) : Prop :=
  ∃ elements, List.Forall₂ holds list elements ∧ v = .array elements

/-- What may stand where `a` is said: a value that holds it, or nothing if `a` is the default. -/
inductive Says (holds : α → Value → Prop) (default a : α) : Option Value → Prop where
  | said {v : Value} (held : holds a v) : Says holds default a (some v)
  | left_out (is_default : a = default) : Says holds default a none

theorem HoldsText.text?_eq {s : String} {v : Value} (h : HoldsText s v) : v.text? = some s := by
  rw [h]
  rfl

theorem HoldsText.textual {s : String} {v : Value} (h : HoldsText s v) : v.Textual := by
  rw [h]
  exact .text s

theorem HoldsOptionalText.optionalText?_eq {s? : Option String} {v : Value}
    (h : HoldsOptionalText s? v) : v.optionalText? = some s? := by
  rw [h]
  cases s? <;> rfl

theorem HoldsOptionalText.textual {s? : Option String} {v : Value} (h : HoldsOptionalText s? v) :
    v.Textual := by
  rw [h]
  cases s? with
  | none => exact .null
  | some s => exact .text s

theorem HoldsList.list?_eq {holds : α → Value → Prop} {decode : Value → Option α} {list : List α}
    {v : Value} (h : HoldsList holds list v) (hdecode : ∀ a v, holds a v → decode v = some a) :
    Value.list? decode v = some list := by
  obtain ⟨elements, helements, rfl⟩ := h
  change elements.mapM decode = some list
  induction helements with
  | nil => rfl
  | cons hfirst _ ih =>
    rw [List.mapM_cons, hdecode _ _ hfirst, ih]
    rfl

theorem HoldsList.textual {holds : α → Value → Prop} {list : List α} {v : Value}
    (h : HoldsList holds list v) (htextual : ∀ a v, holds a v → v.Textual) : v.Textual := by
  obtain ⟨elements, helements, rfl⟩ := h
  apply Value.Textual.array
  induction helements with
  | nil => exact List.forall_mem_nil _
  | cons hfirst _ ih => exact List.forall_mem_cons.2 ⟨htextual _ _ hfirst, ih⟩

theorem HoldsList.of_map {holds : α → Value → Prop} {encode : α → Value}
    (h : ∀ a, holds a (encode a)) (list : List α) :
    HoldsList holds list (.array (list.map encode)) := by
  refine ⟨list.map encode, ?_, rfl⟩
  rw [List.forall₂_map_right_iff, List.forall₂_same]
  exact fun a _ => h a

theorem Says.textual {holds : α → Value → Prop} {default a : α} {value? : Option Value}
    (h : Says holds default a value?) (htextual : ∀ v, holds a v → v.Textual) :
    ∀ v ∈ value?, v.Textual := by
  cases h with
  | said held => simpa using htextual _ held
  | left_out is_default => nofun

/-- Members in any order that make the choices. Flat members of other names may stand among them. -/
inductive Members.Make (choices : Choices) : Members → Prop where
  | ofPerm {others members : Members}
      (passed_over : ∀ m ∈ others, m.1 ∉ choices.names ∧ m.2.Flat)
      (order : members.Perm (choices.members ++ others)) : Make choices members

@[simp] theorem record?_record (known : List String) (members : Members) :
    record? known (Value.record members) = some members :=
  named?_record members

namespace Members.Make

variable {choices : Choices} {members : Members} {name : String} {value? : Option Value}

theorem ofChoices (choices : Choices) : Make choices choices.members := by
  refine .ofPerm (List.forall_mem_nil _) ?_
  rw [List.append_nil]

theorem single?_eq (h : Make choices members) (hdistinct : choices.names.Nodup)
    (hchoice : (name, value?) ∈ choices) : members.single? name = some value? := by
  obtain ⟨hothers, horder⟩ := h
  rw [single?_perm horder, single?_append name, Choices.single?_members hdistinct hchoice]
  rintro m hm rfl
  exact (hothers m hm).1 (Choices.mem_names hchoice)

theorem withDefault?_eq {holds : α → Value → Prop} {default a : α} {decode : Value → Option α}
    (h : Make choices members) (hdistinct : choices.names.Nodup)
    (hchoice : (name, value?) ∈ choices) (hsaid : Says holds default a value?)
    (hdecode : ∀ v, holds a v → decode v = some a) :
    members.withDefault? name default decode = some a := by
  rw [withDefault?, h.single?_eq hdistinct hchoice]
  cases hsaid with
  | said held => exact hdecode _ held
  | left_out is_default => rw [is_default]; rfl

theorem text_eq {s : String} (h : Make choices members) (hdistinct : choices.names.Nodup)
    (hchoice : (name, value?) ∈ choices) (hsaid : Says HoldsText "" s value?) :
    members.withDefault? name "" Value.text? = some s :=
  h.withDefault?_eq hdistinct hchoice hsaid fun _ => HoldsText.text?_eq

theorem optionalText_eq {s? : Option String} (h : Make choices members)
    (hdistinct : choices.names.Nodup) (hchoice : (name, value?) ∈ choices)
    (hsaid : Says HoldsOptionalText none s? value?) :
    members.withDefault? name none Value.optionalText? = some s? :=
  h.withDefault?_eq hdistinct hchoice hsaid fun _ => HoldsOptionalText.optionalText?_eq

theorem textual (h : Make choices members)
    (hchoices : ∀ choice ∈ choices, ∀ v ∈ choice.2, v.Textual) : ∀ m ∈ members, m.2.Textual := by
  obtain ⟨hothers, horder⟩ := h
  intro m hm
  rcases List.mem_append.1 (horder.mem_iff.1 hm) with hchosen | hother
  · exact hchoices _ (Choices.mem_of_mem_members hchosen) m.2 rfl
  · exact (hothers m hother).2.textual

end Members.Make

end SecretEnv.Json
