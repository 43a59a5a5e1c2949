import SecretEnv.Proofs.Json.Records
import SecretEnv.Proofs.Text.Trim
import SecretEnv.Proofs.Text.Utf8
import SecretEnv.Vault.CommandLine

namespace SecretEnv

open Json Text

namespace ItemField

def choices (id type purpose label value : Option Value) : Choices :=
  [("id", id), ("type", type), ("purpose", purpose), ("label", label), ("value", value)]

/-- Members that hold the field and nothing else that is asked for. -/
inductive HeldBy (field : ItemField) : Members → Prop where
  | ofChoices {id type purpose label value : Option Value} {members : Members}
      (says_id : Says HoldsText "" field.id id)
      (says_type : Says HoldsText "" field.type type)
      (says_purpose : Says HoldsOptionalText none field.purpose purpose)
      (says_label : Says HoldsText "" field.label label)
      (says_value : Says HoldsOptionalText none field.value value)
      (made : members.Make (choices id type purpose label value)) : HeldBy field members

theorem HeldBy.ofJson?_eq {field : ItemField} {members : Members} (h : field.HeldBy members) :
    ofJson? (Value.record members) = some field := by
  obtain ⟨says_id, says_type, says_purpose, says_label, says_value, made⟩ := h
  have hdistinct : memberNames.Nodup := by decide
  have hid : members.withDefault? "id" "" Value.text? = some field.id :=
    made.text_eq hdistinct (by simp [choices]) says_id
  have htype : members.withDefault? "type" "" Value.text? = some field.type :=
    made.text_eq hdistinct (by simp [choices]) says_type
  have hpurpose : members.withDefault? "purpose" none Value.optionalText? = some field.purpose :=
    made.optionalText_eq hdistinct (by simp [choices]) says_purpose
  have hlabel : members.withDefault? "label" "" Value.text? = some field.label :=
    made.text_eq hdistinct (by simp [choices]) says_label
  have hvalue : members.withDefault? "value" none Value.optionalText? = some field.value :=
    made.optionalText_eq hdistinct (by simp [choices]) says_value
  rw [ofJson?, record?_record]
  simp [hid, htype, hpurpose, hlabel, hvalue]

theorem HeldBy.textual {field : ItemField} {members : Members} (h : field.HeldBy members) :
    (Value.record members).Textual := by
  obtain ⟨says_id, says_type, says_purpose, says_label, says_value, made⟩ := h
  apply Value.textual_record
  apply made.textual
  simp only [choices, List.forall_mem_cons]
  exact ⟨says_id.textual fun _ => HoldsText.textual, says_type.textual fun _ => HoldsText.textual,
    says_purpose.textual fun _ => HoldsOptionalText.textual,
    says_label.textual fun _ => HoldsText.textual,
    says_value.textual fun _ => HoldsOptionalText.textual, List.forall_mem_nil _⟩

def ownMembers (field : ItemField) : Members :=
  Choices.members <| choices (some (text field.id)) (some (text field.type))
    (field.purpose.map text) (some (text field.label)) (some (Value.ofOptionalText field.value))

@[simp] theorem record_ownMembers (field : ItemField) :
    Value.record field.ownMembers = field.toJson := by
  obtain ⟨id, type, purpose, label, value⟩ := field
  cases purpose <;> rfl

@[simp] theorem heldBy_ownMembers (field : ItemField) : field.HeldBy field.ownMembers := by
  apply HeldBy.ofChoices (.said rfl) (.said rfl) _ (.said rfl) (.said rfl) (.ofChoices _)
  cases field.purpose with
  | none => exact .left_out rfl
  | some purpose => exact .said rfl

end ItemField

namespace Item

def choices (id title fields : Option Value) : Choices :=
  [("id", id), ("title", title), ("fields", fields)]

inductive HeldBy (item : Item) : Members → Prop where
  | ofChoices {id title fields : Option Value} {members : Members}
      (says_id : Says HoldsText "" item.id id)
      (says_title : Says HoldsText "" item.title title)
      (says_fields : Says (HoldsList (HoldsRecord ItemField.HeldBy)) [] item.fields fields)
      (made : members.Make (choices id title fields)) : HeldBy item members

/-- A JSON text that holds the item. -/
def JsonForm (item : Item) (text : String) : Prop :=
  ∃ members, item.HeldBy members ∧ Spaced (Value.record members).Layout text.toList

variable {item : Item} {members : Members}

theorem HeldBy.ofJson?_eq (h : item.HeldBy members) :
    ofJson? (Value.record members) = some item := by
  obtain ⟨says_id, says_title, says_fields, made⟩ := h
  have hdistinct : memberNames.Nodup := by decide
  have hid : members.withDefault? "id" "" Value.text? = some item.id :=
    made.text_eq hdistinct (by simp [choices]) says_id
  have htitle : members.withDefault? "title" "" Value.text? = some item.title :=
    made.text_eq hdistinct (by simp [choices]) says_title
  have hfields : members.withDefault? "fields" [] (Value.list? ItemField.ofJson?) =
      some item.fields := by
    apply made.withDefault?_eq hdistinct (by simp [choices]) says_fields
    intro v hv
    apply hv.list?_eq
    rintro field _ ⟨own, hown, rfl⟩
    exact hown.ofJson?_eq
  rw [ofJson?, record?_record]
  simp [hid, htitle, hfields]

theorem HeldBy.textual (h : item.HeldBy members) : (Value.record members).Textual := by
  obtain ⟨says_id, says_title, says_fields, made⟩ := h
  apply Value.textual_record
  apply made.textual
  simp only [choices, List.forall_mem_cons]
  refine ⟨says_id.textual fun _ => HoldsText.textual, says_title.textual fun _ => HoldsText.textual,
    says_fields.textual ?_, List.forall_mem_nil _⟩
  intro v hv
  apply hv.textual
  rintro field _ ⟨own, hown, rfl⟩
  exact hown.textual

def ownMembers (item : Item) : Members :=
  Choices.members <| choices (some (text item.id)) (some (text item.title))
    (some (.array (item.fields.map ItemField.toJson)))

@[simp] theorem heldBy_ownMembers (item : Item) : item.HeldBy item.ownMembers := by
  apply HeldBy.ofChoices (.said rfl) (.said rfl) _ (.ofChoices _)
  apply Says.said
  apply HoldsList.of_map
  intro field
  exact ⟨field.ownMembers, field.heldBy_ownMembers, field.record_ownMembers.symm⟩

theorem HeldBy.jsonForm_render (h : item.HeldBy members) :
    item.JsonForm (Value.record members).render :=
  ⟨members, h, spaced_render h.textual⟩

@[simp] theorem jsonForm_render (item : Item) : item.JsonForm item.render :=
  item.heldBy_ownMembers.jsonForm_render

theorem readChars?_of_layout (h : item.HeldBy members) {text : List Char}
    (hlayout : Spaced (Value.record members).Layout text) : readChars? text = some item := by
  rw [readChars?, parse?_of_layout hlayout]
  exact h.ofJson?_eq

theorem read?_of_jsonForm {text : String} (h : item.JsonForm text) : read? text = some item := by
  obtain ⟨members, hheld, hlayout⟩ := h
  exact readChars?_of_layout hheld hlayout

@[simp] theorem readChars?_render (item : Item) : readChars? item.render.toList = some item :=
  read?_of_jsonForm item.jsonForm_render

theorem trimmed_of_layout {core : List Char} (h : (Value.record members).Layout core) :
    Trimmed core := by
  obtain ⟨inner, rfl, -⟩ := h
  constructor
  · exact startsBare_cons.2 (by decide)
  · intro c hc
    rw [← List.cons_append, List.getLast?_append] at hc
    cases hc
    decide

@[simp] theorem trimmed_render (item : Item) : Trimmed item.render.toList := by
  rw [render, Value.render, String.toList_ofList]
  exact trimmed_of_layout (layout_write _ item.heldBy_ownMembers.textual)

theorem blanks_of_spaces {text : List Char} (h : Spaces text) : Blanks text := by
  intro c hc
  rcases h c hc with rfl | rfl | rfl | rfl <;> decide

theorem exists_trim_of_spaced {left text right : List Char} (hleft : Blanks left)
    (hright : Blanks right) (h : Spaced (Value.record members).Layout text) :
    ∃ core, trim (left ++ text ++ right) = core ∧ (Value.record members).Layout core := by
  obtain ⟨before, core, after, rfl, hbefore, hcore, hafter⟩ := h
  refine ⟨core, trim_eq_iff.2 ⟨left ++ before, after ++ right, ?_, ?_, ?_, ?_⟩, hcore⟩
  · exact List.forall_mem_append.2 ⟨hleft, blanks_of_spaces hbefore⟩
  · exact List.forall_mem_append.2 ⟨blanks_of_spaces hafter, hright⟩
  · simp
  · exact trimmed_of_layout hcore

theorem readItem_of_jsonForm {left text right : String} (h : item.JsonForm text)
    (hleft : Blanks left.toList) (hright : Blanks right.toList) :
    CommandVault.readItem (Utf8.encode (left ++ text ++ right)) = .ok item := by
  obtain ⟨members, hheld, hlayout⟩ := h
  obtain ⟨core, htrim, hcore⟩ := exists_trim_of_spaced hleft hright hlayout
  unfold CommandVault.readItem CommandVault.said
  rw [Utf8.decodeLossy_encode, String.toList_append, String.toList_append, htrim,
    readChars?_of_layout hheld (.of_core hcore)]

/-- Every JSON form of an item is read as that item, with its fields in their order, so its first
secret and the field of every label are found as in the item itself. What is written for an item is
one of its forms, and among blanks a program may print any of them. -/
theorem forms_are_read_as_items :
    (∀ (item : Item) text, item.JsonForm text →
      read? text = some item ∧
      (read? text).map firstSecret? = some item.firstSecret? ∧
      ∀ label, (read? text).map (labeled? · label) = some (item.labeled? label)) ∧
    (∀ (item : Item) members, item.HeldBy members →
      item.JsonForm (Value.record members).render) ∧
    (∀ item : Item, item.JsonForm item.render ∧ read? item.render = some item) ∧
    ∀ (item : Item) (left text right : String), item.JsonForm text → Blanks left.toList →
      Blanks right.toList →
      CommandVault.readItem (Utf8.encode (left ++ text ++ right)) = .ok item := by
  refine ⟨?_, ?_, ?_, ?_⟩
  · intro item text hform
    rw [read?_of_jsonForm hform]
    exact ⟨rfl, rfl, fun _ => rfl⟩
  · intro item members hheld
    exact hheld.jsonForm_render
  · intro item
    exact ⟨item.jsonForm_render, read?_of_jsonForm item.jsonForm_render⟩
  · intro item left text right hform hleft hright
    exact readItem_of_jsonForm hform hleft hright

/-- The identifier stands behind the fields and the title is left out. A purpose that is none is
null, and other members stand on both levels. -/
theorem shuffled_item_is_read :
    let item : Item := ⟨"7", "", [⟨"", "", none, "", some "x"⟩]⟩
    let field : Members := [("note", .bool true), ("purpose", .null), ("value", text "x")]
    let members : Members :=
      [("fields", .array [Value.record field]), ("note", .null), ("id", text "7")]
    item.HeldBy members ∧ read? (Value.record members).render = some item ∧
      CommandVault.readItem (Utf8.encode ("\t" ++ (Value.record members).render ++ "\n")) =
        .ok item := by
  intro item field members
  have hfield : ItemField.HeldBy ⟨"", "", none, "", some "x"⟩ field := by
    apply ItemField.HeldBy.ofChoices (.left_out rfl) (.left_out rfl) (.said rfl) (.left_out rfl)
      (.said rfl)
    refine .ofPerm ?_ (List.perm_append_singleton ("note", Value.bool true) _).symm
    exact List.forall_mem_singleton.2 ⟨by decide, .bool true⟩
  have hitem : item.HeldBy members := by
    apply HeldBy.ofChoices (.said rfl) (.left_out rfl)
      (.said ⟨_, .cons ⟨field, hfield, rfl⟩ .nil, rfl⟩)
    have horder : members.Perm
        ([("id", text "7"), ("fields", .array [Value.record field])] ++ [("note", .null)]) :=
      List.perm_append_singleton ("id", text "7") [_, _]
    exact .ofPerm (List.forall_mem_singleton.2 ⟨by decide, .null⟩) horder
  obtain ⟨hread, hform, -, hanswer⟩ := forms_are_read_as_items
  exact ⟨hitem, (hread item _ (hform item members hitem)).1,
    hanswer item "\t" _ "\n" (hform item members hitem) (by decide) (by decide)⟩

example : read? " \x7b\"fields\":[\x7b\"value\":\"x\",\"note\":true\x7d ],\"\\u0069d\" : \"7\"\x7d" =
    some ⟨"7", "", [⟨"", "", none, "", some "x"⟩]⟩ := by
  decide +kernel

end Item

end SecretEnv
