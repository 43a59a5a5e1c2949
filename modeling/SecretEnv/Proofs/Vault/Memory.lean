import SecretEnv.Vault.Memory

namespace SecretEnv

/-- The item of this title that was put in last. -/
def Item.LastTitled (items : List Item) (title : String) (item : Item) : Prop :=
  ∃ before after, items = before ++ item :: after ∧ item.title = title ∧
    ∀ later ∈ after, later.title ≠ title

namespace MemoryVault

def history (vault : MemoryVault) : List Item :=
  vault.items.reverse

@[simp] theorem items_ofItems (items : List Item) : (ofItems items).items = items.reverse := by
  have hinsert (vault : MemoryVault) :
      (items.foldl insert vault).items = items.reverse ++ vault.items := by
    induction items generalizing vault with
    | nil => rfl
    | cons item rest ih => rw [List.foldl_cons, ih]; simp [insert]
  rw [ofItems, hinsert]
  exact List.append_nil _

@[simp] theorem counter_ofItems (items : List Item) : (ofItems items).counter = 0 := by
  have hinsert (vault : MemoryVault) : (items.foldl insert vault).counter = vault.counter := by
    induction items generalizing vault with
    | nil => rfl
    | cons item rest ih => rw [List.foldl_cons, ih]; rfl
  exact hinsert empty

@[simp] theorem history_ofItems (items : List Item) : (ofItems items).history = items := by
  rw [history, items_ofItems, List.reverse_reverse]

@[simp] theorem history_insert (vault : MemoryVault) (item : Item) :
    (vault.insert item).history = vault.history ++ [item] :=
  List.reverse_cons

@[simp] theorem answers_apply (vault : MemoryVault) (location : Location) :
    vault.answers location =
      .ok ((vault.find? location.itemName).bind (Vault.select location)) := rfl

@[simp] theorem find?_eq_some_iff {vault : MemoryVault} {title : String} {item : Item} :
    vault.find? title = some item ↔ Item.LastTitled vault.history title item := by
  rw [find?, List.find?_eq_some_iff_append]
  refine ⟨?_, ?_⟩
  · rintro ⟨htitle, after, before, hsplit, hafter⟩
    refine ⟨before.reverse, after.reverse, ?_, by simpa using htitle, ?_⟩
    · rw [history, hsplit]
      simp
    · intro later hlater
      simpa using hafter later (List.mem_reverse.1 hlater)
  · rintro ⟨before, after, hsplit, htitle, hafter⟩
    refine ⟨by simpa using htitle, after.reverse, before.reverse, ?_, ?_⟩
    · rw [List.reverse_eq_iff.1 hsplit]
      simp
    · intro later hlater
      simpa using hafter later (List.mem_reverse.1 hlater)

theorem find?_ofItems_eq_some_iff {items : List Item} {title : String} {item : Item} :
    (ofItems items).find? title = some item ↔ Item.LastTitled items title item := by
  rw [find?_eq_some_iff, history_ofItems]

@[simp] theorem find?_ofItems_eq_none_iff {items : List Item} {title : String} :
    (ofItems items).find? title = none ↔ ∀ item ∈ items, item.title ≠ title := by
  simp [find?]

end MemoryVault

theorem Item.lastTitled_append {below above : List Item} {title : String} {item : Item} :
    LastTitled (below ++ above) title item ↔ LastTitled above title item ∨
      ((∀ later ∈ above, later.title ≠ title) ∧ LastTitled below title item) := by
  simp only [← MemoryVault.find?_ofItems_eq_some_iff, ← MemoryVault.find?_ofItems_eq_none_iff]
  simp only [MemoryVault.find?, MemoryVault.items_ofItems, List.reverse_append, List.find?_append,
    Option.or_eq_some_iff]

/-- The fields among which a location chooses: those that are no notes, or those of its label. -/
def Location.Admits : Location → ItemField → Prop
  | .item _, candidate => candidate.purpose ≠ some "NOTES"
  | .field _ label, candidate => candidate.label = label

instance (location : Location) : DecidablePred location.Admits := fun candidate =>
  match location with
  | .item _ => inferInstanceAs (Decidable (candidate.purpose ≠ some "NOTES"))
  | .field _ label => inferInstanceAs (Decidable (candidate.label = label))

/-- The first field that the location admits has this secret; a value that is absent reads as the
empty text. -/
def Item.Gives (item : Item) (location : Location) (secret : Secret) : Prop :=
  ∃ before field after, item.fields = before ++ field :: after ∧ location.Admits field ∧
    (∀ earlier ∈ before, ¬ location.Admits earlier) ∧
    secret = ⟨field.type, field.value.getD ""⟩

theorem Vault.select_eq (location : Location) (item : Item) :
    select location item =
      (item.fields.find? fun candidate => location.Admits candidate).map ItemField.secret := by
  cases location with
  | item name =>
    rw [select, Item.firstSecret?]
    congr 2
    funext candidate
    rw [Bool.eq_iff_iff, decide_eq_true_iff]
    simp [ItemField.isNotes, ItemField.notesPurpose, Location.Admits]
  | field holder label => rfl

@[simp] theorem Vault.select_eq_some_iff {location : Location} {item : Item} {secret : Secret} :
    select location item = some secret ↔ item.Gives location secret := by
  rw [select_eq, Option.map_eq_some_iff]
  simp only [List.find?_eq_some_iff_append, decide_eq_true_eq, Bool.not_eq_true',
    decide_eq_false_iff_not]
  refine ⟨?_, ?_⟩
  · rintro ⟨field, ⟨hadmits, before, after, hsplit, hbefore⟩, rfl⟩
    exact ⟨before, field, after, hsplit, hadmits, hbefore, rfl⟩
  · rintro ⟨before, field, after, hsplit, hadmits, hbefore, rfl⟩
    exact ⟨field, ⟨hadmits, before, after, hsplit, hbefore⟩, rfl⟩

/-- What a location holds when these items have been put in, the last one last. -/
def Location.Holds (items : List Item) (location : Location) (secret : Secret) : Prop :=
  ∃ item, Item.LastTitled items location.itemName item ∧ item.Gives location secret

theorem MemoryVault.answers_eq_some_iff {vault : MemoryVault} {location : Location}
    {secret : Secret} :
    vault.answers location = .ok (some secret) ↔ location.Holds vault.history secret := by
  rw [answers_apply, Except.ok.injEq, Option.bind_eq_some_iff]
  simp only [find?_eq_some_iff, Vault.select_eq_some_iff]
  rfl

end SecretEnv
