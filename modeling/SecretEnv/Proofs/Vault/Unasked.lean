import Mathlib.Logic.Relation
import SecretEnv.Proofs.Resolution.Answer
import SecretEnv.Proofs.Vault.Memory

namespace SecretEnv

/-- The value that the vault holds at a location. -/
def MemoryVault.Shows (vault : MemoryVault) (location : Location) (value : String) : Prop :=
  ∃ secret, location.Holds vault.history secret ∧ secret.value = value

/-- An edit, among the items put in, of what the expressions do not ask for. -/
inductive Unasked (expressions : List Expression) : List Item → List Item → Prop where
  /-- Items come, go or change whose titles no expression names. -/
  | items (before old new after : List Item)
      (unnamed : ∀ item ∈ old ++ new, ∀ e ∈ expressions, ∀ location, e.Asks location →
        location.itemName ≠ item.title) :
      Unasked expressions (before ++ old ++ after) (before ++ new ++ after)
  /-- Notes come, go or change in an item of which no expression asks a field by its label. -/
  | notes (before after : List Item) (id title : String) (front old new back : List ItemField)
      (noted : ∀ note ∈ old ++ new, note.purpose = some "NOTES")
      (unlabeled : ∀ e ∈ expressions, ∀ label, ¬ e.Asks (.field title label)) :
      Unasked expressions (before ++ ⟨id, title, front ++ old ++ back⟩ :: after)
        (before ++ ⟨id, title, front ++ new ++ back⟩ :: after)

theorem Location.holds_append {below above : List Item} {location : Location} {secret : Secret} :
    location.Holds (below ++ above) secret ↔ location.Holds above secret ∨
      ((∀ item ∈ above, item.title ≠ location.itemName) ∧ location.Holds below secret) := by
  simp only [Holds, Item.lastTitled_append]
  refine ⟨?_, ?_⟩
  · rintro ⟨item, hlast | ⟨hnone, hlast⟩, hgives⟩
    · exact .inl ⟨item, hlast, hgives⟩
    · exact .inr ⟨hnone, item, hlast, hgives⟩
  · rintro (⟨item, hlast, hgives⟩ | ⟨hnone, item, hlast, hgives⟩)
    · exact ⟨item, .inl hlast, hgives⟩
    · exact ⟨item, .inr ⟨hnone, hlast⟩, hgives⟩

theorem Location.not_holds_of_untitled {items : List Item} {location : Location}
    (h : ∀ item ∈ items, item.title ≠ location.itemName) (secret : Secret) :
    ¬ location.Holds items secret := by
  rintro ⟨item, ⟨before, after, rfl, htitle, -⟩, -⟩
  exact h item (by simp) htitle

@[simp] theorem Location.holds_singleton {item : Item} {location : Location} {secret : Secret} :
    location.Holds [item] secret ↔ item.title = location.itemName ∧ item.Gives location secret := by
  refine ⟨?_, ?_⟩
  · rintro ⟨found, ⟨before, after, hsplit, htitle, -⟩, hgives⟩
    cases before with
    | nil =>
      cases hsplit
      exact ⟨htitle, hgives⟩
    | cons first rest => simp at hsplit
  · rintro ⟨htitle, hgives⟩
    exact ⟨item, ⟨[], [], rfl, htitle, nofun⟩, hgives⟩

theorem Item.gives_of_notes {id title name : String} {front old new back : List ItemField}
    (hnoted : ∀ note ∈ old ++ new, note.purpose = some "NOTES") (secret : Secret) :
    (⟨id, title, front ++ old ++ back⟩ : Item).Gives (.item name) secret ↔
      (⟨id, title, front ++ new ++ back⟩ : Item).Gives (.item name) secret := by
  have hnone {notes : List ItemField} (h : ∀ note ∈ notes, note.purpose = some "NOTES") :
      notes.find? (fun candidate => (Location.item name).Admits candidate) = none := by
    rw [List.find?_eq_none]
    intro note hnote hadmits
    exact of_decide_eq_true hadmits (h note hnote)
  have hold := hnone fun note hnote => hnoted note (List.mem_append_left _ hnote)
  have hnew := hnone fun note hnote => hnoted note (List.mem_append_right _ hnote)
  simp only [← Vault.select_eq_some_iff, Vault.select_eq, List.find?_append, hold, hnew]

theorem Unasked.holds_iff {expressions : List Expression} {items others : List Item}
    (h : Unasked expressions items others) {e : Expression} (he : e ∈ expressions)
    {location : Location} (hasks : e.Asks location) (secret : Secret) :
    location.Holds items secret ↔ location.Holds others secret := by
  cases h with
  | items before old new after unnamed =>
    have huntitled : ∀ item ∈ old ++ new, item.title ≠ location.itemName :=
      fun item hitem => (unnamed item hitem e he location hasks).symm
    obtain ⟨hold, hnew⟩ := List.forall_mem_append.1 huntitled
    simp only [Location.holds_append, Location.not_holds_of_untitled hold,
      Location.not_holds_of_untitled hnew, eq_true hold, eq_true hnew]
  | notes before after id title front old new back noted unlabeled =>
    -- The item is the same to the locations that only name it, and no other location reaches it.
    have hgives : title = location.itemName →
        ((⟨id, title, front ++ old ++ back⟩ : Item).Gives location secret ↔
          (⟨id, title, front ++ new ++ back⟩ : Item).Gives location secret) := by
      rintro rfl
      cases location with
      | item name => exact Item.gives_of_notes noted secret
      | field holder label => exact absurd hasks (unlabeled e he label)
    rw [List.append_cons before ⟨id, title, front ++ old ++ back⟩,
      List.append_cons before ⟨id, title, front ++ new ++ back⟩]
    simp only [Location.holds_append, Location.holds_singleton, List.forall_mem_singleton,
      and_congr_right hgives]

theorem Unasked.holds_iff_of_edits {expressions : List Expression} {items others : List Item}
    (h : Relation.ReflTransGen (Unasked expressions) items others) {e : Expression}
    (he : e ∈ expressions) {location : Location} (hasks : e.Asks location) (secret : Secret) :
    location.Holds items secret ↔ location.Holds others secret := by
  induction h with
  | refl => rfl
  | tail _ hedit ih => exact ih.trans (hedit.holds_iff he hasks secret)

theorem MemoryVault.shows_iff {vault : MemoryVault} {location : Location} {value : String} :
    vault.Shows location value ↔
      ((vault.find? location.itemName).bind (Vault.select location)).map Secret.value =
        some value := by
  simp only [Shows, ← answers_eq_some_iff, answers_apply, Except.ok.injEq, Option.map_eq_some_iff]

theorem Resolution.outcome_of_shows {expressions : List Expression} {vault other : MemoryVault}
    (h : ∀ e ∈ expressions, ∀ location, e.Asks location →
      ∀ value, vault.Shows location value ↔ other.Shows location value)
    (schedule : Schedule) (timing timing' : Timing Placed) :
    (resolve schedule timing vault.answers expressions).outcome =
      (resolve schedule timing' other.answers expressions).outcome := by
  apply outcome_congr_value
  intro location hlocation
  obtain ⟨e, he, hasks⟩ := List.mem_filterMap.1 hlocation
  refine congrArg Except.ok (Option.ext ?_)
  intro value
  rw [← MemoryVault.shows_iff, ← MemoryVault.shows_iff]
  exact h e he location (Expression.location?_eq_some_iff.1 hasks) value

/-- The answer depends on nothing in the vault but the values at the places that the expressions ask
for: not on the types of fields, not on items of other titles, and not on the notes of an item of
which no field is asked for by its label. -/
theorem unasked_content_is_unobservable (expressions : List Expression) (vault other : MemoryVault)
    (schedule : Schedule) (timing timing' : Timing Resolution.Placed) :
    let answer := (Resolution.resolve schedule timing vault.answers expressions).outcome
    let answer' := (Resolution.resolve schedule timing' other.answers expressions).outcome
    ((∀ e ∈ expressions, ∀ location, e.Asks location →
        ∀ value, vault.Shows location value ↔ other.Shows location value) →
      answer = answer') ∧
    (Relation.ReflTransGen (Unasked expressions) vault.history other.history →
      answer = answer') := by
  intro answer answer'
  refine ⟨?_, ?_⟩
  · intro hshows
    exact Resolution.outcome_of_shows hshows schedule timing timing'
  · intro hedits
    apply Resolution.outcome_of_shows _ schedule timing timing'
    intro e he location hasks value
    refine exists_congr fun secret => and_congr_left fun _ => ?_
    exact Unasked.holds_iff_of_edits hedits he hasks secret

/-- A field of another type, an empty value for an absent one and other fields beside those asked
for do not show, nor do a note that is rewritten and an item that nobody names. -/
theorem rewritten_note_is_unobservable :
    let expressions : List Expression := [⟨"A", .shorthand none⟩, ⟨"K", .reference "KEY" (some "db")⟩]
    let note (text : String) := (ItemField.concealed "notes" text).withPurpose "NOTES"
    let vault := MemoryVault.ofItems [⟨"1", "A", [note "old", .concealed "password" "s"]⟩,
      ⟨"2", "db", [⟨"", "STRING", none, "KEY", none⟩]⟩]
    let same := MemoryVault.ofItems [⟨"3", "db", [.concealed "USER" "root", .concealed "KEY" ""]⟩,
      ⟨"4", "A", [⟨"", "STRING", none, "PIN", some "s"⟩, .concealed "password" "t"]⟩]
    let edited := MemoryVault.ofItems [⟨"1", "A", [note "new", .concealed "password" "s"]⟩,
      ⟨"5", "memo", []⟩, ⟨"2", "db", [⟨"", "STRING", none, "KEY", none⟩]⟩]
    let answer (vault : MemoryVault) :=
      (Resolution.resolve .primeThenFanOut .inOrder vault.answers expressions).outcome
    answer vault = answer same ∧ answer vault = answer edited := by
  intro expressions note vault same edited answer
  have hunasked := unasked_content_is_unobservable expressions vault
  refine ⟨(hunasked same .primeThenFanOut .inOrder .inOrder).1 ?_,
    (hunasked edited .primeThenFanOut .inOrder .inOrder).2 ?_⟩
  · intro e he location hasks value
    rw [MemoryVault.shows_iff, MemoryVault.shows_iff]
    rcases List.mem_pair.1 he with rfl | rfl <;> cases hasks <;> rfl
  · rw [MemoryVault.history_ofItems, MemoryVault.history_ofItems]
    refine .tail (.single ?_) (.items [_] [] [⟨"5", "memo", []⟩] [_] ?_)
    · refine .notes [] [_] "1" "A" [] [note "old"] [note "new"] [.concealed "password" "s"] ?_ ?_
      · simp [note, ItemField.withPurpose]
      · intro e he label hasks
        rw [← Expression.location?_eq_some_iff] at hasks
        rcases List.mem_pair.1 he with rfl | rfl <;>
          simp [Expression.location?, Expression.lookupName?, Rule.item?] at hasks
    · rintro item hitem e he location hasks
      rw [List.nil_append, List.mem_singleton] at hitem
      subst hitem
      rcases List.mem_pair.1 he with rfl | rfl <;> cases hasks <;> decide

end SecretEnv
