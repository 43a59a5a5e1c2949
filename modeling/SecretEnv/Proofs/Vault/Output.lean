import SecretEnv.Proofs.Text.Lossy
import SecretEnv.Proofs.Vault.Agreement

namespace SecretEnv.CommandVault

open Text

/-- A stream says the text that its bytes are read as, without the blanks around it. -/
def Says (stream : List UInt8) (words : String) : Prop :=
  ∃ before after, Blanks before ∧ Blanks after ∧ Trimmed words.toList ∧
    Utf8.Reads stream (before ++ words.toList ++ after)

variable {status : String} {stdout stderr stream : List UInt8}

theorem says_iff {words : String} : Says stream words ↔ words = .ofList (said stream) := by
  have hsaid : said stream = words.toList ↔ words = .ofList (said stream) := by
    rw [eq_comm, ← String.ofList_inj, String.ofList_toList]
  rw [← hsaid, said, trim_eq_iff]
  refine exists₂_congr fun before after => ?_
  rw [Utf8.reads_iff]
  tauto

theorem exists_says_iff {P : String → Prop} :
    (∃ words, Says stream words ∧ P words) ↔ P (.ofList (said stream)) := by
  simp only [says_iff, exists_eq_left]

theorem infix_of_occurs (h : occurs unknownItemMarker (said stream) = true) :
    Utf8.encode (.ofList unknownItemMarker) <:+: stream := by
  rw [← Utf8.infix_decodeLossy_iff (by decide), String.toList_ofList]
  exact (occurs_iff.1 h).trans (trim_isInfix _)

theorem readFailure_cases (status : String) (stderr : List UInt8) :
    (Utf8.encode "isn't an item" <:+: stderr ∧ readFailure status stderr = .ok none) ∨
      (¬ Utf8.encode "isn't an item" <:+: stderr ∧
        readFailure status stderr = .error (.commandFailed status (.ofList (said stderr)))) := by
  have hmarker : String.ofList unknownItemMarker = "isn't an item" := String.ofList_toList
  rw [← hmarker]
  by_cases hmarked : Utf8.encode (.ofList unknownItemMarker) <:+: stderr
  · exact .inl ⟨hmarked, readFailure_of_marker hmarked⟩
  · exact .inr ⟨hmarked, if_neg fun hoccurs => hmarked (infix_of_occurs hoccurs)⟩

theorem readItem_eq (stdout : List UInt8) : readItem stdout =
    match Item.read? (.ofList (said stdout)) with
    | some item => .ok item
    | none => .error (.invalidResponse (Item.complaint (said stdout))) := by
  have hread : Item.read? (.ofList (said stdout)) = Item.readChars? (said stdout) := by
    rw [Item.read?, String.toList_ofList]
  rw [hread]
  rfl

/-- A run that fails is about an unknown item if the marker stands anywhere in its errors, whatever
bytes are around it, and otherwise it fails with its status and with what the errors say. Of a run
that succeeds the errors are never looked at: its output says an item, or it is no valid answer. -/
theorem output_is_told_by_bytes (status : String) (stdout stderr : List UInt8) :
    (readOutput ⟨some status, stdout, stderr⟩ = .ok none ↔
      Utf8.encode "isn't an item" <:+: stderr) ∧
    (∀ item, readOutput ⟨some status, stdout, stderr⟩ ≠ .ok (some item)) ∧
    (∀ error, readOutput ⟨some status, stdout, stderr⟩ = .error error ↔
      ¬ Utf8.encode "isn't an item" <:+: stderr ∧
        ∃ words, Says stderr words ∧ error = .commandFailed status words) ∧
    (∀ item?, readOutput ⟨none, stdout, stderr⟩ = .ok item? ↔
      ∃ words, Says stdout words ∧ ∃ item, Item.read? words = some item ∧ item? = some item) ∧
    ∀ error, readOutput ⟨none, stdout, stderr⟩ = .error error ↔
      ∃ words, Says stdout words ∧ Item.read? words = none ∧
        error = .invalidResponse (Item.complaint words.toList) := by
  have hfailed : readOutput ⟨some status, stdout, stderr⟩ = readFailure status stderr := rfl
  have hsucceeded : readOutput ⟨none, stdout, stderr⟩ = some <$> readItem stdout := rfl
  simp only [exists_says_iff, String.toList_ofList]
  rw [hfailed, hsucceeded, readItem_eq]
  refine ⟨?_, ?_, ?_, ?_, ?_⟩
  · rcases readFailure_cases status stderr with ⟨hmarked, hread⟩ | ⟨hunmarked, hread⟩
    · simp [hread, hmarked]
    · simp [hread, hunmarked]
  · intro item
    rcases readFailure_cases status stderr with ⟨-, hread⟩ | ⟨-, hread⟩ <;> simp [hread]
  · intro error
    rcases readFailure_cases status stderr with ⟨hmarked, hread⟩ | ⟨hunmarked, hread⟩
    · simp [hread, hmarked]
    · simp [hread, hunmarked, eq_comm]
  · intro item?
    cases Item.read? (.ofList (said stdout)) with
    | none => simp
    | some item => simp [eq_comm]
  · intro error
    cases Item.read? (.ofList (said stdout)) with
    | none => simp [eq_comm]
    | some item => simp

end SecretEnv.CommandVault
