import Mathlib.Data.List.Basic
import SecretEnv.Proofs.Loading.Stack
import SecretEnv.Proofs.Source.Lines
import SecretEnv.Proofs.Source.Meaning

namespace SecretEnv

def Line.IsHeader (line : String) : Prop :=
  Line.section? line = .error .unnamedSection ∨ ∃ name, Line.section? line = .ok (some name)

instance : DecidablePred Line.IsHeader := fun line =>
  match h : Line.section? line with
  | .ok none => .isFalse (by simp [Line.IsHeader, h])
  | .ok (some name) => .isTrue (.inr ⟨name, h⟩)
  | .error .unnamedSection => .isTrue (.inl h)
  | .error (.malformed _) => .isFalse (by simp [Line.IsHeader, h])
  | .error (.sectionInEntry _) => .isFalse (by simp [Line.IsHeader, h])

theorem Line.isHeader_of_header? {line name : String} (h : Line.header? line = some name) :
    Line.IsHeader line := by
  unfold Line.header? at h
  split at h
  · next found hfound => exact .inr ⟨name, by rw [hfound, h]⟩
  · cases h

namespace Source

def Progress.over (base : Bindings) (progress : Progress) : Progress :=
  { progress with bindings := base.overlay progress.bindings }

@[simp] theorem Progress.advance_over (base : Bindings) (progress : Progress) (line : String) :
    (progress.over base).advance line = Progress.over base <$> progress.advance line := by
  unfold Progress.advance
  cases Line.section? line with
  | error error => rfl
  | ok name? =>
    cases name? with
    | some name => rfl
    | none =>
      change (Line.expression line progress.item >>= _) = _ <$> (Line.expression line progress.item >>= _)
      cases Line.expression line progress.item with
      | error error => rfl
      | ok e =>
        change Except.ok _ = Except.ok _
        rw [Progress.over, Progress.over, KeySorted.overlay_insert]

@[simp] theorem foldlM_over (base : Bindings) (progress : Progress) (lines : List String) :
    lines.foldlM Progress.advance (progress.over base) =
      Progress.over base <$> lines.foldlM Progress.advance progress := by
  induction lines generalizing progress with
  | nil => rfl
  | cons line rest ih =>
    rw [List.foldlM_cons, List.foldlM_cons, Progress.advance_over]
    cases progress.advance line with
    | error error => rfl
    | ok next => exact ih next

theorem item_of_foldlM {lines : List String} {progress next : Progress}
    (hlines : ∀ line ∈ lines, ¬ Line.IsHeader line)
    (h : lines.foldlM Progress.advance progress = .ok next) : next.item = progress.item := by
  induction lines generalizing progress with
  | nil =>
    cases h
    rfl
  | cons line rest ih =>
    obtain ⟨hline, hrest⟩ := List.forall_mem_cons.1 hlines
    rw [List.foldlM_cons] at h
    rcases progress.advance_cases line with ⟨name, hheader, -⟩ | ⟨-, e, -, hstep⟩ |
      ⟨-, -, error, hstep, -⟩
    · exact absurd (Line.isHeader_of_header? hheader) hline
    · rw [hstep] at h
      have hitem := ih hrest h
      exact hitem
    · rw [hstep] at h
      cases h

theorem advance_of_isHeader {line : String} (h : Line.IsHeader line) (bindings : Bindings)
    (item item' : Option String) :
    Progress.advance ⟨bindings, item⟩ line = Progress.advance ⟨bindings, item'⟩ line := by
  unfold Progress.advance
  rcases h with hsection | ⟨name, hsection⟩ <;> rw [hsection] <;> rfl

theorem bindings_foldlM_of_head {lines : List String}
    (h : ∀ line ∈ lines.head?, Line.IsHeader line) (bindings : Bindings)
    (item item' : Option String) :
    Progress.bindings <$> lines.foldlM Progress.advance ⟨bindings, item⟩ =
      Progress.bindings <$> lines.foldlM Progress.advance ⟨bindings, item'⟩ := by
  cases lines with
  | nil => rfl
  | cons line rest =>
    rw [List.foldlM_cons, List.foldlM_cons, advance_of_isHeader (h line rfl) bindings item item']

/-- No section reaches from the lines above over the cut to those below: none was opened, or the
first line below opens one. -/
def Cut (above below : List String) : Prop :=
  (∀ line ∈ above, ¬ Line.IsHeader line) ∨ ∀ line ∈ below.head?, Line.IsHeader line

def parseLinesApart (above below : List String) : Except LineError Bindings := do
  let lower ← parseLines above
  let upper ← parseLines below
  return lower.overlay upper

theorem parseLines_append {above below : List String} (hcut : Cut above below) :
    parseLines (above ++ below) = parseLinesApart above below := by
  unfold parseLinesApart parseLines
  rw [List.foldlM_append]
  cases habove : above.foldlM Progress.advance ⟨.empty, none⟩ with
  | error error => rfl
  | ok progress =>
    obtain ⟨lower, item⟩ := progress
    have hforget : Progress.bindings <$> below.foldlM Progress.advance ⟨lower, item⟩ =
        Progress.bindings <$> below.foldlM Progress.advance ⟨lower, none⟩ := by
      rcases hcut with hnone | hhead
      · have hitem : item = none := item_of_foldlM hnone habove
        rw [hitem]
      · exact bindings_foldlM_of_head hhead lower item none
    have hover : (⟨lower, none⟩ : Progress) = Progress.over lower ⟨.empty, none⟩ := rfl
    change Progress.bindings <$> below.foldlM Progress.advance ⟨lower, item⟩ = _
    rw [hforget, hover, foldlM_over]
    cases below.foldlM Progress.advance ⟨.empty, none⟩ <;> rfl

@[simp] theorem significantLines_append_lineFeed (above below : String) :
    significantLines (above ++ "\n" ++ below) = significantLines above ++ significantLines below := by
  have htext : (above ++ "\n" ++ below).toList = above.toList ++ '\n' :: below.toList := by simp
  simp [significantLines, htext]

def parseApart (above below : String) : Except LineError Bindings := do
  let lower ← parse above
  let upper ← parse below
  return lower.overlay upper

end Source

open Source

theorem Loading.outcome_files_pair {reader : Reader} {lowerPath upperPath above below : String}
    (hlower : reader lowerPath = .ok above) (hupper : reader upperPath = .ok below) :
    (files reader false [lowerPath, upperPath]).outcome =
      (parseApart above below).mapError
        (.inFile (if (parse above).isOk then upperPath else lowerPath)) := by
  rw [outcome_files, parseApart]
  change [Layer.file lowerPath, .file upperPath].foldlM (overlayLayer reader) .empty = _
  simp only [List.foldlM_cons, List.foldlM_nil, overlayLayer, Layer.read_file, hlower, hupper]
  cases parse above with
  | error error => rfl
  | ok lower =>
    cases parse below with
    | error error => rfl
    | ok upper =>
      change Except.ok ((KeySorted.empty.overlay lower).overlay upper) = _
      rw [KeySorted.empty_overlay]
      rfl

/-- A text that is cut where no section reaches over the cut says what its two parts say as sources
of their own, the second over the first: the same bindings, or the error of the first part, or else
of the second. A load of two files with these texts answers the same and names the file. -/
theorem Source.cut_text_reads_as_two_sources {above below : String}
    (hcut : Cut (significantLines above) (significantLines below)) :
    parse (above ++ "\n" ++ below) = parseApart above below ∧
    ∀ (reader : Reader) (lowerPath upperPath : String),
      reader lowerPath = .ok above → reader upperPath = .ok below →
      (Loading.files reader false [lowerPath, upperPath]).outcome =
        (parse (above ++ "\n" ++ below)).mapError
          (.inFile (if (parse above).isOk then upperPath else lowerPath)) := by
  have hparse : parse (above ++ "\n" ++ below) = parseApart above below := by
    rw [parse, significantLines_append_lineFeed]
    exact parseLines_append hcut
  refine ⟨hparse, ?_⟩
  intro reader lowerPath upperPath hlower hupper
  rw [hparse]
  exact Loading.outcome_files_pair hlower hupper

/-- A section of the first part is open at the cut and no part of the second, whose first line opens
one without a name. The file of the second part is to blame. -/
theorem Source.cut_before_unnamed_section :
    let above := "[item:db]\nHOST\nPORT='1'"
    let below := "# web\n[item: ]\nPORT"
    let reader := Reader.ofTable [("a", .ok above), ("b", .ok below)]
    Cut (significantLines above) (significantLines below) ∧
    reader "a" = .ok above ∧ reader "b" = .ok below ∧
    parse (above ++ "\n" ++ below) = .error .unnamedSection ∧
    (Loading.files reader false ["a", "b"]).outcome = .error (.inFile "b" .unnamedSection) := by
  intro above below reader
  have hhead : (significantLines below).head? = some "[item: ]" := by decide +kernel
  have hcut : Cut (significantLines above) (significantLines below) := by
    right
    rw [hhead]
    intro line hline
    cases hline
    exact .inl (by decide)
  have habove : (parse above).isOk = true := by decide +kernel
  have hapart : parseApart above below = .error .unnamedSection := by decide +kernel
  obtain ⟨hparse, hfiles⟩ := cut_text_reads_as_two_sources hcut
  have hload := hfiles reader "a" "b" rfl rfl
  rw [hparse, hapart, if_pos habove] at hload
  exact ⟨hcut, rfl, rfl, hparse.trans hapart, hload⟩

example :
    parse ("[item:db]\nHOST" ++ "\n" ++ "PORT") =
        .ok (.ofList [⟨"HOST", .shorthand (some "db")⟩, ⟨"PORT", .shorthand (some "db")⟩]) ∧
      parseApart "[item:db]\nHOST" "PORT" =
        .ok (.ofList [⟨"HOST", .shorthand (some "db")⟩, ⟨"PORT", .shorthand none⟩]) := by
  decide +kernel

end SecretEnv
