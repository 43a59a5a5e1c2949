import SecretEnv.Proofs.Source.Lines
import SecretEnv.Settings

/-! Lists of file names in an environment variable. Commas part the text, and each piece is a name
with blanks around it or nothing but blanks, which say nothing; so a list can be written in many
ways, and every way is read back as the list. -/
namespace SecretEnv

open Text

namespace Settings

structure FileName (name : String) : Prop where
  nonempty : name ≠ ""
  trimmed : Trimmed name.toList
  single : ',' ∉ name.toList

/-- Pieces of a list: a name in each, with blanks around it, and any number of blank pieces. -/
inductive Pieces : List (List Char) → List String → Prop
  | nil : Pieces [] []
  | blank {piece : List Char} {pieces : List (List Char)} {names : List String} :
      Blanks piece → Pieces pieces names → Pieces (piece :: pieces) names
  | name {piece : List Char} {name : String} {pieces : List (List Char)} {names : List String} :
      Padded piece name.toList → Pieces pieces names → Pieces (piece :: pieces) (name :: names)

/-- A text that has some pieces for the names, with commas between the pieces. -/
def Listing (text : String) (names : List String) : Prop :=
  ∃ pieces, pieces ≠ [] ∧ Pieces pieces names ∧ text.toList = [','].intercalate pieces

@[simp] theorem nonBlank?_eq_some_iff {text name : String} :
    nonBlank? text = some name ↔
      Padded text.toList name.toList ∧ Trimmed name.toList ∧ name ≠ "" := by
  rw [nonBlank?, ← and_assoc, ← trim_eq_iff_padded, ne_eq, ← String.toList_eq_nil_iff]
  split
  · next hblank => simp +contextual [hblank]
  · next hname =>
    rw [Option.some_inj, ← String.toList_inj, String.toList_ofList]
    exact ⟨fun htrim => ⟨htrim, htrim ▸ hname⟩, fun h => h.1⟩

@[simp] theorem nonBlank?_eq_none_iff {text : String} :
    nonBlank? text = none ↔ Blanks text.toList := by
  simp [nonBlank?]

namespace Pieces

variable {pieces : List (List Char)} {names : List String}

theorem filterMap_eq (h : Pieces pieces names) (hnames : ∀ name ∈ names, FileName name) :
    (pieces.filterMap fun piece => nonBlank? (String.ofList piece)) = names := by
  induction h with
  | nil => rfl
  | @blank piece _ _ hblank _ ih =>
    have hnone : nonBlank? (String.ofList piece) = none :=
      nonBlank?_eq_none_iff.2 (by rwa [String.toList_ofList])
    simp only [List.filterMap_cons, hnone, ih hnames]
  | @name piece name _ _ hpadded _ ih =>
    obtain ⟨hname, hnames⟩ := List.forall_mem_cons.1 hnames
    have hsome : nonBlank? (String.ofList piece) = some name :=
      nonBlank?_eq_some_iff.2 ⟨by rwa [String.toList_ofList], hname.trimmed, hname.nonempty⟩
    simp only [List.filterMap_cons, hsome, ih hnames]

theorem of_filterMap : ∀ pieces : List (List Char),
    Pieces pieces (pieces.filterMap fun piece => nonBlank? (String.ofList piece))
  | [] => .nil
  | piece :: pieces => by
    cases hpiece : nonBlank? (String.ofList piece) with
    | none =>
      simp only [List.filterMap_cons, hpiece]
      rw [nonBlank?_eq_none_iff, String.toList_ofList] at hpiece
      exact .blank hpiece (of_filterMap pieces)
    | some name =>
      simp only [List.filterMap_cons, hpiece]
      rw [nonBlank?_eq_some_iff, String.toList_ofList] at hpiece
      exact .name hpiece.1 (of_filterMap pieces)

theorem single (h : Pieces pieces names) (hnames : ∀ name ∈ names, FileName name) :
    ∀ piece ∈ pieces, ',' ∉ piece := by
  have hblanks {text : List Char} (htext : Blanks text) : ',' ∉ text :=
    fun hin => absurd (htext ',' hin) (by decide)
  induction h with
  | nil => simp
  | blank hblank _ ih => exact List.forall_mem_cons.2 ⟨hblanks hblank, ih hnames⟩
  | name hpadded _ ih =>
    obtain ⟨before, after, hbefore, hafter, rfl⟩ := hpadded
    obtain ⟨hname, hnames⟩ := List.forall_mem_cons.1 hnames
    refine List.forall_mem_cons.2 ⟨?_, ih hnames⟩
    simp [hblanks hbefore, hblanks hafter, hname.single]

theorem self : ∀ names : List String, Pieces (names.map String.toList) names
  | [] => Pieces.nil
  | _ :: names => Pieces.name ⟨[], [], blanks_nil, blanks_nil, by simp⟩ (self names)

end Pieces

theorem fileName_of_mem {text name : String} (h : name ∈ fileNames text) : FileName name := by
  obtain ⟨piece, hpiece, hname⟩ := List.mem_filterMap.1 h
  rw [nonBlank?_eq_some_iff, String.toList_ofList] at hname
  obtain ⟨⟨before, after, -, -, rfl⟩, htrimmed, hnonempty⟩ := hname
  have hsingle := not_mem_of_mem_splitOn hpiece
  refine ⟨hnonempty, htrimmed, fun hin => hsingle ?_⟩
  simp [hin]

/-- Reading undoes every way to write a list, and every text is a way to write some list. -/
theorem fileNames_eq_iff {text : String} {names : List String} :
    fileNames text = names ↔ Listing text names ∧ ∀ name ∈ names, FileName name := by
  refine ⟨?_, ?_⟩
  · rintro rfl
    exact ⟨⟨text.toList.splitOn ',', List.splitOn_ne_nil _ _, .of_filterMap _,
      (List.intercalate_splitOn ',').symm⟩, fun _ => fileName_of_mem⟩
  · rintro ⟨⟨pieces, hne, hpieces, htext⟩, hnames⟩
    rw [fileNames, htext, List.splitOn_intercalate ',' (hpieces.single hnames) hne]
    exact hpieces.filterMap_eq hnames

theorem listing_intercalate {names : List String} (hne : names ≠ []) :
    Listing (",".intercalate names) names :=
  ⟨names.map String.toList, by simpa using hne, .self names, by simp [String.toList_intercalate]⟩

@[simp] theorem fileNames_eq_nil_iff {text : String} :
    fileNames text = [] ↔ ∀ piece ∈ text.toList.splitOn ',', Blanks piece := by
  simp [fileNames, List.filterMap_eq_nil_iff]

section Merge

variable {vars : Variables}

theorem mergeVault_of_none (h : (vars vaultVariable).bind nonBlank? = none) (settings : Settings) :
    settings.mergeVault vars = settings := by
  rw [mergeVault, h]

theorem mergeVault_of_some {name : String} (h : (vars vaultVariable).bind nonBlank? = some name)
    (settings : Settings) : settings.mergeVault vars = { settings with vault := some name } := by
  rw [mergeVault, h]

theorem mergeFiles_of_eq_nil (h : ∀ text, vars filesVariable = some text → fileNames text = [])
    (settings : Settings) : settings.mergeFiles vars = settings := by
  rw [mergeFiles]
  cases htext : vars filesVariable with
  | none => rfl
  | some text => rw [Option.map_some, h text htext]

theorem mergeFiles_of_ne_nil {text : String} (h : vars filesVariable = some text)
    (hne : fileNames text ≠ []) (settings : Settings) :
    settings.mergeFiles vars = { settings with files := fileNames text } := by
  obtain ⟨name, rest, hnames⟩ := List.exists_cons_of_ne_nil hne
  rw [mergeFiles, h, Option.map_some, hnames]

@[simp] theorem files_mergeVault (settings : Settings) (vars : Variables) :
    (settings.mergeVault vars).files = settings.files := by
  rw [mergeVault]
  split <;> rfl

theorem files_mergeVariables {text : String} (h : vars filesVariable = some text)
    (settings : Settings) : (settings.mergeVariables vars).files =
      if fileNames text = [] then settings.files else fileNames text := by
  rw [mergeVariables]
  split
  · next hnil =>
    have hsilent : ∀ other, vars filesVariable = some other → fileNames other = [] :=
      fun other hother => by rwa [← Option.some_inj.1 (h.symm.trans hother)]
    rw [mergeFiles_of_eq_nil hsilent, files_mergeVault]
  · next hne => rw [mergeFiles_of_ne_nil h hne]

end Merge

def Variables.only (name text : String) : Variables := fun asked =>
  if asked = name then some text else none

theorem mergeVariables_only (settings : Settings) {text : String} (hne : fileNames text ≠ []) :
    settings.mergeVariables (.only filesVariable text) = { settings with files := fileNames text } := by
  have hvault : (Variables.only filesVariable text vaultVariable).bind nonBlank? = none := rfl
  have hfiles : Variables.only filesVariable text filesVariable = some text := rfl
  rw [mergeVariables, mergeVault_of_none hvault, mergeFiles_of_ne_nil hfiles hne]

end Settings

open Settings

/-- A list of names, however it is written, is what the files become. And wherever a variable
changes the files, or merely holds a piece that is not blank, they become names that can be listed;
their plain list, merged on its own, says what the settings hold already. -/
theorem files_variable_undoes_joining :
    (∀ (settings : Settings) (vars : Variables) names text,
      names ≠ [] → (∀ name ∈ names, FileName name) → Listing text names →
      vars filesVariable = some text → (settings.mergeVariables vars).files = names) ∧
    ∀ (settings : Settings) (vars : Variables) text, vars filesVariable = some text →
      let merged := settings.mergeVariables vars
      (merged.files ≠ settings.files ∨ ∃ piece ∈ text.toList.splitOn ',', ¬ Blanks piece) →
        merged.files ≠ [] ∧ (∀ name ∈ merged.files, FileName name) ∧ Listing text merged.files ∧
        merged.mergeVariables (.only filesVariable (",".intercalate merged.files)) = merged := by
  refine ⟨?_, ?_⟩
  · intro settings vars names text hne hnames hlisting hvar
    have hread : fileNames text = names := fileNames_eq_iff.2 ⟨hlisting, hnames⟩
    rw [files_mergeVariables hvar, hread, if_neg hne]
  · intro settings vars text hvar merged hchange
    have hfiles : merged.files = if fileNames text = [] then settings.files else fileNames text :=
      files_mergeVariables hvar settings
    have hne : fileNames text ≠ [] := by
      intro hnil
      rw [if_pos hnil] at hfiles
      rcases hchange with hchange | ⟨piece, hpiece, hsays⟩
      · exact hchange hfiles
      · exact hsays (fileNames_eq_nil_iff.1 hnil piece hpiece)
    rw [if_neg hne] at hfiles
    obtain ⟨hlisting, hnames⟩ := fileNames_eq_iff.1 hfiles.symm
    rw [← hfiles] at hne
    have hagain : fileNames (",".intercalate merged.files) = merged.files :=
      fileNames_eq_iff.2 ⟨listing_intercalate hne, hnames⟩
    refine ⟨hne, hnames, hlisting, ?_⟩
    rw [mergeVariables_only merged (by rwa [hagain]), hagain]

theorem blank_pieces_list_nothing :
    let vars : Variables := .only filesVariable " ,.env0\t,,\u00a0my env , "
    let merged := Settings.default.mergeVariables vars
    merged.files = [".env0", "my env"] ∧
      merged.mergeVariables (.only filesVariable (",".intercalate merged.files)) = merged := by
  intro vars merged
  obtain ⟨hreads, hlists⟩ := files_variable_undoes_joining
  have hfiles : merged.files = [".env0", "my env"] := by
    have hpieces : Pieces [[' '], ".env0\t".toList, [], "\u00a0my env ".toList, [' ']]
        [".env0", "my env"] :=
      .blank (by decide) <| .name ⟨[], ['\t'], by decide, by decide, by decide⟩ <|
        .blank (by decide) <| .name ⟨['\u00a0'], [' '], by decide, by decide, by decide⟩ <|
          .blank (by decide) .nil
    refine hreads .default vars [".env0", "my env"] _ (by decide) ?_
      ⟨_, by decide, hpieces, by decide⟩ rfl
    simp only [List.forall_mem_cons]
    exact ⟨⟨by decide, by decide, by decide⟩, ⟨by decide, by decide, by decide⟩, nofun⟩
  obtain ⟨-, -, -, hagain⟩ := hlists .default vars _ rfl (.inl (by rw [hfiles]; decide))
  exact ⟨hfiles, hagain⟩

end SecretEnv
