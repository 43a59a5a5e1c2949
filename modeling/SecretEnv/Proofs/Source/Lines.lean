import SecretEnv.Proofs.Text.Trim
import SecretEnv.Source

namespace SecretEnv

namespace Text

theorem mem_of_mem_trim {text : List Char} {c : Char} (h : c ∈ trim text) : c ∈ text :=
  (trim_isInfix text).mem h

@[simp] theorem trimmed_trim (text : List Char) : Trimmed (trim text) := by
  obtain ⟨before, after, -, -, -, htrimmed⟩ := trim_eq_iff.1 (rfl : trim text = trim text)
  exact htrimmed

@[simp] theorem Trimmed.trim_eq {text : List Char} (h : Trimmed text) : trim text = text :=
  trim_eq_iff.2 ⟨[], [], blanks_nil, blanks_nil, by simp, h⟩

theorem not_mem_of_mem_splitOn {separator : Char} {text piece : List Char}
    (h : piece ∈ text.splitOn separator) : separator ∉ piece := by
  induction text generalizing piece with
  | nil => simp_all
  | cons c rest ih =>
    rw [List.splitOn_cons_eq_if_modifyHead] at h
    split at h
    · rcases List.mem_cons.1 h with rfl | h
      · simp
      · exact ih h
    · next hc =>
      -- The character goes to the front of the first piece, which is there even for no text.
      obtain ⟨first, pieces, hpieces⟩ :=
        List.exists_cons_of_ne_nil (List.splitOn_ne_nil separator rest)
      rw [hpieces, List.modifyHead_cons] at h
      rcases List.mem_cons.1 h with rfl | h
      · have hfirst : separator ∉ first := ih (by simp [hpieces])
        rw [List.mem_cons, not_or]
        exact ⟨fun heq => hc (by simp [heq]), hfirst⟩
      · exact ih (by simp [hpieces, h])

end Text

namespace Source

open Text

structure Significant (line : String) : Prop where
  nonempty : line ≠ ""
  trimmed : Trimmed line.toList
  single : '\n' ∉ line.toList
  uncommented : line.toList.head? ≠ some '#'

@[simp] theorem significant_nil : significant [] = [] := by
  decide

@[simp] theorem significant_append_lineFeed (above below : List Char) :
    significant (above ++ '\n' :: below) = significant above ++ significant below := by
  simp [significant, List.splitOn_append_cons_self]

theorem significant_of_mem {text line : String} (h : line ∈ significantLines text) :
    Significant line := by
  obtain ⟨chars, hchars, rfl⟩ := List.mem_map.1 h
  obtain ⟨hpiece, hsays⟩ := List.mem_filter.1 hchars
  obtain ⟨piece, hsplit, rfl⟩ := List.mem_map.1 hpiece
  simp only [decide_eq_true_eq] at hsays
  refine ⟨?_, ?_, ?_, ?_⟩
  · rw [ne_eq, ← String.toList_eq_nil_iff, String.toList_ofList]
    exact hsays.1
  · rw [String.toList_ofList]
    exact trimmed_trim piece
  · rw [String.toList_ofList]
    exact fun hin => not_mem_of_mem_splitOn hsplit (mem_of_mem_trim hin)
  · rw [String.toList_ofList]
    exact hsays.2

theorem significant_intercalate {lines : List String} (h : ∀ line ∈ lines, Significant line) :
    significant ("\n".intercalate lines).toList = lines.map String.toList := by
  cases lines with
  | nil => simp
  | cons first rest =>
    have hsplit : ("\n".intercalate (first :: rest)).toList.splitOn '\n' =
        (first :: rest).map String.toList := by
      rw [String.toList_intercalate]
      apply List.splitOn_intercalate '\n'
      · rw [List.forall_mem_map]
        exact fun line hline => (h line hline).single
      · simp
    rw [significant, hsplit, List.map_map]
    -- Neither trimming nor filtering finds anything to do.
    have htrim : (first :: rest).map (trim ∘ String.toList) = (first :: rest).map String.toList :=
      List.map_congr_left fun line hline => (h line hline).trimmed.trim_eq
    rw [htrim, List.filter_eq_self, List.forall_mem_map]
    intro line hline
    have hne : line.toList ≠ [] :=
      fun hnil => (h line hline).nonempty (String.toList_eq_nil_iff.1 hnil)
    simp [hne, (h line hline).uncommented]

/-- One line to each of the lines, whether or not the last one is ended too. -/
def Lists (text : String) (lines : List String) : Prop :=
  text = "\n".intercalate lines ∨ text = "\n".intercalate lines ++ "\n"

theorem Lists.significantLines_eq {text : String} {lines : List String} (h : Lists text lines)
    (hlines : ∀ line ∈ lines, Significant line) : significantLines text = lines := by
  have hsignificant : significant text.toList = lines.map String.toList := by
    rcases h with rfl | rfl
    · exact significant_intercalate hlines
    · rw [String.toList_append]
      change significant (_ ++ '\n' :: []) = _
      rw [significant_append_lineFeed, significant_nil, List.append_nil,
        significant_intercalate hlines]
  rw [significantLines, hsignificant, List.map_map]
  simp [Function.comp_def]

end Source

end SecretEnv
