import SecretEnv.Proofs.Source.Cut

/-! Layout is no part of what a text says. Carriage returns, blanks around lines, blank lines and
comments may come and go wherever a line ends, and the text is read as before, as a source and as an
inline entry. -/
namespace SecretEnv.Source

open Text

/-- Blanks to stand around a line. A line feed is not one of them, because it would end the line. -/
structure Padding where
  text : List Char
  blanks : Blanks text
  single : '\n' ∉ text

structure SilentLine where
  text : List Char
  silent : Blanks text ∨ ∃ before comment, Blanks before ∧ text = before ++ '#' :: comment
  single : '\n' ∉ text

/-- One change of layout. Lines are numbered from zero. -/
inductive LayoutEdit where
  | returns
  | pad (line : Nat) (before after : Padding)
  | insert (line : Nat) (extra : SilentLine)

def joinLines (lines : List (List Char)) : List Char :=
  ['\n'].intercalate lines

def withReturns (text : List Char) : List Char :=
  text.flatMap fun c => if c = '\n' then ['\r', '\n'] else [c]

def LayoutEdit.apply (text : List Char) : LayoutEdit → List Char
  | returns => withReturns text
  | pad line before after =>
    joinLines ((text.splitOn '\n').modify line fun chars => before.text ++ chars ++ after.text)
  | insert line extra =>
    joinLines ((text.splitOn '\n').take line ++ extra.text :: (text.splitOn '\n').drop line)

def relaid (text : String) (edits : List LayoutEdit) : String :=
  .ofList (edits.foldl LayoutEdit.apply text.toList)

theorem significant_line {line : List Char} (h : '\n' ∉ line) :
    significant line = [trim line].filter fun line => line ≠ [] ∧ line.head? ≠ some '#' := by
  rw [significant, List.splitOn_eq_singleton h]
  rfl

@[simp] theorem joinLines_cons_cons (line next : List Char) (rest : List (List Char)) :
    joinLines (line :: next :: rest) = line ++ '\n' :: joinLines (next :: rest) := by
  simp [joinLines]

@[simp] theorem significant_joinLines (lines : List (List Char)) :
    significant (joinLines lines) = lines.flatMap significant := by
  induction lines with
  | nil => rfl
  | cons line rest ih =>
    cases rest with
    | nil => simp [joinLines]
    | cons next rest =>
      rw [joinLines_cons_cons, significant_append_lineFeed, ih]
      rfl

theorem significant_eq_flatMap (text : List Char) :
    significant text = (text.splitOn '\n').flatMap significant := by
  rw [← significant_joinLines, joinLines, List.intercalate_splitOn]

theorem Padding.significant_eq (before after : Padding) {line : List Char} (h : '\n' ∉ line) :
    significant (before.text ++ line ++ after.text) = significant line := by
  have hpadded : '\n' ∉ before.text ++ line ++ after.text := by
    simp [before.single, h, after.single]
  rw [significant_line hpadded, significant_line h, trim_pad before.blanks after.blanks]

@[simp] theorem SilentLine.significant_eq (line : SilentLine) : significant line.text = [] := by
  rw [significant_line line.single]
  rcases line.silent with hblank | ⟨before, comment, hbefore, htext⟩
  · simp [trim_eq_nil_iff.2 hblank]
  · have hhead : (trim line.text).head? = some '#' := by
      rw [htext]
      exact head?_trim hbefore (by decide)
    simp [hhead]

theorem withReturns_line {line : List Char} (h : '\n' ∉ line) : withReturns line = line := by
  rw [withReturns, ← List.flatMap_singleton' line, List.flatMap_assoc]
  apply List.flatMap_congr
  intro c hc
  have hne : c ≠ '\n' := fun heq => h (heq ▸ hc)
  simp [hne]

theorem withReturns_lineFeed (line rest : List Char) :
    withReturns (line ++ '\n' :: rest) =
      withReturns line ++ ['\r'] ++ '\n' :: withReturns rest := by
  simp [withReturns]

theorem significant_withReturns {lines : List (List Char)} (h : ∀ line ∈ lines, '\n' ∉ line) :
    significant (withReturns (joinLines lines)) = lines.flatMap significant := by
  induction lines with
  | nil => rfl
  | cons line rest ih =>
    obtain ⟨hline, hrest⟩ := List.forall_mem_cons.1 h
    cases rest with
    | nil => simp [joinLines, withReturns_line hline]
    | cons next rest =>
      -- A carriage return at the end of a line pads it.
      have hreturn : significant (line ++ ['\r']) = significant line :=
        Padding.significant_eq ⟨[], by decide, by decide⟩ ⟨['\r'], by decide, by decide⟩ hline
      rw [joinLines_cons_cons, withReturns_lineFeed, withReturns_line hline,
        significant_append_lineFeed, hreturn, ih hrest]
      rfl

theorem flatMap_modify {α β : Type} {f : α → List β} {g : α → α} {list : List α}
    (h : ∀ a ∈ list, f (g a) = f a) (i : Nat) : (list.modify i g).flatMap f = list.flatMap f := by
  induction list generalizing i with
  | nil => simp
  | cons a rest ih =>
    rw [List.forall_mem_cons] at h
    cases i with
    | zero => simp [h.1]
    | succ i => simp [ih h.2]

@[simp] theorem LayoutEdit.significant_apply (edit : LayoutEdit) (text : List Char) :
    significant (edit.apply text) = significant text := by
  have hsingle : ∀ line ∈ text.splitOn '\n', '\n' ∉ line := fun _ => not_mem_of_mem_splitOn
  rw [significant_eq_flatMap text]
  cases edit with
  | returns =>
    rw [← significant_withReturns hsingle, joinLines, List.intercalate_splitOn]
    rfl
  | pad line before after =>
    rw [LayoutEdit.apply, significant_joinLines]
    apply flatMap_modify
    intro chars hchars
    exact before.significant_eq after (hsingle chars hchars)
  | insert line extra =>
    rw [LayoutEdit.apply, significant_joinLines, List.flatMap_append, List.flatMap_cons,
      extra.significant_eq, List.nil_append, ← List.flatMap_append, List.take_append_drop]

@[simp] theorem significantLines_relaid (text : String) (edits : List LayoutEdit) :
    significantLines (relaid text edits) = significantLines text := by
  have hrun : significant (edits.foldl LayoutEdit.apply text.toList) = significant text.toList := by
    generalize text.toList = chars
    induction edits generalizing chars with
    | nil => rfl
    | cons edit rest ih => rw [List.foldl_cons, ih, edit.significant_apply]
  rw [significantLines, relaid, String.toList_ofList, hrun, significantLines]

theorem reading_congr {text other : String} (h : significantLines text = significantLines other) :
    parse text = parse other ∧ parseEntry text = parseEntry other := by
  have hparse : parse text = parse other := by rw [parse, parse, h]
  exact ⟨hparse, by rw [parseEntry, parseEntry, h, hparse]⟩

/-- Changes of layout, however many, leave what a text says as a source and as an entry, bindings
and errors alike. What readers see of a text are trimmed lines that are neither blank nor comments,
all of them where there are no others, and those of either text where two are joined. -/
theorem layout_is_unobservable :
    (∀ text edits, parse (relaid text edits) = parse text ∧
      parseEntry (relaid text edits) = parseEntry text) ∧
    (∀ text, ∀ line ∈ significantLines text, Significant line) ∧
    (∀ lines, (∀ line ∈ lines, Significant line) →
      significantLines ("\n".intercalate lines) = lines) ∧
    ∀ above below,
      significantLines (above ++ "\n" ++ below) =
        significantLines above ++ significantLines below := by
  refine ⟨?_, ?_, ?_, significantLines_append_lineFeed⟩
  · intro text edits
    exact reading_congr (significantLines_relaid text edits)
  · intro text line hline
    exact significant_of_mem hline
  · intro lines hlines
    have hlists : Lists ("\n".intercalate lines) lines := .inl rfl
    exact hlists.significantLines_eq hlines

example :
    relaid "A\nB='x'" [.pad 1 ⟨['\t'], by decide, by decide⟩ ⟨[], by decide, by decide⟩,
      .insert 1 ⟨[' ', '#', '!'], .inr ⟨[' '], ['!'], by decide, rfl⟩, by decide⟩, .returns] =
        "A\r\n #!\r\n\tB='x'" := by
  decide +kernel

end SecretEnv.Source
