import SecretEnv.Text

/-! Trimming takes a text apart into blanks, a core and blanks, in one way only. The core is all
that a reader of trimmed text ever sees. -/
namespace SecretEnv.Text

/-- A run of blanks, the empty run included. -/
def Blanks (text : List Char) : Prop :=
  ∀ c ∈ text, isBlank c = true

def StartsBare (text : List Char) : Prop :=
  ∀ c ∈ text.head?, isBlank c = false

def EndsBare (text : List Char) : Prop :=
  ∀ c ∈ text.getLast?, isBlank c = false

/-- No blank stands at either end. -/
def Trimmed (text : List Char) : Prop :=
  StartsBare text ∧ EndsBare text

@[simp] theorem blanks_nil : Blanks [] := by
  simp [Blanks]

theorem Blanks.reverse {text : List Char} (h : Blanks text) : Blanks text.reverse :=
  fun c hc => h c (List.mem_reverse.1 hc)

theorem Blanks.append {front back : List Char} (hfront : Blanks front) (hback : Blanks back) :
    Blanks (front ++ back) :=
  List.forall_mem_append.2 ⟨hfront, hback⟩

@[simp] theorem startsBare_reverse {text : List Char} :
    StartsBare text.reverse ↔ EndsBare text := by
  simp [StartsBare, EndsBare]

@[simp] theorem startsBare_cons {c : Char} {rest : List Char} :
    StartsBare (c :: rest) ↔ isBlank c = false := by
  simp [StartsBare]

instance : DecidablePred Blanks := fun text =>
  decidable_of_iff (text.all isBlank = true) List.all_eq_true

instance : DecidablePred StartsBare
  | [] => .isTrue nofun
  | c :: _ => decidable_of_iff (isBlank c = false) startsBare_cons.symm

instance : DecidablePred EndsBare := fun text =>
  decidable_of_iff (StartsBare text.reverse) startsBare_reverse

instance : DecidablePred Trimmed := fun text =>
  inferInstanceAs (Decidable (StartsBare text ∧ EndsBare text))

theorem trimStart_append {blanks : List Char} (h : Blanks blanks) (rest : List Char) :
    trimStart (blanks ++ rest) = trimStart rest :=
  List.dropWhile_append_of_pos h

theorem trimStart_of_startsBare {text : List Char} (h : StartsBare text) :
    trimStart text = text := by
  cases text with
  | nil => rfl
  | cons c rest =>
    have hnot : isBlank c = false := startsBare_cons.1 h
    simp [trimStart, hnot]

theorem trimStart_eq_iff {text core : List Char} :
    trimStart text = core ↔ ∃ blanks, Blanks blanks ∧ text = blanks ++ core ∧ StartsBare core := by
  refine ⟨?_, ?_⟩
  · rintro rfl
    refine ⟨text.takeWhile isBlank, ?_, List.takeWhile_append_dropWhile.symm, ?_⟩
    · have hall : (text.takeWhile isBlank).all isBlank = true := List.all_takeWhile
      exact List.all_eq_true.1 hall
    · intro c hc
      have hhead := List.head?_dropWhile_not isBlank text
      have hc : (text.dropWhile isBlank).head? = some c := hc
      simpa [hc] using hhead
  · rintro ⟨blanks, hblanks, rfl, hcore⟩
    rw [trimStart_append hblanks, trimStart_of_startsBare hcore]

private theorem trimEnd_eq_reverse (text : List Char) :
    trimEnd text = (trimStart text.reverse).reverse := rfl

theorem trimEnd_eq_iff {text core : List Char} :
    trimEnd text = core ↔ ∃ blanks, Blanks blanks ∧ text = core ++ blanks ∧ EndsBare core := by
  rw [trimEnd_eq_reverse, List.reverse_eq_iff, trimStart_eq_iff]
  refine ⟨?_, ?_⟩
  · rintro ⟨blanks, hblanks, htext, hcore⟩
    refine ⟨blanks.reverse, hblanks.reverse, ?_, startsBare_reverse.1 hcore⟩
    rw [List.reverse_eq_iff] at htext
    rw [htext, List.reverse_append, List.reverse_reverse]
  · rintro ⟨blanks, hblanks, rfl, hcore⟩
    exact ⟨blanks.reverse, hblanks.reverse, List.reverse_append, startsBare_reverse.2 hcore⟩

/-- What trimming leaves is the core between blanks, and there is only one. -/
theorem trim_eq_iff {text core : List Char} :
    trim text = core ↔ ∃ before after, Blanks before ∧ Blanks after ∧
      text = before ++ core ++ after ∧ Trimmed core := by
  rw [trim, trimEnd_eq_iff]
  refine ⟨?_, ?_⟩
  · rintro ⟨after, hafter, htext, hends⟩
    obtain ⟨before, hbefore, hsplit, hstarts⟩ := trimStart_eq_iff.1 htext
    refine ⟨before, after, hbefore, hafter, by rw [hsplit, List.append_assoc], ?_, hends⟩
    cases core with
    | nil => simp [StartsBare]
    | cons c rest => exact startsBare_cons.2 (startsBare_cons.1 hstarts)
  · rintro ⟨before, after, hbefore, hafter, rfl, hstarts, hends⟩
    rw [List.append_assoc, trimStart_append hbefore]
    cases core with
    | nil =>
      -- Nothing but blanks: the front trimming has already taken all of them.
      refine ⟨[], blanks_nil, ?_, hends⟩
      refine trimStart_eq_iff.2 ⟨after, hafter, ?_, ?_⟩ <;> simp [StartsBare]
    | cons c rest =>
      refine ⟨after, hafter, ?_, hends⟩
      exact trimStart_of_startsBare (startsBare_cons.2 (startsBare_cons.1 hstarts))

def Padded (text core : List Char) : Prop :=
  ∃ before after, Blanks before ∧ Blanks after ∧ text = before ++ core ++ after

theorem trim_eq_iff_padded {text core : List Char} :
    trim text = core ↔ Padded text core ∧ Trimmed core := by
  rw [trim_eq_iff]
  refine ⟨?_, ?_⟩
  · rintro ⟨before, after, hbefore, hafter, hsplit, hcore⟩
    exact ⟨⟨before, after, hbefore, hafter, hsplit⟩, hcore⟩
  · rintro ⟨⟨before, after, hbefore, hafter, hsplit⟩, hcore⟩
    exact ⟨before, after, hbefore, hafter, hsplit, hcore⟩

@[simp] theorem trim_eq_nil_iff {text : List Char} : trim text = [] ↔ Blanks text := by
  rw [trim_eq_iff]
  refine ⟨?_, ?_⟩
  · rintro ⟨before, after, hbefore, hafter, rfl, -⟩ c hc
    simp only [List.append_nil, List.mem_append] at hc
    exact hc.elim (hbefore c) (hafter c)
  · intro h
    exact ⟨text, [], h, blanks_nil, by simp, by simp [StartsBare], by simp [EndsBare]⟩

theorem trim_pad {before after : List Char} (hbefore : Blanks before) (hafter : Blanks after)
    (text : List Char) : trim (before ++ text ++ after) = trim text := by
  obtain ⟨front, back, hfront, hback, hsplit, htrimmed⟩ :=
    trim_eq_iff.1 (rfl : trim text = trim text)
  generalize trim text = core at hsplit htrimmed ⊢
  subst hsplit
  exact trim_eq_iff.2 ⟨before ++ front, back ++ after, hbefore.append hfront, hback.append hafter,
    by simp only [List.append_assoc], htrimmed⟩

theorem trim_isInfix (text : List Char) : trim text <:+: text := by
  obtain ⟨before, after, -, -, hsplit, -⟩ := trim_eq_iff.1 (rfl : trim text = trim text)
  exact ⟨before, after, hsplit.symm⟩

theorem head?_trim {before rest : List Char} {c : Char} (hbefore : Blanks before)
    (hc : isBlank c = false) : (trim (before ++ c :: rest)).head? = some c := by
  rw [trim, trimStart_append hbefore, trimStart_of_startsBare (startsBare_cons.2 hc)]
  obtain ⟨blanks, hblanks, hsplit, -⟩ :=
    trimEnd_eq_iff.1 (rfl : trimEnd (c :: rest) = trimEnd (c :: rest))
  cases hcore : trimEnd (c :: rest) with
  | nil =>
    rw [hcore, List.nil_append] at hsplit
    have hblank := hblanks c (by simp [← hsplit])
    rw [hc] at hblank
    cases hblank
  | cons first others =>
    rw [hcore, List.cons_append] at hsplit
    rw [(List.cons.inj hsplit).1]
    rfl

@[simp] theorem occurs_iff {part text : List Char} : occurs part text = true ↔ part <:+: text := by
  induction text with
  | nil => simp [occurs]
  | cons c rest ih => rw [occurs, Bool.or_eq_true, List.isPrefixOf_iff_prefix, ih, List.infix_cons_iff]

theorem infix_of_blanks_append {part before rest : List Char} (hne : part ≠ [])
    (hpart : StartsBare part) (hbefore : Blanks before) (h : part <:+: before ++ rest) :
    part <:+: rest := by
  induction before with
  | nil => exact h
  | cons c before ih =>
    have hblanks := List.forall_mem_cons.1 hbefore
    rw [List.cons_append, List.infix_cons_iff] at h
    rcases h with hprefix | hinfix
    · -- The part would begin with the blank.
      obtain ⟨first, others, rfl⟩ := List.exists_cons_of_ne_nil hne
      have hbare := startsBare_cons.1 hpart
      rw [(List.cons_prefix_cons.1 hprefix).1, hblanks.1] at hbare
      cases hbare
    · exact ih hblanks.2 hinfix

theorem infix_trim {part text : List Char} (hne : part ≠ []) (hpart : Trimmed part)
    (h : part <:+: text) : part <:+: trim text := by
  obtain ⟨before, after, hbefore, hafter, hsplit, -⟩ := trim_eq_iff.1 (rfl : trim text = trim text)
  rw [hsplit, List.append_assoc] at h
  have hfront := infix_of_blanks_append hne hpart.1 hbefore h
  rw [← List.reverse_infix, List.reverse_append] at hfront
  rw [← List.reverse_infix]
  exact infix_of_blanks_append (by simpa using hne) (startsBare_reverse.2 hpart.2)
    hafter.reverse hfront

end SecretEnv.Text
