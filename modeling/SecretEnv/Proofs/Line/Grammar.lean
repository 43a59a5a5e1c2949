import SecretEnv.Proofs.Line.Form

/-! Reading a line finds the one form in which it is written. Each reader is characterized by the
forms that it accepts, a line has at most one form, and what has none is reported unchanged. -/
namespace SecretEnv.Line

open Text Identifier

@[simp] theorem headerBody?_eq_some_iff {line body : List Char} :
    headerBody? line = some body ↔ line = sectionMark ++ body ++ [']'] ∧ ']' ∉ body := by
  unfold headerBody?
  refine ⟨?_, ?_⟩
  · intro h
    split at h
    · next hmark =>
      obtain ⟨rest, rfl⟩ := List.isPrefixOf_iff_prefix.1 hmark
      simp only [List.drop_left] at h
      split at h
      · next hlast =>
        cases h
        obtain ⟨front, rfl⟩ := List.getLast?_eq_some_iff.1 hlast.1
        simpa using hlast.2
      · cases h
    · cases h
  · rintro ⟨rfl, hbody⟩
    have hmark : sectionMark.isPrefixOf (sectionMark ++ body ++ [']']) = true := by
      rw [List.isPrefixOf_iff_prefix, List.append_assoc]
      exact List.prefix_append _ _
    rw [if_pos hmark, List.append_assoc, List.drop_left]
    simp [hbody]

private theorem Blanks.bracket_not_mem {blanks : List Char} (h : Blanks blanks) : ']' ∉ blanks := by
  intro hin
  have hblank := h ']' hin
  revert hblank
  decide

@[simp] theorem section?_eq_name_iff {line name : String} :
    Line.section? line = .ok (some name) ↔ (Form.header name).SpelledBy line := by
  refine ⟨?_, ?_⟩
  · intro h
    unfold section? at h
    split at h
    · cases h
    · next body hbody =>
      obtain ⟨hline, hbracket⟩ := headerBody?_eq_some_iff.1 hbody
      split at h
      · cases h
      · next hnamed =>
        cases h
        obtain ⟨before, after, hbefore, hafter, hsplit, htrimmed⟩ :=
          trim_eq_iff.1 (rfl : trim body = trim body)
        refine ⟨before, after, hbefore, hafter, ?_, ?_, ?_, ?_⟩
        · rwa [ne_eq, ← String.toList_eq_nil_iff, String.toList_ofList]
        · rw [String.toList_ofList]
          intro hin
          rw [hsplit] at hbracket
          exact hbracket (by simp [hin])
        · rw [String.toList_ofList]
          exact htrimmed
        · rw [String.toList_ofList, ← hsplit, hline]
  · rintro ⟨before, after, hbefore, hafter, hnamed, hbracket, htrimmed, hline⟩
    have hbody : headerBody? line.toList = some (before ++ name.toList ++ after) := by
      refine headerBody?_eq_some_iff.2 ⟨hline, ?_⟩
      simp [Blanks.bracket_not_mem hbefore, hbracket, Blanks.bracket_not_mem hafter]
    have htrim : trim (before ++ name.toList ++ after) = name.toList :=
      trim_eq_iff.2 ⟨before, after, hbefore, hafter, rfl, htrimmed⟩
    have hne : name.toList ≠ [] := fun hnil => hnamed (String.toList_eq_nil_iff.1 hnil)
    rw [Line.section?, hbody]
    simp only [htrim, hne, if_false, String.ofList_toList]

@[simp] theorem section?_eq_error_iff {line : String} {error : LineError} :
    Line.section? line = .error error ↔
      error = .unnamedSection ∧ Form.unnamedHeader.SpelledBy line := by
  refine ⟨?_, ?_⟩
  · intro h
    unfold section? at h
    split at h
    · cases h
    · next body hbody =>
      obtain ⟨hline, -⟩ := headerBody?_eq_some_iff.1 hbody
      split at h
      · next hblank =>
        cases h
        exact ⟨rfl, body, trim_eq_nil_iff.1 hblank, hline⟩
      · cases h
  · rintro ⟨rfl, blanks, hblanks, hline⟩
    have hbody : headerBody? line.toList = some blanks :=
      headerBody?_eq_some_iff.2 ⟨hline, Blanks.bracket_not_mem hblanks⟩
    simp [section?, hbody, trim_eq_nil_iff.2 hblanks]

@[simp] theorem quoted?_eq_some_iff {right text : List Char} :
    quoted? right = some text ↔ ∃ quote, (quote = '\x22' ∨ quote = '\x27') ∧ text ≠ [] ∧
      right = quote :: (text ++ [quote]) := by
  have hquote (c : Char) : isQuote c = true ↔ c = '\x22' ∨ c = '\x27' := by simp [isQuote]
  refine ⟨?_, ?_⟩
  · intro h
    cases right with
    | nil => cases h
    | cons quote rest =>
      simp only [quoted?] at h
      split at h
      · next hends =>
        obtain ⟨hmark, hlast, htext⟩ := hends
        obtain ⟨front, rfl⟩ := List.getLast?_eq_some_iff.1 hlast
        cases h
        rw [List.dropLast_concat] at htext ⊢
        exact ⟨quote, (hquote quote).1 hmark, htext, rfl⟩
      · cases h
  · rintro ⟨quote, hmark, htext, rfl⟩
    simp [quoted?, (hquote quote).2 hmark, htext]

private theorem quoted?_of_spelling {right : List Char} (h : Spelling right) :
    quoted? right = none := by
  cases hq : quoted? right with
  | none => rfl
  | some text =>
    obtain ⟨quote, hmark, -, hright⟩ := quoted?_eq_some_iff.1 hq
    have hpart : isPart quote = true := h.isPart_of_mem (by simp [hright])
    rcases hmark with rfl | rfl <;> exact absurd hpart (by decide)

theorem expression_of_not_mem {line : String} (h : '=' ∉ line.toList) (item : Option String) :
    expression line item =
      if spelledBy line.toList then .ok ⟨line, .shorthand item⟩ else .error (.malformed line) := by
  have hall : ∀ c ∈ line.toList, (c != '=') = true := by
    intro c hc
    have hne : c ≠ '=' := fun heq => h (heq ▸ hc)
    simpa using hne
  have hdrop : line.toList.dropWhile (· != '=') = [] := by
    rw [← List.append_nil line.toList, List.dropWhile_append_of_pos hall]
    rfl
  simp [expression, hdrop]

/-- The first equals sign divides a line, and its two sides are read apart from each other. -/
theorem expression_of_split {line : String} {left rest : List Char}
    (hline : line.toList = left ++ '=' :: rest) (hleft : '=' ∉ left) (item : Option String) :
    expression line item =
      if spelledBy (trimEnd left) then
        match quoted? (trimStart rest) with
        | some text => .ok ⟨String.ofList (trimEnd left), .literal (String.ofList text)⟩
        | none =>
          if spelledBy (trimStart rest) then
            .ok ⟨String.ofList (trimEnd left), .reference (String.ofList (trimStart rest)) item⟩
          else .error (.malformed line)
      else .error (.malformed line) := by
  have hall : ∀ c ∈ left, (c != '=') = true := by
    intro c hc
    have hne : c ≠ '=' := fun heq => hleft (heq ▸ hc)
    simpa using hne
  have htake : line.toList.takeWhile (· != '=') = left := by
    rw [hline, List.takeWhile_append_of_pos hall]
    simp
  have hdrop : line.toList.dropWhile (· != '=') = '=' :: rest := by
    rw [hline, List.dropWhile_append_of_pos hall]
    simp
  unfold expression
  simp only [htake]
  generalize line.toList.dropWhile (· != '=') = tail at hdrop ⊢
  subst hdrop
  rfl

def Form.expression (line : String) (item : Option String) : Form → Except LineError Expression
  | literal key text => .ok ⟨key, .literal text⟩
  | reference key target => .ok ⟨key, .reference target item⟩
  | shorthand key => .ok ⟨key, .shorthand item⟩
  | header _ => .error (.malformed line)
  | unnamedHeader => .error (.malformed line)

def Form.opens : Form → Except LineError (Option String)
  | literal _ _ => .ok none
  | reference _ _ => .ok none
  | shorthand _ => .ok none
  | header name => .ok (some name)
  | unnamedHeader => .error .unnamedSection

theorem Form.isExpression_iff {form : Form} {line : String} {item : Option String} :
    form.IsExpression ↔ ∃ e, form.expression line item = .ok e := by
  cases form <;> simp [IsExpression, Form.expression]

theorem Form.opens_of_isExpression {form : Form} (h : form.IsExpression) :
    form.opens = .ok none := by
  cases form <;> first | rfl | exact h.elim

private theorem equals_not_mem {key before : List Char} (hkey : Spelling key)
    (hbefore : Blanks before) : '=' ∉ key ++ before := by
  intro hin
  rcases List.mem_append.1 hin with hin | hin
  · exact hkey.not_mem (by decide) hin
  · exact absurd (hbefore '=' hin) (by decide)

private theorem trimEnd_key {key before : List Char} (hkey : Spelling key)
    (hbefore : Blanks before) : trimEnd (key ++ before) = key :=
  trimEnd_eq_iff.2 ⟨before, hbefore, rfl, hkey.trimmed.2⟩

private theorem expression_of_bracket {line : String} {tail : List Char}
    (hline : line.toList = '[' :: tail) (item : Option String) :
    expression line item = .error (.malformed line) := by
  by_cases hin : '=' ∈ line.toList
  · obtain ⟨left, rest, hsplit, hleft⟩ := List.eq_append_cons_of_mem hin
    have hkey : spelledBy (trimEnd left) = false := by
      rw [Bool.eq_false_iff, ne_eq, spelledBy_iff]
      rintro ⟨first, others, hfirst, hletter, -⟩
      obtain ⟨blanks, -, hcore, -⟩ := trimEnd_eq_iff.1 (rfl : trimEnd left = trimEnd left)
      rw [hsplit, hcore, hfirst] at hline
      have hbracket : first = '[' := (List.cons.inj hline).1
      have hpart : isPart '[' = true := hbracket ▸ hletter.isPart
      exact absurd hpart (by decide)
    simp [expression_of_split hsplit hleft, hkey]
  · have hname : spelledBy line.toList = false := by
      simp [hline, spelledBy, isStart]
    simp [expression_of_not_mem hin, hname]

theorem Form.SpelledBy.expression_eq {form : Form} {line : String} (h : form.SpelledBy line)
    (item : Option String) : Line.expression line item = form.expression line item := by
  cases form with
  | literal key text =>
    obtain ⟨before, after, quote, hkey, hbefore, hafter, hquote, htext, hline⟩ := h
    have hblank : isBlank quote = false := by rcases hquote with rfl | rfl <;> decide
    have hright : trimStart (after ++ quote :: (text.toList ++ [quote])) =
        quote :: (text.toList ++ [quote]) := by
      rw [trimStart_append hafter, trimStart_of_startsBare (startsBare_cons.2 hblank)]
    have hquoted : quoted? (quote :: (text.toList ++ [quote])) = some text.toList :=
      quoted?_eq_some_iff.2 ⟨quote, hquote, fun hnil => htext (String.toList_eq_nil_iff.1 hnil), rfl⟩
    rw [expression_of_split hline (equals_not_mem hkey hbefore), trimEnd_key hkey hbefore, hright,
      hquoted, if_pos (spelledBy_iff.2 hkey)]
    simp [Form.expression]
  | reference key target =>
    obtain ⟨before, after, hkey, hbefore, hafter, htarget, hline⟩ := h
    have hright : trimStart (after ++ target.toList) = target.toList := by
      rw [trimStart_append hafter, trimStart_of_startsBare htarget.trimmed.1]
    rw [expression_of_split hline (equals_not_mem hkey hbefore), trimEnd_key hkey hbefore, hright,
      quoted?_of_spelling htarget, if_pos (spelledBy_iff.2 hkey)]
    simp [Form.expression, spelledBy_iff.2 htarget]
  | shorthand key =>
    obtain ⟨hkey, rfl⟩ := h
    rw [expression_of_not_mem (hkey.not_mem (by decide)), if_pos (spelledBy_iff.2 hkey)]
    rfl
  | header name =>
    obtain ⟨before, after, -, -, -, -, -, hline⟩ := h
    exact expression_of_bracket hline item
  | unnamedHeader =>
    obtain ⟨blanks, -, hline⟩ := h
    exact expression_of_bracket hline item

private theorem headerBody?_of_letter {line tail : List Char} {first : Char} (hfirst : Letter first)
    (hline : line = first :: tail) : headerBody? line = none := by
  cases hbody : headerBody? line with
  | none => rfl
  | some body =>
    obtain ⟨hmark, -⟩ := headerBody?_eq_some_iff.1 hbody
    rw [hline] at hmark
    have hbracket : first = '[' := (List.cons.inj hmark).1
    have hpart : isPart '[' = true := hbracket ▸ hfirst.isPart
    exact absurd hpart (by decide)

theorem Form.SpelledBy.starts {form : Form} {line : String} (h : form.SpelledBy line)
    (hform : form.IsExpression) : ∃ first tail, Letter first ∧ line.toList = first :: tail := by
  cases form with
  | literal key text =>
    obtain ⟨before, after, quote, ⟨first, others, hkey, hletter, -⟩, -, -, -, -, hline⟩ := h
    exact ⟨first, _, hletter, by rw [hline, hkey]; rfl⟩
  | reference key target =>
    obtain ⟨before, after, ⟨first, others, hkey, hletter, -⟩, -, -, -, hline⟩ := h
    exact ⟨first, _, hletter, by rw [hline, hkey]; rfl⟩
  | shorthand key =>
    obtain ⟨⟨first, others, hkey, hletter, -⟩, rfl⟩ := h
    exact ⟨first, others, hletter, hkey⟩
  | header name => exact hform.elim
  | unnamedHeader => exact hform.elim

theorem Form.SpelledBy.section?_eq {form : Form} {line : String} (h : form.SpelledBy line) :
    Line.section? line = form.opens := by
  by_cases hform : form.IsExpression
  · obtain ⟨first, tail, hfirst, hline⟩ := h.starts hform
    rw [Line.section?, headerBody?_of_letter hfirst hline, Form.opens_of_isExpression hform]
  · cases form with
    | header name => exact section?_eq_name_iff.2 h
    | unnamedHeader => exact section?_eq_error_iff.2 ⟨rfl, h⟩
    | _ => exact absurd trivial hform

/-- What the readers make of a form tells it from every other one, so a line has one form only. -/
theorem Form.SpelledBy.unique {form other : Form} {line : String} (h : form.SpelledBy line)
    (hother : other.SpelledBy line) : form = other := by
  have hread : form.expression line none = other.expression line none := by
    rw [← h.expression_eq, ← hother.expression_eq]
  have hopens : form.opens = other.opens := by
    rw [← h.section?_eq, ← hother.section?_eq]
  cases form <;> cases other <;> simp_all [Form.expression, Form.opens]

theorem error_of_expression {line : String} {item : Option String} {error : LineError}
    (h : expression line item = .error error) : error = .malformed line := by
  unfold expression at h
  simp only at h
  split at h
  · split at h <;> cases h
    rfl
  · split at h
    · split at h
      · cases h
      · split at h <;> cases h
        rfl
    · cases h
      rfl

theorem exists_form_of_expression {line : String} {item : Option String} {e : Expression}
    (h : expression line item = .ok e) :
    ∃ form : Form, form.SpelledBy line ∧ form.expression line item = .ok e := by
  by_cases hin : '=' ∈ line.toList
  · obtain ⟨left, rest, hsplit, hleft⟩ := List.eq_append_cons_of_mem hin
    rw [expression_of_split hsplit hleft] at h
    obtain ⟨before, hbefore, hkeyed, -⟩ := trimEnd_eq_iff.1 (rfl : trimEnd left = trimEnd left)
    obtain ⟨after, hafter, hright, -⟩ := trimStart_eq_iff.1 (rfl : trimStart rest = trimStart rest)
    generalize trimEnd left = key at h hkeyed
    generalize trimStart rest = right at h hright
    have hline : line.toList = key ++ before ++ '=' :: (after ++ right) := by
      rw [hsplit, hkeyed, hright]
    split at h
    · next hkey =>
      rw [spelledBy_iff] at hkey
      split at h
      · next text hquoted =>
        obtain ⟨quote, hquote, htext, rfl⟩ := quoted?_eq_some_iff.1 hquoted
        refine ⟨.literal (String.ofList key) (String.ofList text), ?_, h⟩
        refine ⟨before, after, quote, by simpa using hkey, hbefore, hafter, hquote, ?_, ?_⟩
        · rwa [ne_eq, ← String.toList_eq_nil_iff, String.toList_ofList]
        · simpa using hline
      · split at h
        · next htarget =>
          rw [spelledBy_iff] at htarget
          refine ⟨.reference (String.ofList key) (String.ofList right), ?_, h⟩
          exact ⟨before, after, by simpa using hkey, hbefore, hafter, by simpa using htarget,
            by simpa using hline⟩
        · cases h
    · cases h
  · rw [expression_of_not_mem hin] at h
    split at h
    · next hkey => exact ⟨.shorthand line, ⟨spelledBy_iff.1 hkey, rfl⟩, h⟩
    · cases h

theorem expression_eq_ok_iff {line : String} {item : Option String} {e : Expression} :
    expression line item = .ok e ↔
      ∃ form : Form, form.SpelledBy line ∧ form.expression line item = .ok e := by
  refine ⟨?_, ?_⟩
  · exact exists_form_of_expression
  · rintro ⟨form, hspelled, hform⟩
    rw [hspelled.expression_eq, hform]

theorem section?_of_expression {line : String} {item : Option String} {e : Expression}
    (h : expression line item = .ok e) : Line.section? line = .ok none := by
  obtain ⟨form, hspelled, hform⟩ := exists_form_of_expression h
  rw [hspelled.section?_eq, Form.opens_of_isExpression (Form.isExpression_iff.2 ⟨e, hform⟩)]

theorem item?_of_expression {line : String} {item : Option String} {e : Expression}
    (h : expression line item = .ok e) :
    e.rule.item? = if e.isLiteral then none else item := by
  obtain ⟨form, -, hform⟩ := exists_form_of_expression h
  cases form <;> cases hform <;> rfl

@[simp] theorem expression_eq_literal_iff {line key text : String} {item : Option String} :
    expression line item = .ok ⟨key, .literal text⟩ ↔ (Form.literal key text).SpelledBy line := by
  rw [expression_eq_ok_iff]
  refine ⟨?_, fun h => ⟨_, h, rfl⟩⟩
  intro h
  obtain ⟨form, hspelled, hform⟩ := h
  cases form <;> cases hform
  exact hspelled

@[simp] theorem expression_eq_reference_iff {line key target : String}
    {item scope : Option String} :
    expression line item = .ok ⟨key, .reference target scope⟩ ↔
      scope = item ∧ (Form.reference key target).SpelledBy line := by
  rw [expression_eq_ok_iff]
  refine ⟨?_, fun h => ⟨_, h.2, by rw [h.1]; rfl⟩⟩
  intro h
  obtain ⟨form, hspelled, hform⟩ := h
  cases form <;> cases hform
  exact ⟨rfl, hspelled⟩

@[simp] theorem expression_eq_shorthand_iff {line key : String} {item scope : Option String} :
    expression line item = .ok ⟨key, .shorthand scope⟩ ↔
      scope = item ∧ (Form.shorthand key).SpelledBy line := by
  rw [expression_eq_ok_iff]
  refine ⟨?_, fun h => ⟨_, h.2, by rw [h.1]; rfl⟩⟩
  intro h
  obtain ⟨form, hspelled, hform⟩ := h
  cases form <;> cases hform
  exact ⟨rfl, hspelled⟩

theorem expression_eq_error_iff {line : String} {item : Option String} {error : LineError} :
    expression line item = .error error ↔
      error = .malformed line ∧ ∀ form : Form, form.SpelledBy line → ¬ form.IsExpression := by
  refine ⟨?_, ?_⟩
  · intro h
    refine ⟨error_of_expression h, ?_⟩
    intro form hspelled hform
    obtain ⟨e, he⟩ := Form.isExpression_iff.1 hform
    rw [hspelled.expression_eq, he] at h
    cases h
  · intro h
    obtain ⟨rfl, hnone⟩ := h
    cases h : expression line item with
    | error error => rw [error_of_expression h]
    | ok e =>
      obtain ⟨form, hspelled, hform⟩ := exists_form_of_expression h
      exact absurd (Form.isExpression_iff.2 ⟨e, hform⟩) (hnone form hspelled)

/-- The readers of a line accept exactly the written forms and tell all of them apart. -/
theorem readers_accept_forms (line : String) (item : Option String) :
    (∀ key text, expression line item = .ok ⟨key, .literal text⟩ ↔
      (Form.literal key text).SpelledBy line) ∧
    (∀ key target scope, expression line item = .ok ⟨key, .reference target scope⟩ ↔
      scope = item ∧ (Form.reference key target).SpelledBy line) ∧
    (∀ key scope, expression line item = .ok ⟨key, .shorthand scope⟩ ↔
      scope = item ∧ (Form.shorthand key).SpelledBy line) ∧
    (∀ e, expression line item = .ok e → e.rule.item? = if e.isLiteral then none else item) ∧
    (∀ error, expression line item = .error error ↔
      error = .malformed line ∧ ∀ form : Form, form.SpelledBy line → ¬ form.IsExpression) ∧
    (∀ name, Line.section? line = .ok (some name) ↔ (Form.header name).SpelledBy line) ∧
    (∀ error, Line.section? line = .error error ↔
      error = .unnamedSection ∧ Form.unnamedHeader.SpelledBy line) ∧
    (∀ e, expression line item = .ok e → Line.section? line = .ok none) ∧
    (∀ form other : Form, form.SpelledBy line → other.SpelledBy line → form = other) :=
  ⟨fun _ _ => expression_eq_literal_iff, fun _ _ _ => expression_eq_reference_iff,
    fun _ _ => expression_eq_shorthand_iff, fun _ => item?_of_expression,
    fun _ => expression_eq_error_iff, fun _ => section?_eq_name_iff,
    fun _ => section?_eq_error_iff, fun _ => section?_of_expression,
    fun _ _ => Form.SpelledBy.unique⟩

example : expression "K='''" none = .ok ⟨"K", .literal "'"⟩ := rfl

end SecretEnv.Line
