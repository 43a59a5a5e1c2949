import SecretEnv.Proofs.Source.Lines
import SecretEnv.Proofs.Source.Meaning

/-! What reading a source can yield. The parts of an expression come from one line, except for its
section, which comes from a header above it; both are lines of one text, so nothing that is read
holds a line feed. -/
namespace SecretEnv

structure SectionName (name : String) : Prop where
  nonempty : name ≠ ""
  trimmed : Text.Trimmed name.toList
  unclosed : ']' ∉ name.toList
  single : '\n' ∉ name.toList

/-- An expression that some line says, in the section that it belongs to. -/
structure Expression.WellFormed (e : Expression) : Prop where
  key : Identifier.Spelling e.key.toList
  literal : ∀ text, e.rule = .literal text →
    text ≠ "" ∧ '\n' ∉ text.toList ∧ e.rule.item? = none
  reference : ∀ target item, e.rule = .reference target item → Identifier.Spelling target.toList
  item : ∀ name, e.rule.item? = some name → SectionName name

namespace Bindings

def WellFormed (bindings : Bindings) : Prop :=
  ∀ key e, bindings.get? key = some e → e.key = key ∧ e.WellFormed

def Unscoped (bindings : Bindings) : Prop :=
  ∀ key e, bindings.get? key = some e → e.rule.item? = none

theorem WellFormed.of_mem {bindings : Bindings} (h : bindings.WellFormed) {e : Expression}
    (he : e ∈ bindings.toList) : e.WellFormed :=
  (h e.key e (KeySorted.get?_eq_some_iff.2 ⟨he, rfl⟩)).2

theorem Unscoped.of_mem {bindings : Bindings} (h : bindings.Unscoped) {e : Expression}
    (he : e ∈ bindings.toList) : e.rule.item? = none :=
  h e.key e (KeySorted.get?_eq_some_iff.2 ⟨he, rfl⟩)

theorem wellFormed_empty : WellFormed .empty := by
  intro key e h
  cases h

theorem WellFormed.overlay {base upper : Bindings} (hbase : base.WellFormed)
    (hupper : upper.WellFormed) : WellFormed (base.overlay upper) := by
  intro key e h
  rw [KeySorted.get?_overlay, Option.or_eq_some_iff] at h
  rcases h with h | ⟨-, h⟩
  · exact hupper key e h
  · exact hbase key e h

end Bindings

namespace Line

theorem wellFormed_of_expression {line : String} {item : Option String} {e : Expression}
    (hline : '\n' ∉ line.toList) (hitem : ∀ name, item = some name → SectionName name)
    (h : expression line item = .ok e) : e.WellFormed := by
  obtain ⟨form, hspelled, hform⟩ := exists_form_of_expression h
  cases form with
  | literal key text =>
    cases hform
    obtain ⟨before, after, quote, hkey, -, -, -, htext, hchars⟩ := hspelled
    refine ⟨hkey, ?_, nofun, nofun⟩
    rintro _ ⟨⟩
    refine ⟨htext, ?_, rfl⟩
    intro hin
    exact hline (by simp [hchars, hin])
  | reference key target =>
    cases hform
    obtain ⟨before, after, hkey, -, -, htarget, -⟩ := hspelled
    refine ⟨hkey, nofun, ?_, hitem⟩
    rintro _ _ ⟨⟩
    exact htarget
  | shorthand key =>
    cases hform
    exact ⟨hspelled.1, nofun, nofun, hitem⟩
  | header name => cases hform
  | unnamedHeader => cases hform

theorem spelledBy_of_header? {line name : String} (h : header? line = some name) :
    (Form.header name).SpelledBy line := by
  apply section?_eq_name_iff.1
  unfold header? at h
  split at h
  · next found hsection => rw [hsection, h]
  · cases h

theorem sectionName_of_header? {line name : String} (hline : '\n' ∉ line.toList)
    (h : header? line = some name) : SectionName name := by
  obtain ⟨before, after, -, -, hname, hunclosed, htrimmed, hchars⟩ := spelledBy_of_header? h
  refine ⟨hname, htrimmed, hunclosed, ?_⟩
  intro hin
  exact hline (by simp [hchars, hin])

theorem startsSection_of_header? {line name : String} (h : header? line = some name) :
    Source.startsSection line = true := by
  obtain ⟨before, after, -, -, -, -, -, hchars⟩ := spelledBy_of_header? h
  rw [Source.startsSection, hchars, List.append_assoc, List.isPrefixOf_iff_prefix]
  exact List.prefix_append _ _

theorem not_startsSection_of_expression {line : String} {item : Option String} {e : Expression}
    (h : expression line item = .ok e) : Source.startsSection line = false := by
  obtain ⟨form, hspelled, hform⟩ := exists_form_of_expression h
  obtain ⟨first, tail, hletter, hline⟩ := hspelled.starts (Form.isExpression_iff.2 ⟨e, hform⟩)
  have hbracket : '[' ≠ first := by
    rintro rfl
    exact absurd hletter.isPart (by decide)
  simp [Source.startsSection, hline, sectionMark, List.isPrefixOf, hbracket]

end Line

namespace Source

theorem exists_header?_of_sectionBefore {lines : List String} {i : Nat} {name : String}
    (h : sectionBefore lines i = some name) : ∃ line ∈ lines, Line.header? line = some name := by
  obtain ⟨line, hline, hheader⟩ := List.mem_filterMap.1 (List.mem_of_getLast? h)
  exact ⟨line, List.mem_of_mem_take hline, hheader⟩

theorem exists_line_of_get? {lines : List String} {bindings : Bindings}
    (h : parseLines lines = .ok bindings) {key : String} {e : Expression}
    (he : bindings.get? key = some e) :
    e.key = key ∧ ∃ line ∈ lines, ∃ item, Line.expression line item = .ok e ∧
      ∀ name, item = some name → ∃ above ∈ lines, Line.header? above = some name := by
  obtain ⟨hkey, i, ⟨line, hline, hread⟩, -⟩ := ((meaning_parseLines lines).last bindings h key e).1 he
  exact ⟨hkey, line, List.mem_of_getElem? hline, _, hread,
    fun name hname => exists_header?_of_sectionBefore hname⟩

theorem wellFormed_parse {text : String} {bindings : Bindings} (h : parse text = .ok bindings) :
    bindings.WellFormed := by
  intro key e he
  obtain ⟨hkey, line, hline, item, hread, hitem⟩ := exists_line_of_get? h he
  refine ⟨hkey, Line.wellFormed_of_expression (significant_of_mem hline).single ?_ hread⟩
  intro name hname
  obtain ⟨above, habove, hheader⟩ := hitem name hname
  exact Line.sectionName_of_header? (significant_of_mem habove).single hheader

theorem parse_of_parseEntry {text : String} {bindings : Bindings}
    (h : parseEntry text = .ok bindings) :
    parse text = .ok bindings ∧ ∀ line ∈ significantLines text, startsSection line = false := by
  unfold parseEntry at h
  split at h
  · cases h
  · next hnone => exact ⟨h, by simpa using List.find?_eq_none.1 hnone⟩

theorem unscoped_parseEntry {text : String} {bindings : Bindings}
    (h : parseEntry text = .ok bindings) : bindings.Unscoped := by
  obtain ⟨hparse, hunsectioned⟩ := parse_of_parseEntry h
  intro key e he
  obtain ⟨-, line, -, item, hread, hitem⟩ := exists_line_of_get? hparse he
  -- Only a line that starts as headers do could open a section, and an entry has none.
  have hnone : item = none := by
    rw [Option.eq_none_iff_forall_ne_some]
    intro name hname
    obtain ⟨above, habove, hheader⟩ := hitem name hname
    have hstarts := Line.startsSection_of_header? hheader
    rw [hunsectioned above habove] at hstarts
    cases hstarts
  rw [Line.item?_of_expression hread, hnone, ite_self]

end Source

end SecretEnv
