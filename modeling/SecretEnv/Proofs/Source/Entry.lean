import SecretEnv.Proofs.Source.Cut
import SecretEnv.Proofs.Source.WellFormed

/-! Inline entries are sources without section headers. An entry is refused for the mark that
headers start with, before any header is read. Where the text is accepted the two tests agree; they
part where a line has the mark and is no header. -/
namespace SecretEnv

theorem Line.startsSection_of_isHeader {line : String} (h : IsHeader line) :
    Source.startsSection line = true := by
  rcases h with hunnamed | ⟨name, hnamed⟩
  · obtain ⟨-, blanks, -, hchars⟩ := section?_eq_error_iff.1 hunnamed
    rw [Source.startsSection, hchars, List.append_assoc, List.isPrefixOf_iff_prefix]
    exact List.prefix_append _ _
  · have hheader : header? line = some name := by rw [header?, hnamed]
    exact startsSection_of_header? hheader

namespace Source

/-- Reads a text as a source in which some lines are refused as headers, the first of them before
anything else is read. -/
def parseRefusing (refused : String → Bool) (text : String) : Except LineError Bindings :=
  match (significantLines text).find? refused with
  | some line => .error (.sectionInEntry line)
  | none => parse text

theorem parseEntry_eq (text : String) : parseEntry text = parseRefusing startsSection text := rfl

def parseHeaderless (text : String) : Except LineError Bindings :=
  parseRefusing (fun line => decide (Line.IsHeader line)) text

section Refusals

variable {refused other : String → Bool} {text line : String} {bindings : Bindings}

@[simp] theorem parseRefusing_eq_ok_iff :
    parseRefusing refused text = .ok bindings ↔
      parse text = .ok bindings ∧ ∀ line ∈ significantLines text, refused line = false := by
  unfold parseRefusing
  split
  · next line hfind =>
    refine ⟨nofun, ?_⟩
    intro h
    have hrefused := List.find?_some hfind
    rw [h.2 line (List.mem_of_find?_eq_some hfind)] at hrefused
    cases hrefused
  · next hfind =>
    have hnone : ∀ line ∈ significantLines text, refused line = false := by
      simpa using List.find?_eq_none.1 hfind
    exact ⟨fun h => ⟨h, hnone⟩, fun h => h.1⟩

theorem parse_ne_sectionInEntry (text line : String) :
    parse text ≠ .error (.sectionInEntry line) := by
  intro h
  obtain ⟨i, ⟨found, -, -, hfault⟩, -⟩ :=
    ((meaning_parseLines (significantLines text)).fails _).1 h
  rcases hfault with ⟨-, herror⟩ | ⟨-, herror⟩ <;> cases herror

theorem parseRefusing_eq_sectionInEntry_iff :
    parseRefusing refused text = .error (.sectionInEntry line) ↔
      (significantLines text).find? refused = some line := by
  unfold parseRefusing
  split
  · next found hfind => simp [hfind]
  · next hfind => simp [hfind, parse_ne_sectionInEntry]

theorem parseRefusing_eq_iff :
    parseRefusing refused text = parseRefusing other text ↔
      (significantLines text).find? refused = (significantLines text).find? other := by
  refine ⟨?_, ?_⟩
  · intro h
    apply Option.ext
    intro line
    rw [← parseRefusing_eq_sectionInEntry_iff, h, parseRefusing_eq_sectionInEntry_iff]
  · intro h
    rw [parseRefusing, parseRefusing, h]

theorem find?_eq_find?_iff_of_imp {lines : List String}
    (h : ∀ line, other line = true → refused line = true) :
    lines.find? refused = lines.find? other ↔
      ∀ line ∈ lines.find? refused, other line = true := by
  induction lines with
  | nil => simp
  | cons line rest ih =>
    rw [List.find?_cons, List.find?_cons]
    cases hrefused : refused line with
    | true =>
      cases hother : other line with
      | true => simp [hother]
      | false =>
        -- The other test goes on and cannot come back to a line that it does not take.
        simp only [Option.mem_def, Option.some.injEq, forall_eq', hother]
        refine ⟨?_, nofun⟩
        intro hfind
        rw [← List.find?_some hfind.symm, hother]
    | false =>
      have hother : other line = false := by
        rw [Bool.eq_false_iff]
        intro htrue
        rw [h line htrue] at hrefused
        cases hrefused
      rw [hother]
      exact ih

end Refusals

theorem isHeader_or_expression_of_parse {text : String} {bindings : Bindings}
    (h : parse text = .ok bindings) {line : String} (hline : line ∈ significantLines text) :
    Line.IsHeader line ∨ ∃ item e, Line.expression line item = .ok e := by
  obtain ⟨i, hi, hat⟩ := List.getElem_of_mem hline
  have hmeaning := meaning_parseLines (significantLines text)
  obtain ⟨found, hfound, hread⟩ := hmeaning.succeeds.1 ⟨bindings, h⟩ i hi
  rw [List.getElem?_eq_getElem hi, hat] at hfound
  cases hfound
  rcases hread with ⟨name, hname⟩ | ⟨e, he⟩
  · exact .inl (Line.isHeader_of_header? hname)
  · exact .inr ⟨_, e, he⟩

theorem startsSection_iff_isHeader_of_parse {text : String} {bindings : Bindings}
    (h : parse text = .ok bindings) {line : String} (hline : line ∈ significantLines text) :
    startsSection line = true ↔ Line.IsHeader line := by
  refine ⟨?_, Line.startsSection_of_isHeader⟩
  intro hmark
  rcases isHeader_or_expression_of_parse h hline with hheader | ⟨item, e, he⟩
  · exact hheader
  · rw [Line.not_startsSection_of_expression he] at hmark
    cases hmark

@[simp] theorem parseHeaderless_eq_ok_iff {text : String} {bindings : Bindings} :
    parseHeaderless text = .ok bindings ↔
      parse text = .ok bindings ∧ ∀ line ∈ significantLines text, ¬ Line.IsHeader line := by
  rw [parseHeaderless, parseRefusing_eq_ok_iff]
  simp only [decide_eq_false_iff_not]

@[simp] theorem parseEntry_eq_ok_iff {text : String} {bindings : Bindings} :
    parseEntry text = .ok bindings ↔
      parse text = .ok bindings ∧ ∀ line ∈ significantLines text, ¬ Line.IsHeader line := by
  rw [parseEntry_eq, parseRefusing_eq_ok_iff]
  apply and_congr_right
  intro hparse
  apply forall₂_congr
  intro line hline
  rw [← startsSection_iff_isHeader_of_parse hparse hline, Bool.not_eq_true]

/-- The texts that are accepted as entries are the sources without section headers. They say the
same as entries, and nothing of it belongs to a section. -/
theorem entries_are_headerless_sources (text : String) (bindings : Bindings) :
    (parseEntry text = .ok bindings ↔
      parse text = .ok bindings ∧ ∀ line ∈ significantLines text, ¬ Line.IsHeader line) ∧
    (parseEntry text = .ok bindings → ∀ e ∈ bindings.toList, e.rule.item? = none) := by
  refine ⟨parseEntry_eq_ok_iff, ?_⟩
  intro h e he
  exact (unscoped_parseEntry h).of_mem he

/-- An entry is answered like a source that may not open a section unless the first line with the
mark of a header is none. That line is refused as if it were one. The entries accepted are the same
in any case. -/
theorem entry_is_headerless_unless_mark_is_malformed (text : String) :
    (parseEntry text = parseHeaderless text ↔
      ∀ line ∈ (significantLines text).find? startsSection, Line.IsHeader line) ∧
    (∀ line, parseEntry text = .error (.sectionInEntry line) ↔
      (significantLines text).find? startsSection = some line) ∧
    ∀ bindings, parseEntry text = .ok bindings ↔ parseHeaderless text = .ok bindings := by
  have hmark : ∀ line, decide (Line.IsHeader line) = true → startsSection line = true :=
    fun _ hheader => Line.startsSection_of_isHeader (of_decide_eq_true hheader)
  refine ⟨?_, fun _ => parseRefusing_eq_sectionInEntry_iff, ?_⟩
  · rw [parseEntry_eq, parseHeaderless, parseRefusing_eq_iff, find?_eq_find?_iff_of_imp hmark]
    simp only [decide_eq_true_eq]
  · intro bindings
    rw [parseEntry_eq_ok_iff, parseHeaderless_eq_ok_iff]

/-- A bracket inside makes the line no header, and still it is refused as one. So is a line without
a closing bracket, and then the header below it is not the line reported. -/
theorem malformed_mark_is_refused_as_header :
    (∀ line ∈ significantLines "[item:a]b]", ¬ Line.IsHeader line) ∧
    parse "[item:a]b]" = .error (.malformed "[item:a]b]") ∧
    parseEntry "[item:a]b]" = .error (.sectionInEntry "[item:a]b]") ∧
    parseHeaderless "[item:a\n[item:b]" = .error (.sectionInEntry "[item:b]") ∧
    parseEntry "[item:a\n[item:b]" = .error (.sectionInEntry "[item:a") := by
  decide +kernel

end Source

end SecretEnv
