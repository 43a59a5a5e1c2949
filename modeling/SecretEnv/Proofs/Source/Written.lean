import Mathlib.Data.List.Dedup
import Mathlib.Data.List.Nodup
import SecretEnv.Proofs.Source.WellFormed

/-! Writing bindings down. What belongs to no section comes first, because nothing but a header ends
a section; then every section follows with its lookups. Whatever a literal or the name of a section
holds, the lines are split, trimmed, filtered and read back as they were written. -/
namespace SecretEnv

open Text

def Expression.line (quote : Char) (e : Expression) : String :=
  match e.rule with
  | .literal text => .ofList (e.key.toList ++ '=' :: quote :: (text.toList ++ [quote]))
  | .reference target _ => .ofList (e.key.toList ++ '=' :: target.toList)
  | .shorthand _ => e.key

/-- A literal may be put in either quotes, also if it holds them. -/
def Expression.SaidBy (e : Expression) (line : String) : Prop :=
  ∃ quote, (quote = '\x22' ∨ quote = '\x27') ∧ line = e.line quote

def SectionName.header (name : String) : String :=
  .ofList (Line.sectionMark ++ name.toList ++ [']'])

def SaysAll (item : Option String) (expressions : List Expression) (lines : List String) : Prop :=
  List.Forall₂ Expression.SaidBy expressions lines ∧ ∀ e ∈ expressions, e.rule.item? = item

/-- Sections one after the other, each with its header. -/
inductive SaysSections : List Expression → List String → Prop where
  | done : SaysSections [] []
  | next {name : String} {expressions others : List Expression} {lines more : List String}
      (nonempty : expressions ≠ []) (block : SaysAll (some name) expressions lines)
      (rest : SaysSections others more) :
      SaysSections (expressions ++ others) (SectionName.header name :: (lines ++ more))

/-- The text says the bindings, in any order that puts the sections last. -/
def Bindings.WrittenAs (bindings : Bindings) (text : String) : Prop :=
  ∃ top sectioned lines more, SaysAll none top lines ∧ SaysSections sectioned more ∧
    (top ++ sectioned).Perm bindings.toList ∧ Source.Lists text (lines ++ more)

theorem SaysAll.exists_of_mem {item : Option String} {expressions : List Expression}
    {lines : List String} {line : String} (h : SaysAll item expressions lines)
    (hline : line ∈ lines) : ∃ e ∈ expressions, e.SaidBy line := by
  obtain ⟨i, hi, rfl⟩ := List.mem_iff_getElem.1 hline
  have hlength := h.1.length_eq
  exact ⟨expressions[i], List.getElem_mem _, h.1.get (by omega) hi⟩

theorem SaysAll.sectionName {name : String} {expressions : List Expression} {lines : List String}
    (h : SaysAll (some name) expressions lines) (hnonempty : expressions ≠ [])
    (hwf : ∀ e ∈ expressions, e.WellFormed) : SectionName name := by
  obtain ⟨e, he⟩ := List.exists_mem_of_ne_nil expressions hnonempty
  exact (hwf e he).item name (h.2 e he)

theorem Source.Significant.of_ends {line : String} {first last : Char}
    (hfirst : line.toList.head? = some first) (hlast : line.toList.getLast? = some last)
    (hbare : isBlank first = false ∧ isBlank last = false) (hcomment : first ≠ '#')
    (hsingle : '\n' ∉ line.toList) : Significant line := by
  refine ⟨?_, ⟨?_, ?_⟩, hsingle, ?_⟩
  · -- The empty text has no first character.
    rintro rfl
    cases hfirst
  · intro c hc
    cases hfirst.symm.trans hc
    exact hbare.1
  · intro c hc
    cases hlast.symm.trans hc
    exact hbare.2
  · rw [hfirst]
    simpa using hcomment

theorem Identifier.Spelling.lineFeed_not_mem {name : List Char} (h : Spelling name) :
    '\n' ∉ name :=
  h.not_mem (by decide)

theorem Identifier.Spelling.ends {name : List Char} (h : Spelling name) :
    ∃ last, name.getLast? = some last ∧ isBlank last = false := by
  have hne : name ≠ [] := by
    obtain ⟨first, rest, rfl, -⟩ := h
    exact List.cons_ne_nil _ _
  refine ⟨name.getLast hne, List.getLast?_eq_some_getLast hne, ?_⟩
  exact isBlank_of_isPart (h.isPart_of_mem (List.getLast_mem hne))

theorem Identifier.Letter.ne {c other : Char} (h : Letter c)
    (hother : Identifier.isPart other = false) : c ≠ other := by
  rintro rfl
  rw [h.isPart] at hother
  cases hother

namespace Expression.SaidBy

variable {e : Expression} {line : String}

theorem expression_eq (h : e.SaidBy line) (hwf : e.WellFormed) :
    Line.expression line e.rule.item? = .ok e := by
  obtain ⟨quote, hquote, rfl⟩ := h
  obtain ⟨key, rule⟩ := e
  cases rule with
  | literal text =>
    apply Line.expression_eq_literal_iff.2
    exact ⟨[], [], quote, hwf.key, blanks_nil, blanks_nil, hquote, (hwf.literal text rfl).1,
      by simp [Expression.line]⟩
  | reference target item =>
    apply Line.expression_eq_reference_iff.2
    exact ⟨rfl, [], [], hwf.key, blanks_nil, blanks_nil, hwf.reference target item rfl,
      by simp [Expression.line]⟩
  | shorthand item => exact Line.expression_eq_shorthand_iff.2 ⟨rfl, hwf.key, rfl⟩

theorem starts (h : e.SaidBy line) (hwf : e.WellFormed) :
    ∃ first tail, Identifier.Letter first ∧ line.toList = first :: tail := by
  obtain ⟨quote, hquote, rfl⟩ := h
  obtain ⟨first, rest, hkey, hletter, -⟩ := hwf.key
  refine ⟨first, ?_⟩
  unfold Expression.line
  split <;> simp [hkey, hletter]

theorem ends (h : e.SaidBy line) (hwf : e.WellFormed) :
    ∃ last, line.toList.getLast? = some last ∧ isBlank last = false := by
  obtain ⟨quote, hquote, rfl⟩ := h
  obtain ⟨key, rule⟩ := e
  cases rule with
  | literal text =>
    refine ⟨quote, ?_, by rcases hquote with rfl | rfl <;> decide⟩
    rw [Expression.line, String.toList_ofList, ← List.cons_append, ← List.cons_append,
      ← List.append_assoc, List.getLast?_append]
    rfl
  | reference target item =>
    obtain ⟨last, hlast, hbare⟩ := (hwf.reference target item rfl).ends
    refine ⟨last, ?_, hbare⟩
    rw [Expression.line, String.toList_ofList, List.getLast?_append, List.getLast?_cons, hlast]
    rfl
  | shorthand item => exact hwf.key.ends

theorem lineFeed_not_mem (h : e.SaidBy line) (hwf : e.WellFormed) : '\n' ∉ line.toList := by
  obtain ⟨quote, hquote, rfl⟩ := h
  obtain ⟨key, rule⟩ := e
  have hkey := hwf.key.lineFeed_not_mem
  cases rule with
  | literal text =>
    have htext := (hwf.literal text rfl).2.1
    have hmark : '\n' ≠ quote := by rcases hquote with rfl | rfl <;> decide
    simp_all [Expression.line]
  | reference target item =>
    have htarget := (hwf.reference target item rfl).lineFeed_not_mem
    simp_all [Expression.line]
  | shorthand item => exact hkey

theorem significant (h : e.SaidBy line) (hwf : e.WellFormed) : Source.Significant line := by
  obtain ⟨first, tail, hletter, hline⟩ := h.starts hwf
  obtain ⟨last, hlast, hbare⟩ := h.ends hwf
  have hstart : line.toList.head? = some first := by rw [hline]; rfl
  exact .of_ends hstart hlast ⟨Identifier.isBlank_of_isPart hletter.isPart, hbare⟩
    (hletter.ne (by decide)) (h.lineFeed_not_mem hwf)

theorem not_startsSection (h : e.SaidBy line) (hwf : e.WellFormed) :
    Source.startsSection line = false :=
  Line.not_startsSection_of_expression (h.expression_eq hwf)

end Expression.SaidBy

theorem SectionName.section?_header {name : String} (h : SectionName name) :
    Line.section? (header name) = .ok (some name) := by
  apply Line.section?_eq_name_iff.2
  exact ⟨[], [], blanks_nil, blanks_nil, h.nonempty, h.unclosed, h.trimmed, by simp [header]⟩

theorem SectionName.significant_header {name : String} (h : SectionName name) :
    Source.Significant (header name) := by
  have hfirst : (header name).toList.head? = some '[' := by simp [header, Line.sectionMark]
  have hlast : (header name).toList.getLast? = some ']' := by simp [header]
  apply Source.Significant.of_ends hfirst hlast (by decide) (by decide)
  simp [header, Line.sectionMark, h.single]

namespace Source

theorem Progress.advance_saidBy {progress : Progress} {e : Expression} {line : String}
    (h : e.SaidBy line) (hwf : e.WellFormed) (hitem : e.rule.item? = progress.item) :
    progress.advance line = .ok { progress with bindings := progress.bindings.insert e } := by
  have hread := h.expression_eq hwf
  rw [advance, Line.section?_of_expression hread, ← hitem]
  change (do let expression ← Line.expression line e.rule.item?; _) = _
  rw [hread]
  rfl

theorem Progress.advance_header {progress : Progress} {name : String} (h : SectionName name) :
    progress.advance (SectionName.header name) = .ok { progress with item := some name } := by
  rw [advance, h.section?_header]
  rfl

theorem foldlM_saysAll {item : Option String} {expressions : List Expression}
    {lines : List String} (h : SaysAll item expressions lines)
    (hwf : ∀ e ∈ expressions, e.WellFormed) (bindings : Bindings) :
    lines.foldlM Progress.advance ⟨bindings, item⟩ = .ok ⟨bindings.insertAll expressions, item⟩ := by
  obtain ⟨hblock, hitem⟩ := h
  induction hblock generalizing bindings with
  | nil => rfl
  | cons hline _ ih =>
    rw [List.forall_mem_cons] at hwf hitem
    rw [List.foldlM_cons, Progress.advance_saidBy hline hwf.1 hitem.1]
    exact ih hwf.2 _ hitem.2

theorem foldlM_saysSections {expressions : List Expression} {lines : List String}
    (h : SaysSections expressions lines) (hwf : ∀ e ∈ expressions, e.WellFormed)
    (progress : Progress) :
    ∃ item, lines.foldlM Progress.advance progress =
      .ok ⟨progress.bindings.insertAll expressions, item⟩ := by
  induction h generalizing progress with
  | done => exact ⟨progress.item, rfl⟩
  | @next name expressions others lines more hnonempty hblock _ ih =>
    rw [List.forall_mem_append] at hwf
    have hname := hblock.sectionName hnonempty hwf.1
    -- Whatever section is open before the header, it is this one behind it.
    obtain ⟨item, hrest⟩ :=
      ih hwf.2 ⟨progress.bindings.insertAll expressions, some name⟩
    refine ⟨item, ?_⟩
    rw [List.foldlM_cons, Progress.advance_header hname]
    change (lines ++ more).foldlM Progress.advance ⟨progress.bindings, some name⟩ = _
    rw [List.foldlM_append, foldlM_saysAll hblock hwf.1, KeySorted.insertAll_append]
    exact hrest

theorem significant_saysAll {item : Option String} {expressions : List Expression}
    {lines : List String} (h : SaysAll item expressions lines)
    (hwf : ∀ e ∈ expressions, e.WellFormed) : ∀ line ∈ lines, Significant line := by
  intro line hline
  obtain ⟨e, he, hsaid⟩ := h.exists_of_mem hline
  exact hsaid.significant (hwf e he)

theorem significant_saysSections {expressions : List Expression} {lines : List String}
    (h : SaysSections expressions lines) (hwf : ∀ e ∈ expressions, e.WellFormed) :
    ∀ line ∈ lines, Significant line := by
  induction h with
  | done => exact List.forall_mem_nil _
  | @next name expressions others lines more hnonempty hblock _ ih =>
    rw [List.forall_mem_append] at hwf
    rw [List.forall_mem_cons, List.forall_mem_append]
    exact ⟨(hblock.sectionName hnonempty hwf.1).significant_header,
      significant_saysAll hblock hwf.1, ih hwf.2⟩

theorem parse_of_writtenAs {bindings : Bindings} {text : String} (hwf : bindings.WellFormed)
    (h : bindings.WrittenAs text) : parse text = .ok bindings := by
  obtain ⟨top, sectioned, lines, more, htop, hsectioned, hperm, htext⟩ := h
  have hall : ∀ e ∈ top ++ sectioned, e.WellFormed := fun e he => hwf.of_mem (hperm.mem_iff.1 he)
  rw [List.forall_mem_append] at hall
  have hlines : ∀ line ∈ lines ++ more, Significant line :=
    List.forall_mem_append.2
      ⟨significant_saysAll htop hall.1, significant_saysSections hsectioned hall.2⟩
  obtain ⟨item, hmore⟩ := foldlM_saysSections hsectioned hall.2 ⟨KeySorted.ofList top, none⟩
  have hread : (lines ++ more).foldlM Progress.advance ⟨.empty, none⟩ =
      .ok ⟨KeySorted.ofList (top ++ sectioned), item⟩ := by
    rw [List.foldlM_append, foldlM_saysAll htop hall.1]
    rw [KeySorted.ofList, KeySorted.insertAll_append]
    exact hmore
  -- Sorting by key takes back whatever order was chosen.
  rw [parse, htext.significantLines_eq hlines, parseLines, hread, KeySorted.ofList_of_perm hperm]
  rfl

theorem parseEntry_of_saysAll {expressions : List Expression} {lines : List String} {text : String}
    (h : SaysAll none expressions lines) (hwf : ∀ e ∈ expressions, e.WellFormed)
    (htext : Lists text lines) : parseEntry text = parse text := by
  have hnone : (significantLines text).find? startsSection = none := by
    rw [List.find?_eq_none, htext.significantLines_eq (significant_saysAll h hwf)]
    intro line hline
    obtain ⟨e, he, hsaid⟩ := h.exists_of_mem hline
    simp [hsaid.not_startsSection (hwf e he)]
  rw [parseEntry, hnone]

end Source

namespace Bindings

def inSection (bindings : Bindings) (item : Option String) : List Expression :=
  bindings.toList.filter fun e => e.rule.item? = item

def sections (bindings : Bindings) : List String :=
  (bindings.toList.filterMap fun e => e.rule.item?).dedup

def renderLines (bindings : Bindings) : List String :=
  (bindings.inSection none).map (Expression.line '\x22') ++
    bindings.sections.flatMap fun name =>
      SectionName.header name :: (bindings.inSection (some name)).map (Expression.line '\x22')

def render (bindings : Bindings) : String :=
  "\n".intercalate bindings.renderLines

variable {bindings : Bindings}

@[simp] theorem mem_inSection_iff {item : Option String} {e : Expression} :
    e ∈ bindings.inSection item ↔ e ∈ bindings.toList ∧ e.rule.item? = item := by
  simp [inSection]

@[simp] theorem mem_sections_iff {name : String} :
    name ∈ bindings.sections ↔ ∃ e ∈ bindings.toList, e.rule.item? = some name := by
  simp [sections]

theorem saysAll_inSection (item : Option String) :
    SaysAll item (bindings.inSection item)
      ((bindings.inSection item).map (Expression.line '\x22')) := by
  refine ⟨?_, fun e he => (mem_inSection_iff.1 he).2⟩
  rw [List.forall₂_map_right_iff, List.forall₂_same]
  exact fun e _ => ⟨'\x22', .inl rfl, rfl⟩

theorem saysSections_flatMap {names : List String} (h : ∀ name ∈ names, name ∈ bindings.sections) :
    SaysSections (names.flatMap fun name => bindings.inSection (some name))
      (names.flatMap fun name =>
        SectionName.header name :: (bindings.inSection (some name)).map (Expression.line '\x22')) := by
  induction names with
  | nil => exact .done
  | cons name others ih =>
    rw [List.forall_mem_cons] at h
    obtain ⟨e, he, hitem⟩ := mem_sections_iff.1 h.1
    have hnonempty : bindings.inSection (some name) ≠ [] :=
      List.ne_nil_of_mem (mem_inSection_iff.2 ⟨he, hitem⟩)
    exact .next hnonempty (saysAll_inSection (some name)) (ih h.2)

theorem perm_inSection : (bindings.inSection none ++
    bindings.sections.flatMap fun name => bindings.inSection (some name)).Perm
      bindings.toList := by
  rw [List.perm_ext_iff_of_nodup _ bindings.nodup_toList]
  · intro e
    simp only [List.mem_append, List.mem_flatMap, mem_inSection_iff, mem_sections_iff]
    cases hitem : e.rule.item? with
    | none => simp
    | some name =>
      simp only [reduceCtorEq, and_false, Option.some.injEq, false_or]
      refine ⟨?_, ?_⟩
      · rintro ⟨_, -, he, -⟩
        exact he
      · intro he
        exact ⟨name, ⟨e, he, hitem⟩, he, rfl⟩
  · have hnodup (item : Option String) : (bindings.inSection item).Nodup :=
      bindings.nodup_toList.filter _
    have hdisjoint {item other : Option String} (hne : item ≠ other) :
        List.Disjoint (bindings.inSection item) (bindings.inSection other) := by
      intro e he hother
      exact hne ((mem_inSection_iff.1 he).2.symm.trans (mem_inSection_iff.1 hother).2)
    refine (hnodup none).append (List.nodup_flatMap.2 ⟨fun name _ => hnodup (some name), ?_⟩) ?_
    · refine (List.nodup_dedup _).imp ?_
      intro name other hne
      exact hdisjoint (by simpa using hne)
    · intro e htop hsectioned
      obtain ⟨name, -, he⟩ := List.mem_flatMap.1 hsectioned
      exact hdisjoint (by simp) htop he

@[simp] theorem writtenAs_render (bindings : Bindings) : bindings.WrittenAs bindings.render :=
  ⟨_, _, _, _, saysAll_inSection none, saysSections_flatMap fun _ hname => hname, perm_inSection,
    .inl rfl⟩

example : Bindings.render (.ofList [⟨"A", .literal " '#=\r"⟩, ⟨"B", .reference "C" (some "[#=")⟩,
    ⟨"D", .shorthand none⟩]) = "A=\x22 '#=\r\x22\nD\n[item:[#=]\nB=C" := by
  decide +kernel

theorem sections_of_unscoped (h : bindings.Unscoped) : bindings.sections = [] := by
  rw [List.eq_nil_iff_forall_not_mem]
  intro name hname
  obtain ⟨e, he, hitem⟩ := mem_sections_iff.1 hname
  rw [h.of_mem he] at hitem
  cases hitem

end Bindings

namespace Source

theorem parse_render {bindings : Bindings} (h : bindings.WellFormed) :
    parse bindings.render = .ok bindings :=
  parse_of_writtenAs h bindings.writtenAs_render

theorem parseEntry_render {bindings : Bindings} (hwf : bindings.WellFormed)
    (hunscoped : bindings.Unscoped) : parseEntry bindings.render = .ok bindings := by
  have hlines : Lists bindings.render
      ((bindings.inSection none).map (Expression.line '\x22')) := by
    left
    rw [Bindings.render, Bindings.renderLines, Bindings.sections_of_unscoped hunscoped,
      List.flatMap_nil, List.append_nil]
  rw [parseEntry_of_saysAll (Bindings.saysAll_inSection none) _ hlines]
  · exact parse_render hwf
  · exact fun e he => hwf.of_mem (Bindings.mem_inSection_iff.1 he).1

end Source

end SecretEnv
