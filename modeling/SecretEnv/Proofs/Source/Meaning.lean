import SecretEnv.Proofs.KeySorted.Lookup
import SecretEnv.Proofs.Line.Grammar
import SecretEnv.Source

/-! The meaning of a source, said by positions. A line is read in the section of the last header
above it, the last definition of a key stays, and the first bad line is the one reported. Reading
line by line, with one section open at a time, computes exactly this. -/
namespace SecretEnv

def Line.header? (line : String) : Option String :=
  match Line.section? line with
  | .ok name => name
  | .error _ => none

namespace Source

def sectionAfter (lines : List String) : Option String :=
  (lines.filterMap Line.header?).getLast?

/-- The section that is open at line `i`. -/
def sectionBefore (lines : List String) (i : Nat) : Option String :=
  sectionAfter (lines.take i)

/-- Line `i` is an expression under the section that is open there. -/
def Defines (lines : List String) (i : Nat) (e : Expression) : Prop :=
  ∃ line, lines[i]? = some line ∧ Line.expression line (sectionBefore lines i) = .ok e

def Accepts (lines : List String) (i : Nat) : Prop :=
  ∃ line, lines[i]? = some line ∧
    ((∃ name, Line.header? line = some name) ∨
      ∃ e, Line.expression line (sectionBefore lines i) = .ok e)

/-- Line `i` is neither a header nor an expression, and this is what is said of it. -/
def FailsWith (lines : List String) (i : Nat) (error : LineError) : Prop :=
  ∃ line, lines[i]? = some line ∧ ¬ Accepts lines i ∧
    ((Line.section? line = .error .unnamedSection ∧ error = .unnamedSection) ∨
      (Line.section? line ≠ .error .unnamedSection ∧ error = .malformed line))

/-- Of the lines that define a key the last one gives it this expression. -/
def LastDefinition (lines : List String) (key : String) (e : Expression) : Prop :=
  e.key = key ∧ ∃ i, Defines lines i e ∧
    ∀ j, i < j → ∀ later, Defines lines j later → later.key ≠ key

/-- What lines mean: bindings when every line is accepted, else the error of the first that is
not. -/
structure Meaning (lines : List String) (outcome : Except LineError Bindings) : Prop where
  succeeds : (∃ bindings, outcome = .ok bindings) ↔ ∀ i < lines.length, Accepts lines i
  keys : ∀ bindings, outcome = .ok bindings →
    ∀ key, key ∈ bindings.keys ↔ ∃ i e, Defines lines i e ∧ e.key = key
  last : ∀ bindings, outcome = .ok bindings →
    ∀ key e, bindings.get? key = some e ↔ LastDefinition lines key e
  fails : ∀ error, outcome = .error error ↔
    ∃ i, FailsWith lines i error ∧ ∀ j < i, Accepts lines j

theorem sectionBefore_append {lines : List String} {i : Nat} (h : i ≤ lines.length)
    (rest : List String) : sectionBefore (lines ++ rest) i = sectionBefore lines i := by
  rw [sectionBefore, sectionBefore, List.take_append_of_le_length h]

@[simp] theorem sectionBefore_length (lines : List String) :
    sectionBefore lines lines.length = sectionAfter lines := by
  rw [sectionBefore, List.take_length]

theorem Defines.lt_length {lines : List String} {i : Nat} {e : Expression}
    (h : Defines lines i e) : i < lines.length := by
  obtain ⟨line, hline, -⟩ := h
  exact (List.getElem?_eq_some_iff.1 hline).1

@[simp] theorem defines_concat {lines : List String} {line : String} {i : Nat} {e : Expression} :
    Defines (lines ++ [line]) i e ↔ Defines lines i e ∨
      (i = lines.length ∧ Line.expression line (sectionAfter lines) = .ok e) := by
  rcases Nat.lt_trichotomy i lines.length with hi | rfl | hi
  · simp only [Defines, List.getElem?_append_left hi, sectionBefore_append (Nat.le_of_lt hi)]
    simp [Nat.ne_of_lt hi]
  · simp [Defines, sectionBefore_append (Nat.le_refl _)]
  · have hnot : ¬ Defines (lines ++ [line]) i e := by
      intro h
      have hlt := h.lt_length
      rw [List.length_append, List.length_singleton] at hlt
      omega
    have hbefore : ¬ Defines lines i e := fun h => Nat.lt_asymm hi h.lt_length
    simp [hnot, hbefore, Nat.ne_of_gt hi]

theorem accepts_append {lines : List String} {i : Nat} (h : i < lines.length)
    (rest : List String) : Accepts (lines ++ rest) i ↔ Accepts lines i := by
  simp only [Accepts, List.getElem?_append_left h, sectionBefore_append (Nat.le_of_lt h)]

theorem failsWith_append {lines : List String} {i : Nat} {error : LineError}
    (h : i < lines.length) (rest : List String) :
    FailsWith (lines ++ rest) i error ↔ FailsWith lines i error := by
  simp only [FailsWith, List.getElem?_append_left h, accepts_append h]

@[simp] theorem accepts_concat {lines : List String} {line : String} :
    Accepts (lines ++ [line]) lines.length ↔ (∃ name, Line.header? line = some name) ∨
      ∃ e, Line.expression line (sectionAfter lines) = .ok e := by
  simp [Accepts, sectionBefore_append (Nat.le_refl _)]

theorem Progress.advance_cases (progress : Progress) (line : String) :
    (∃ name, Line.header? line = some name ∧
      progress.advance line = .ok { progress with item := some name }) ∨
    (Line.header? line = none ∧ ∃ e, Line.expression line progress.item = .ok e ∧
      progress.advance line = .ok { progress with bindings := progress.bindings.insert e }) ∨
    (Line.header? line = none ∧ (∀ e, Line.expression line progress.item ≠ .ok e) ∧
      ∃ error, progress.advance line = .error error ∧
        ((Line.section? line = .error .unnamedSection ∧ error = .unnamedSection) ∨
          (Line.section? line ≠ .error .unnamedSection ∧ error = .malformed line))) := by
  unfold Progress.advance Line.header?
  cases hsection : Line.section? line with
  | error error =>
    obtain ⟨rfl, -⟩ := Line.section?_eq_error_iff.1 hsection
    refine .inr (.inr ⟨rfl, ?_, .unnamedSection, rfl, .inl ⟨rfl, rfl⟩⟩)
    intro e he
    rw [Line.section?_of_expression he] at hsection
    cases hsection
  | ok name? =>
    cases name? with
    | some name => exact .inl ⟨name, rfl, rfl⟩
    | none =>
      cases he : Line.expression line progress.item with
      | ok e => exact .inr (.inl ⟨rfl, e, rfl, rfl⟩)
      | error error =>
        cases Line.error_of_expression he
        refine .inr (.inr ⟨rfl, by simp, .malformed line, rfl, .inr ⟨by simp, rfl⟩⟩)

structure Progress.Covers (progress : Progress) (lines : List String) : Prop where
  item : progress.item = sectionAfter lines
  accepts : ∀ i < lines.length, Accepts lines i
  last : ∀ key e, progress.bindings.get? key = some e ↔ LastDefinition lines key e

@[simp] theorem sectionAfter_concat (lines : List String) (line : String) :
    sectionAfter (lines ++ [line]) = (Line.header? line).or (sectionAfter lines) := by
  simp only [sectionAfter, List.filterMap_append]
  cases h : Line.header? line <;> simp [h]

private theorem accepts_all_concat {lines : List String} {line : String}
    (hlines : ∀ i < lines.length, Accepts lines i)
    (hline : (∃ name, Line.header? line = some name) ∨
      ∃ e, Line.expression line (sectionAfter lines) = .ok e) :
    ∀ i < (lines ++ [line]).length, Accepts (lines ++ [line]) i := by
  intro i hi
  rw [List.length_append, List.length_singleton] at hi
  by_cases hbefore : i < lines.length
  · exact (accepts_append hbefore [line]).2 (hlines i hbefore)
  · have hlast : i = lines.length := by omega
    rw [hlast]
    exact accepts_concat.2 hline

theorem lastDefinition_concat_of_not_expression {lines : List String} {line : String}
    (h : ∀ e, Line.expression line (sectionAfter lines) ≠ .ok e) (key : String) (e : Expression) :
    LastDefinition (lines ++ [line]) key e ↔ LastDefinition lines key e := by
  simp [LastDefinition, h]

theorem lastDefinition_concat {lines : List String} {line : String} {new : Expression}
    (h : Line.expression line (sectionAfter lines) = .ok new) (key : String) (e : Expression) :
    LastDefinition (lines ++ [line]) key e ↔
      if new.key = key then new = e else LastDefinition lines key e := by
  have hdefines (i : Nat) (e : Expression) :
      Defines (lines ++ [line]) i e ↔ Defines lines i e ∨ (i = lines.length ∧ new = e) := by
    rw [defines_concat, h, Except.ok.injEq]
  split
  · next hnew =>
    refine ⟨?_, ?_⟩
    · intro hlast
      obtain ⟨hkey, i, hi, hnone⟩ := hlast
      rcases (hdefines i e).1 hi with hbefore | hat
      · have hshadowed := hnone lines.length hbefore.lt_length new
          ((hdefines _ _).2 (.inr ⟨rfl, rfl⟩))
        exact absurd hnew hshadowed
      · exact hat.2
    · intro heq
      refine ⟨heq ▸ hnew, lines.length, (hdefines _ _).2 (.inr ⟨rfl, heq⟩), ?_⟩
      intro j hj later hlater
      rcases (hdefines j later).1 hlater with hbefore | hat
      · exact absurd hbefore.lt_length (Nat.lt_asymm hj)
      · exact absurd hat.1 (Nat.ne_of_gt hj)
  · next hnew =>
    refine ⟨?_, ?_⟩
    · intro hlast
      obtain ⟨hkey, i, hi, hnone⟩ := hlast
      rcases (hdefines i e).1 hi with hbefore | hat
      · refine ⟨hkey, i, hbefore, ?_⟩
        intro j hj later hlater
        exact hnone j hj later ((hdefines j later).2 (.inl hlater))
      · exact absurd (hat.2 ▸ hkey) hnew
    · intro hlast
      obtain ⟨hkey, i, hi, hnone⟩ := hlast
      refine ⟨hkey, i, (hdefines i e).2 (.inl hi), ?_⟩
      intro j hj later hlater
      rcases (hdefines j later).1 hlater with hbefore | hat
      · exact hnone j hj later hbefore
      · exact hat.2 ▸ hnew

theorem Progress.Covers.advance {progress next : Progress} {lines : List String} {line : String}
    (h : progress.Covers lines) (hnext : progress.advance line = .ok next) :
    next.Covers (lines ++ [line]) := by
  rcases progress.advance_cases line with ⟨name, hheader, hstep⟩ | ⟨hheader, e, he, hstep⟩ |
    ⟨-, -, error, hstep, -⟩
  · rw [hstep] at hnext
    cases hnext
    have hnot (e : Expression) : Line.expression line (sectionAfter lines) ≠ .ok e := by
      intro he
      simp [Line.header?, Line.section?_of_expression he] at hheader
    refine ⟨?_, accepts_all_concat h.accepts (.inl ⟨name, hheader⟩), ?_⟩
    · simp [hheader]
    · intro key e
      rw [lastDefinition_concat_of_not_expression hnot]
      exact h.last key e
  · rw [hstep] at hnext
    cases hnext
    rw [h.item] at he
    refine ⟨?_, accepts_all_concat h.accepts (.inr ⟨e, he⟩), ?_⟩
    · simp [hheader, h.item]
    · intro key stored
      rw [lastDefinition_concat he, KeySorted.get?_insert]
      split
      · simp
      · exact h.last key stored
  · rw [hstep] at hnext
    cases hnext

theorem Progress.Covers.failsWith {progress : Progress} {lines : List String} {line : String}
    {error : LineError} (h : progress.Covers lines)
    (herror : progress.advance line = .error error) :
    FailsWith (lines ++ [line]) lines.length error := by
  rcases progress.advance_cases line with ⟨name, -, hstep⟩ | ⟨-, e, -, hstep⟩ |
    ⟨hheader, hnone, fault, hstep, hfault⟩
  · rw [hstep] at herror
    cases herror
  · rw [hstep] at herror
    cases herror
  · rw [hstep] at herror
    cases herror
    refine ⟨line, by simp, ?_, hfault⟩
    rw [accepts_concat, ← h.item]
    simp [hheader, hnone]

private theorem covers_nil : Progress.Covers ⟨.empty, none⟩ [] := by
  refine ⟨rfl, by simp, ?_⟩
  simp [LastDefinition, Defines]

private theorem Progress.Covers.foldlM {progress : Progress} {lines : List String}
    (h : progress.Covers lines) (rest : List String) :
    (∃ next, rest.foldlM Progress.advance progress = .ok next ∧ next.Covers (lines ++ rest)) ∨
    (∃ error i, rest.foldlM Progress.advance progress = .error error ∧
      FailsWith (lines ++ rest) i error ∧ ∀ j < i, Accepts (lines ++ rest) j) := by
  induction rest generalizing progress lines with
  | nil => exact .inl ⟨progress, rfl, by simpa using h⟩
  | cons line rest ih =>
    have happend : lines ++ line :: rest = (lines ++ [line]) ++ rest := by simp
    rw [List.foldlM_cons, happend]
    cases hstep : progress.advance line with
    | ok next => exact ih (h.advance hstep)
    | error error =>
      refine .inr ⟨error, lines.length, rfl, ?_, ?_⟩
      · exact (failsWith_append (by simp) rest).2 (h.failsWith hstep)
      · intro j hj
        rw [← happend]
        exact (accepts_append hj _).2 (h.accepts j hj)

theorem FailsWith.eq {lines : List String} {i : Nat} {error other : LineError}
    (h : FailsWith lines i error) (hother : FailsWith lines i other) : error = other := by
  obtain ⟨line, hline, -, hfault⟩ := h
  obtain ⟨line', hline', -, hfault'⟩ := hother
  cases hline.symm.trans hline'
  rcases hfault with ⟨hs, rfl⟩ | ⟨hs, rfl⟩ <;> rcases hfault' with ⟨hs', rfl⟩ | ⟨hs', rfl⟩
  · rfl
  · exact absurd hs hs'
  · exact absurd hs' hs
  · rfl

theorem FailsWith.lt_length {lines : List String} {i : Nat} {error : LineError}
    (h : FailsWith lines i error) : i < lines.length := by
  obtain ⟨line, hline, -⟩ := h
  exact (List.getElem?_eq_some_iff.1 hline).1

theorem FailsWith.first_unique {lines : List String} {i j : Nat} {error other : LineError}
    (h : FailsWith lines i error) (hfirst : ∀ k < i, Accepts lines k)
    (hother : FailsWith lines j other) (hfirst' : ∀ k < j, Accepts lines k) : error = other := by
  have hi : ¬ Accepts lines i := h.choose_spec.2.1
  have hj : ¬ Accepts lines j := hother.choose_spec.2.1
  have heq : i = j := by
    rcases Nat.lt_trichotomy i j with hlt | heq | hlt
    · exact absurd (hfirst' i hlt) hi
    · exact heq
    · exact absurd (hfirst j hlt) hj
  subst heq
  exact h.eq hother

theorem Defines.exists_last {lines : List String} {i : Nat} {e : Expression}
    (h : Defines lines i e) : ∃ last, LastDefinition lines e.key last := by
  by_cases hlater : ∃ j later, i < j ∧ Defines lines j later ∧ later.key = e.key
  · obtain ⟨j, later, hj, hdefines, hkey⟩ := hlater
    have hlength := hdefines.lt_length
    rw [← hkey]
    exact hdefines.exists_last
  · refine ⟨e, rfl, i, h, ?_⟩
    intro j hj later hdefines hkey
    exact hlater ⟨j, later, hj, hdefines, hkey⟩
termination_by lines.length - i

theorem Meaning.of_covers {progress : Progress} {lines : List String}
    (h : progress.Covers lines) : Meaning lines (.ok progress.bindings) where
  succeeds := by
    refine ⟨fun _ => h.accepts, fun _ => ⟨progress.bindings, rfl⟩⟩
  keys := by
    intro bindings heq key
    cases heq
    rw [KeySorted.mem_keys_iff]
    refine ⟨?_, ?_⟩
    · intro hkey
      obtain ⟨e, he⟩ := hkey
      obtain ⟨hkey, i, hdefines, -⟩ := (h.last key e).1 he
      exact ⟨i, e, hdefines, hkey⟩
    · intro hkey
      obtain ⟨i, e, hdefines, rfl⟩ := hkey
      obtain ⟨last, hlast⟩ := hdefines.exists_last
      exact ⟨last, (h.last e.key last).2 hlast⟩
  last := by
    intro bindings heq
    cases heq
    exact h.last
  fails := by
    intro error
    refine ⟨nofun, ?_⟩
    intro hfails
    obtain ⟨i, hfails, -⟩ := hfails
    exact absurd (h.accepts i hfails.lt_length) hfails.choose_spec.2.1

theorem Meaning.of_failsWith {lines : List String} {i : Nat} {error : LineError}
    (h : FailsWith lines i error) (hfirst : ∀ j < i, Accepts lines j) :
    Meaning lines (.error error) where
  succeeds := by
    refine ⟨nofun, ?_⟩
    intro hall
    exact absurd (hall i h.lt_length) h.choose_spec.2.1
  keys := nofun
  last := nofun
  fails := by
    intro other
    refine ⟨?_, ?_⟩
    · intro heq
      cases heq
      exact ⟨i, h, hfirst⟩
    · intro hother
      obtain ⟨j, hother, hbefore⟩ := hother
      rw [h.first_unique hfirst hother hbefore]

theorem meaning_parseLines (lines : List String) : Meaning lines (parseLines lines) := by
  unfold parseLines
  rcases covers_nil.foldlM lines with ⟨next, hrun, hcovers⟩ | ⟨error, i, hrun, hfails, hfirst⟩
  · rw [hrun]
    exact .of_covers hcovers
  · rw [hrun]
    exact .of_failsWith hfails hfirst

/-- Lines mean what their positions say, and a text means what its significant lines mean. -/
theorem reading_is_positional :
    (∀ lines, Meaning lines (parseLines lines)) ∧
      ∀ text, Meaning (significantLines text) (parse text) :=
  ⟨meaning_parseLines, fun text => meaning_parseLines (significantLines text)⟩

end Source

end SecretEnv
