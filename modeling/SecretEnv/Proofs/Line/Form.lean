import SecretEnv.Line
import SecretEnv.Proofs.Text.Trim

namespace SecretEnv

namespace Identifier

def Letter (c : Char) : Prop :=
  ('A' ≤ c ∧ c ≤ 'Z') ∨ ('a' ≤ c ∧ c ≤ 'z')

def Digit (c : Char) : Prop :=
  '0' ≤ c ∧ c ≤ '9'

def Spelling (name : List Char) : Prop :=
  ∃ first rest, name = first :: rest ∧ Letter first ∧ ∀ c ∈ rest, Letter c ∨ Digit c ∨ c = '_'

@[simp] theorem isStart_iff {c : Char} : isStart c = true ↔ Letter c := by
  change (decide ('A' ≤ c ∧ c ≤ 'Z') || (decide ('a' ≤ c) && decide (c ≤ 'z'))) = true ↔ _
  rw [Bool.or_eq_true, Bool.and_eq_true, decide_eq_true_iff, decide_eq_true_iff,
    decide_eq_true_iff]
  rfl

@[simp] theorem isPart_iff {c : Char} : isPart c = true ↔ Letter c ∨ Digit c ∨ c = '_' := by
  change ((isStart c || (decide ('0' ≤ c) && decide (c ≤ '9'))) || c == '_') = true ↔ _
  rw [Bool.or_eq_true, Bool.or_eq_true, Bool.and_eq_true, decide_eq_true_iff, decide_eq_true_iff,
    isStart_iff, beq_iff_eq, or_assoc]
  rfl

@[simp] theorem spelledBy_iff {name : List Char} : spelledBy name = true ↔ Spelling name := by
  cases name with
  | nil => simp [spelledBy, Spelling]
  | cons c rest =>
    simp only [spelledBy, Bool.and_eq_true, List.all_eq_true, isStart_iff, isPart_iff]
    refine ⟨?_, ?_⟩
    · rintro ⟨hfirst, hrest⟩
      exact ⟨c, rest, rfl, hfirst, hrest⟩
    · rintro ⟨first, tail, heq, hfirst, hrest⟩
      cases heq
      exact ⟨hfirst, hrest⟩

theorem Letter.isPart {c : Char} (h : Letter c) : isPart c = true :=
  isPart_iff.2 (.inl h)

theorem Spelling.isPart_of_mem {name : List Char} (h : Spelling name) {c : Char} (hc : c ∈ name) :
    isPart c = true := by
  obtain ⟨first, rest, rfl, hfirst, hrest⟩ := h
  rcases List.mem_cons.1 hc with rfl | hc
  · exact hfirst.isPart
  · exact isPart_iff.2 (hrest c hc)

theorem isBlank_of_isPart {c : Char} (h : isPart c = true) : Text.isBlank c = false := by
  rcases isPart_iff.1 h with hletter | hdigit | rfl
  · have hcode : (65 ≤ c.toNat ∧ c.toNat ≤ 90) ∨ (97 ≤ c.toNat ∧ c.toNat ≤ 122) := hletter
    simp [Text.isBlank, Text.CodePoints.has, Text.blankRanges]
    omega
  · have hcode : 48 ≤ c.toNat ∧ c.toNat ≤ 57 := hdigit
    simp [Text.isBlank, Text.CodePoints.has, Text.blankRanges]
    omega
  · decide

theorem Spelling.not_mem {name : List Char} (h : Spelling name) {c : Char} (hc : isPart c = false) :
    c ∉ name := by
  intro hin
  rw [h.isPart_of_mem hin] at hc
  cases hc

theorem Spelling.trimmed {name : List Char} (h : Spelling name) : Text.Trimmed name := by
  refine ⟨?_, ?_⟩ <;> intro c hc
  · exact isBlank_of_isPart (h.isPart_of_mem (List.mem_of_head? hc))
  · exact isBlank_of_isPart (h.isPart_of_mem (List.mem_of_getLast? hc))

end Identifier

namespace Line

open Text

inductive Form where
  | literal (key text : String)
  | reference (key target : String)
  | shorthand (key : String)
  | header (name : String)
  | unnamedHeader
  deriving DecidableEq, Repr

/-- How a form is written. A literal may hold any characters, quotes and equals signs included, and
its two outer quotes are the same. -/
def Form.SpelledBy (form : Form) (line : String) : Prop :=
  match form with
  | literal key text => ∃ before after quote, Identifier.Spelling key.toList ∧ Blanks before ∧
      Blanks after ∧ (quote = '\x22' ∨ quote = '\x27') ∧ text ≠ "" ∧
      line.toList = key.toList ++ before ++ '=' :: (after ++ quote :: (text.toList ++ [quote]))
  | reference key target => ∃ before after, Identifier.Spelling key.toList ∧ Blanks before ∧
      Blanks after ∧ Identifier.Spelling target.toList ∧
      line.toList = key.toList ++ before ++ '=' :: (after ++ target.toList)
  | shorthand key => Identifier.Spelling key.toList ∧ line = key
  | header name => ∃ before after, Blanks before ∧ Blanks after ∧ name ≠ "" ∧ ']' ∉ name.toList ∧
      Trimmed name.toList ∧
      line.toList = sectionMark ++ (before ++ name.toList ++ after) ++ [']']
  | unnamedHeader => ∃ blanks, Blanks blanks ∧ line.toList = sectionMark ++ blanks ++ [']']

def Form.IsExpression : Form → Prop
  | literal _ _ => True
  | reference _ _ => True
  | shorthand _ => True
  | header _ => False
  | unnamedHeader => False

end Line

end SecretEnv
