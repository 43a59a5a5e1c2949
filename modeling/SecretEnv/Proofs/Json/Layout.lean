import Mathlib.Data.List.Forall2
import SecretEnv.Json.Written

/-! The layouts of a value: all JSON texts that spell it, with spaces around its tokens and with
each character of a string as it stands or escaped in any way. The scanner finds the same tokens in
all of them, because two tokens that need to be told apart by what follows never stand side by side.
Values with numbers have no layout here. -/
namespace SecretEnv.Json

def HexDigit (c : Char) (n : Nat) : Prop :=
  "0123456789abcdef".toList[n]? = some c ∨ "0123456789ABCDEF".toList[n]? = some c

inductive NamesUnit : List Char → Nat → Prop where
  | digits {a b c d : Char} {x y z w : Nat} (ha : HexDigit a x) (hb : HexDigit b y)
      (hc : HexDigit c z) (hd : HexDigit d w) :
      NamesUnit [a, b, c, d] (16 * (16 * (16 * x + y) + z) + w)

def shortEscapes : List (Char × Char) :=
  [('\x22', '\x22'), ('\\', '\\'), ('/', '/'), ('b', '\x08'), ('f', '\x0c'), ('n', '\n'),
    ('r', '\r'), ('t', '\t')]

/-- The ways to write one character inside a string. -/
inductive SpellsChar : List Char → Char → Prop where
  | plain (c : Char) (quote : c ≠ '\x22') (backslash : c ≠ '\\') (control : 0x20 ≤ c.toNat) :
      SpellsChar [c] c
  | short {letter c : Char} (escapes : (letter, c) ∈ shortEscapes) : SpellsChar ['\\', letter] c
  | unit {digits : List Char} {c : Char} (names : NamesUnit digits c.toNat) :
      SpellsChar ('\\' :: 'u' :: digits) c
  /-- A character beyond 16 bits, as a pair of surrogates. -/
  | pair {high low : List Char} {c : Char} (astral : 0x10000 ≤ c.toNat)
      (names_high : NamesUnit high (0xD800 + (c.toNat - 0x10000) / 0x400))
      (names_low : NamesUnit low (0xDC00 + (c.toNat - 0x10000) % 0x400)) :
      SpellsChar ('\\' :: 'u' :: (high ++ '\\' :: 'u' :: low)) c

def SpellsText (written text : List Char) : Prop :=
  ∃ pieces, written = '\x22' :: (pieces.flatten ++ ['\x22']) ∧ List.Forall₂ SpellsChar pieces text

namespace Letter

def SpellOut (letters : List Letter) (c : Char) : Prop :=
  ∀ rest, spell (letters ++ rest) = (c :: ·) <$> spell rest

@[simp] theorem isHighSurrogate_toNat (c : Char) : isHighSurrogate c.toNat = false := by
  have hvalid : c.toNat < 0xD800 ∨ (0xDFFF < c.toNat ∧ c.toNat < 0x110000) := c.valid
  simp only [isHighSurrogate, Bool.and_eq_false_imp, decide_eq_true_eq, decide_eq_false_iff_not]
  omega

@[simp] theorem isLowSurrogate_toNat (c : Char) : isLowSurrogate c.toNat = false := by
  have hvalid : c.toNat < 0xD800 ∨ (0xDFFF < c.toNat ∧ c.toNat < 0x110000) := c.valid
  simp only [isLowSurrogate, Bool.and_eq_false_imp, decide_eq_true_eq, decide_eq_false_iff_not]
  omega

theorem spellOut_char (c : Char) : SpellOut [.char c] c :=
  fun _ => by rw [List.singleton_append, spell]

theorem spellOut_unit (c : Char) : SpellOut [.unit c.toNat] c := by
  intro rest
  -- The next letter only matters after half of a pair, which no character is.
  cases rest with
  | nil => simp [spell]
  | cons next rest => cases next <;> simp [spell]

theorem spellOut_pair {c : Char} (h : 0x10000 ≤ c.toNat) :
    SpellOut [.unit (0xD800 + (c.toNat - 0x10000) / 0x400),
      .unit (0xDC00 + (c.toNat - 0x10000) % 0x400)] c := by
  intro rest
  have hvalid : c.toNat < 0xD800 ∨ (0xDFFF < c.toNat ∧ c.toNat < 0x110000) := c.valid
  have hhigh : isHighSurrogate (0xD800 + (c.toNat - 0x10000) / 0x400) = true := by
    simp only [isHighSurrogate, Bool.and_eq_true, decide_eq_true_eq]
    omega
  have hlow : isLowSurrogate (0xDC00 + (c.toNat - 0x10000) % 0x400) = true := by
    simp only [isLowSurrogate, Bool.and_eq_true, decide_eq_true_eq]
    omega
  have hpair : pair (0xD800 + (c.toNat - 0x10000) / 0x400) (0xDC00 + (c.toNat - 0x10000) % 0x400) =
      c := by
    have hvalue : 0x10000 + (0xD800 + (c.toNat - 0x10000) / 0x400 - 0xD800) * 0x400 +
        (0xDC00 + (c.toNat - 0x10000) % 0x400 - 0xDC00) = c.toNat := by omega
    rw [pair, hvalue, Char.ofNat_toNat]
  simp [spell, hhigh, hlow, hpair]

theorem spell_flatten {pieces : List (List Letter)} {text : List Char}
    (h : List.Forall₂ SpellOut pieces text) : spell pieces.flatten = some text := by
  induction h with
  | nil => rfl
  | cons hfirst _ ih => rw [List.flatten_cons, hfirst, ih]; rfl

end Letter

namespace Token

theorem hexDigit?_of_hexDigit {c : Char} {n : Nat} (h : HexDigit c n) : hexDigit? c = some n := by
  have hlt : n < 16 := by
    rcases h with h | h <;> exact (List.getElem?_eq_some_iff.1 h).1
  have hsmall : ∀ n < 16, ("0123456789abcdef".toList[n]?).bind hexDigit? = some n := by decide
  have hcapital : ∀ n < 16, ("0123456789ABCDEF".toList[n]?).bind hexDigit? = some n := by decide
  rcases h with h | h
  · have hfound := hsmall n hlt
    rwa [h] at hfound
  · have hfound := hcapital n hlt
    rwa [h] at hfound

theorem foldlM_hex {digits : List Char} {u : Nat} (h : NamesUnit digits u) (done : List Token)
    (read : List Letter) :
    digits.foldlM Scan.step ⟨done, .hex read 4 0⟩ = some ⟨done, .string (.unit u :: read)⟩ := by
  obtain ⟨ha, hb, hc, hd⟩ := h
  simp [Scan.step, hexDigit?_of_hexDigit ha, hexDigit?_of_hexDigit hb, hexDigit?_of_hexDigit hc,
    hexDigit?_of_hexDigit hd]

theorem escaped?_of_mem {letter c : Char} (h : (letter, c) ∈ shortEscapes) :
    letter ≠ 'u' ∧ escaped? letter = some c := by
  have hall : ∀ e ∈ shortEscapes, e.1 ≠ 'u' ∧ escaped? e.1 = some e.2 := by decide
  exact hall _ h

theorem exists_foldlM_char {written : List Char} {c : Char} (h : SpellsChar written c)
    (done : List Token) (read : List Letter) :
    ∃ letters, Letter.SpellOut letters c ∧
      written.foldlM Scan.step ⟨done, .string read⟩ =
        some ⟨done, .string (letters.reverse ++ read)⟩ := by
  cases h with
  | plain c quote backslash control =>
    refine ⟨_, Letter.spellOut_char c, ?_⟩
    simp [Scan.step, quote, backslash, Nat.not_lt.2 control]
  | short escapes =>
    obtain ⟨hunit, hescaped⟩ := escaped?_of_mem escapes
    refine ⟨_, Letter.spellOut_char c, ?_⟩
    simp [Scan.step, hunit, hescaped]
  | unit names =>
    refine ⟨_, Letter.spellOut_unit c, ?_⟩
    exact foldlM_hex names done read
  | pair astral names_high names_low =>
    refine ⟨_, Letter.spellOut_pair astral, ?_⟩
    change List.foldlM Scan.step ⟨done, .hex read 4 0⟩ (_ ++ _) = _
    rw [List.foldlM_append, foldlM_hex names_high]
    exact foldlM_hex names_low done _

theorem exists_foldlM_chars {pieces : List (List Char)} {text : List Char}
    (h : List.Forall₂ SpellsChar pieces text) (done : List Token) (read : List Letter) :
    ∃ letters, List.Forall₂ Letter.SpellOut letters text ∧
      pieces.flatten.foldlM Scan.step ⟨done, .string read⟩ =
        some ⟨done, .string (letters.flatten.reverse ++ read)⟩ := by
  induction h generalizing read with
  | nil => exact ⟨[], .nil, rfl⟩
  | cons hfirst _ ih =>
    obtain ⟨first, hspell, hread⟩ := exists_foldlM_char hfirst done read
    obtain ⟨letters, hletters, hrest⟩ := ih (first.reverse ++ read)
    refine ⟨first :: letters, .cons hspell hletters, ?_⟩
    rw [List.flatten_cons, List.foldlM_append, hread]
    simpa using hrest

theorem foldlM_text {written : List Char} {s : String} (h : SpellsText written s.toList)
    (done : List Token) :
    written.foldlM Scan.step ⟨done, .between⟩ = some ⟨string (some s) :: done, .between⟩ := by
  obtain ⟨pieces, rfl, hpieces⟩ := h
  obtain ⟨letters, hletters, hread⟩ := exists_foldlM_chars hpieces done []
  rw [List.append_nil] at hread
  change (pieces.flatten ++ ['\x22']).foldlM Scan.step ⟨done, .string []⟩ = _
  rw [List.foldlM_append, hread]
  simp [Scan.step, Letter.spell_flatten hletters]

/-- The scanner finds these tokens in the text when it comes to it between tokens, and all of them
have values. -/
structure Scans (text : List Char) (tokens : List Token) : Prop where
  reads : ∀ done, ∃ scan : Scan, text.foldlM Scan.step ⟨done, .between⟩ = some scan ∧
    scan.settle = some (tokens.reverse ++ done)
  valued : ∀ token ∈ tokens, token.hasValue = true

theorem Scan.step_of_settle {scan : Scan} {done : List Token} {c : Char}
    (h : scan.settle = some done) (hnumber : isNumberChar c = false) (hword : c.isLower = false) :
    scan.step c = start done c := by
  obtain ⟨before, mode⟩ := scan
  cases mode with
  | between =>
    cases h
    rfl
  | number read => simp [step, hnumber, h]
  | word read => simp [step, hword, h]
  | string read => cases h
  | escape read => cases h
  | hex read left value => cases h

theorem Scan.start_punctuation {c : Char} {token : Token} (h : punctuation? c = some token)
    (done : List Token) : start done c = some ⟨token :: done, .between⟩ := by
  unfold punctuation? at h
  split at h <;> cases h <;> rfl

theorem ends_of_punctuation {c : Char} {token : Token} (h : punctuation? c = some token) :
    isNumberChar c = false ∧ c.isLower = false ∧ token.hasValue = true := by
  unfold punctuation? at h
  split at h <;> cases h <;> decide

end Token

def Spaces (text : List Char) : Prop :=
  ∀ c ∈ text, c = ' ' ∨ c = '\t' ∨ c = '\n' ∨ c = '\r'

def Spaced (core : List Char → Prop) (text : List Char) : Prop :=
  ∃ left middle right, text = left ++ (middle ++ right) ∧ Spaces left ∧ core middle ∧ Spaces right

namespace Token

theorem foldlM_spaces {spaces : List Char} (h : Spaces spaces) (done : List Token) :
    spaces.foldlM Scan.step ⟨done, .between⟩ = some ⟨done, .between⟩ := by
  induction spaces with
  | nil => rfl
  | cons c rest ih =>
    obtain ⟨hc, hrest⟩ := List.forall_mem_cons.1 h
    rw [List.foldlM_cons, Scan.step]
    rcases hc with rfl | rfl | rfl | rfl <;> exact ih hrest

namespace Scans

variable {text rest : List Char} {tokens more : List Token} {c : Char} {token : Token}

theorem nil : Scans [] [] :=
  ⟨fun done => ⟨⟨done, .between⟩, rfl, rfl⟩, nofun⟩

theorem ofText {s : String} (h : SpellsText text s.toList) : Scans text [.string (some s)] :=
  ⟨fun done => ⟨_, foldlM_text h done, rfl⟩, by simp [hasValue]⟩

theorem spaces (h : Spaces text) : Scans text [] :=
  ⟨fun done => ⟨_, foldlM_spaces h done, rfl⟩, nofun⟩

theorem append_punctuation (h : Scans text tokens) (hc : punctuation? c = some token)
    (hrest : Scans rest more) : Scans (text ++ c :: rest) (tokens ++ token :: more) := by
  obtain ⟨hnumber, hword, hvalue⟩ := ends_of_punctuation hc
  refine ⟨?_, ?_⟩
  · intro done
    obtain ⟨scan, hscan, hsettle⟩ := h.reads done
    obtain ⟨last, hlast, hend⟩ := hrest.reads (token :: (tokens.reverse ++ done))
    refine ⟨last, ?_, ?_⟩
    · rw [List.foldlM_append, hscan]
      change (c :: rest).foldlM Scan.step scan = _
      rw [List.foldlM_cons, Scan.step_of_settle hsettle hnumber hword, Scan.start_punctuation hc]
      exact hlast
    · rw [hend]
      simp
  · intro found hfound
    rcases List.mem_append.1 hfound with hfound | hfound
    · exact h.valued found hfound
    · rcases List.mem_cons.1 hfound with rfl | hfound
      · exact hvalue
      · exact hrest.valued found hfound

theorem punctuation (hc : punctuation? c = some token) (h : Scans rest more) :
    Scans (c :: rest) (token :: more) :=
  nil.append_punctuation hc h

theorem append_spaces (h : Scans text tokens) (hspaces : Spaces rest) :
    Scans (text ++ rest) tokens := by
  refine ⟨?_, h.valued⟩
  intro done
  obtain ⟨scan, hscan, hsettle⟩ := h.reads done
  cases rest with
  | nil => exact ⟨scan, by rw [List.append_nil, hscan], hsettle⟩
  | cons c rest =>
    obtain ⟨hc, hrest⟩ := List.forall_mem_cons.1 hspaces
    have hstep : scan.step c = some ⟨tokens.reverse ++ done, .between⟩ := by
      rcases hc with rfl | rfl | rfl | rfl <;> exact Scan.step_of_settle hsettle rfl rfl
    refine ⟨⟨tokens.reverse ++ done, .between⟩, ?_, rfl⟩
    rw [List.foldlM_append, hscan]
    change (c :: rest).foldlM Scan.step scan = _
    rw [List.foldlM_cons, hstep]
    exact foldlM_spaces hrest _

theorem spaces_append (hspaces : Spaces text) (h : Scans rest tokens) :
    Scans (text ++ rest) tokens := by
  refine ⟨?_, h.valued⟩
  intro done
  rw [List.foldlM_append, foldlM_spaces hspaces]
  exact h.reads done

theorem spaced {core : List Char → Prop} (hcore : ∀ middle, core middle → Scans middle tokens)
    (h : Spaced core text) : Scans text tokens := by
  obtain ⟨left, middle, right, rfl, hleft, hmiddle, hright⟩ := h
  exact spaces_append hleft ((hcore middle hmiddle).append_spaces hright)

theorem scan?_eq (h : Scans text tokens) : scan? text = some tokens := by
  obtain ⟨scan, hscan, hsettle⟩ := h.reads []
  rw [scan?, hscan]
  change (do let done ← scan.settle; some done.reverse) = _
  rw [hsettle]
  simp

end Scans

end Token

mutual

def Value.tokens : Value → List Token
  | .null => [.null]
  | .bool b => [.bool b]
  | .number n => [.number n]
  | .string content => [.string content]
  | .array elements => .arrayStart :: (elementTokens elements ++ [.arrayEnd])
  | .object members => .objectStart :: (memberTokens members ++ [.objectEnd])

def elementTokens : List Value → List Token
  | [] => []
  | [v] => v.tokens
  | v :: rest => v.tokens ++ .comma :: elementTokens rest

def memberTokens : List (Content × Value) → List Token
  | [] => []
  | [(name, v)] => .string name :: .colon :: v.tokens
  | (name, v) :: rest => .string name :: .colon :: (v.tokens ++ .comma :: memberTokens rest)

end

/-- A string in quotes that has the content. -/
def StringLayout (content : Content) (text : List Char) : Prop :=
  ∃ s, content = some s ∧ SpellsText text s.toList

mutual

/-- The texts that spell a value. -/
def Value.Layout : Value → List Char → Prop
  | .null, text => text = "null".toList
  | .bool true, text => text = "true".toList
  | .bool false, text => text = "false".toList
  | .number _, _ => False
  | .string content, text => StringLayout content text
  | .array elements, text =>
    ∃ inner, text = '[' :: (inner ++ [']']) ∧ ElementsLayout elements inner
  | .object members, text =>
    ∃ inner, text = '\x7b' :: (inner ++ ['\x7d']) ∧ MembersLayout members inner

def ElementsLayout : List Value → List Char → Prop
  | [], text => Spaces text
  | [v], text => Spaced v.Layout text
  | v :: rest, text => ∃ first others, text = first ++ ',' :: others ∧ Spaced v.Layout first ∧
      ElementsLayout rest others

def MembersLayout : List (Content × Value) → List Char → Prop
  | [], text => Spaces text
  | [(name, v)], text => ∃ named value, text = named ++ ':' :: value ∧
      Spaced (StringLayout name) named ∧ Spaced v.Layout value
  | (name, v) :: rest, text => ∃ named value others, text = named ++ ':' :: (value ++ ',' :: others) ∧
      Spaced (StringLayout name) named ∧ Spaced v.Layout value ∧ MembersLayout rest others

end

open Token

theorem scans_string {content : Content} {text : List Char} (h : StringLayout content text) :
    Scans text [.string content] := by
  obtain ⟨s, rfl, hspells⟩ := h
  exact .ofText hspells

mutual

theorem scans_layout : (v : Value) → ∀ {text}, v.Layout text → Scans text v.tokens
  | .null, text, h => by
    -- A word is still open where it ends, and only settled by what follows.
    subst h
    exact ⟨fun done => ⟨⟨done, .word "llun".toList⟩, rfl, rfl⟩, by simp [Value.tokens, hasValue]⟩
  | .bool true, text, h => by
    subst h
    exact ⟨fun done => ⟨⟨done, .word "eurt".toList⟩, rfl, rfl⟩, by simp [Value.tokens, hasValue]⟩
  | .bool false, text, h => by
    subst h
    exact ⟨fun done => ⟨⟨done, .word "eslaf".toList⟩, rfl, rfl⟩, by simp [Value.tokens, hasValue]⟩
  | .number n, text, h => h.elim
  | .string content, text, h => scans_string h
  | .array elements, text, h => by
    obtain ⟨inner, rfl, hinner⟩ := h
    exact .punctuation rfl ((scans_elements elements hinner).append_punctuation rfl .nil)
  | .object members, text, h => by
    obtain ⟨inner, rfl, hinner⟩ := h
    exact .punctuation rfl ((scans_members members hinner).append_punctuation rfl .nil)

theorem scans_elements : (elements : List Value) → ∀ {text}, ElementsLayout elements text →
    Scans text (elementTokens elements)
  | [], text, h => .spaces h
  | [v], text, h => .spaced (fun _ => scans_layout v) h
  | v :: next :: rest, text, h => by
    obtain ⟨first, others, rfl, hfirst, hothers⟩ := h
    have hv := Scans.spaced (fun _ => scans_layout v) hfirst
    exact hv.append_punctuation rfl (scans_elements (next :: rest) hothers)

theorem scans_members : (members : List (Content × Value)) → ∀ {text}, MembersLayout members text →
    Scans text (memberTokens members)
  | [], text, h => .spaces h
  | [(name, v)], text, h => by
    obtain ⟨named, value, rfl, hname, hvalue⟩ := h
    have hv := Scans.spaced (fun _ => scans_layout v) hvalue
    exact (Scans.spaced (fun _ => scans_string) hname).append_punctuation rfl hv
  | (name, v) :: next :: rest, text, h => by
    obtain ⟨named, value, others, rfl, hname, hvalue, hothers⟩ := h
    have hv := Scans.spaced (fun _ => scans_layout v) hvalue
    have hrest := hv.append_punctuation (c := ',') rfl (scans_members (next :: rest) hothers)
    exact (Scans.spaced (fun _ => scans_string) hname).append_punctuation rfl hrest

end

end SecretEnv.Json
