import SecretEnv.Proofs.Text.Utf8

/-! Lossy decoding, said without the decoder: bytes are taken apart into whole characters and broken
pieces, and there is one way to do so. A broken piece is never longer than it has to be, so a text
without replacement characters is read exactly where its own bytes stand. -/
namespace SecretEnv.Text.Utf8

def StartsChar (bytes : List UInt8) : Prop :=
  ∃ c, bytes <+: String.utf8EncodeChar c

/-- A piece that becomes no character: of what stands there the longest start of a character, or a
byte with which none starts. -/
structure Broken (piece rest : List UInt8) : Prop where
  nonempty : piece ≠ []
  unfinished : ∀ c, ¬ String.utf8EncodeChar c <+: piece ++ rest
  starts : StartsChar piece ∨ piece.length = 1
  longest : ∀ longer, longer <+: piece ++ rest → StartsChar longer → longer.length ≤ piece.length

/-- The text that bytes are read as. -/
inductive Reads : List UInt8 → List Char → Prop where
  | nil : Reads [] []
  | char (c : Char) {rest : List UInt8} {text : List Char} (reads : Reads rest text) :
      Reads (String.utf8EncodeChar c ++ rest) (c :: text)
  /-- A broken piece becomes one replacement character. -/
  | broken {piece rest : List UInt8} {text : List Char} (broken : Broken piece rest)
      (reads : Reads rest text) : Reads (piece ++ rest) ('\uFFFD' :: text)

inductive Started : Nat → List Piece × Option Pending → Prop where
  | broken (byte : Nat) : Started byte ([none], none)
  | one {value : Nat} (most : value < 0x80) : Started value ([some (.ofNat value)], none)
  | two {value : Nat} (least : 2 ≤ value) (most : value < 0x20) :
      Started (value + 0xC0) ([], some ⟨value, 0x80, 0xBF, 0⟩)
  | three {value : Nat} (most : value < 0x10) :
      Started (value + 0xE0) ([], some ⟨value, if value = 0 then 0xA0 else 0x80,
        if value = 0xD then 0x9F else 0xBF, 1⟩)
  | four {value : Nat} (most : value < 5) :
      Started (value + 0xF0) ([], some ⟨value, if value = 0 then 0x90 else 0x80,
        if value = 4 then 0x8F else 0xBF, 2⟩)

theorem started_start (byte : Nat) : Started byte (start byte) := by
  by_cases hone : byte < 0x80
  · rw [start, if_pos hone]
    exact .one hone
  by_cases htwo : 0xC2 ≤ byte ∧ byte < 0xE0
  · obtain ⟨value, rfl⟩ := Nat.exists_eq_add_of_le' (show 0xC0 ≤ byte by omega)
    rw [start_two (by omega) (by omega)]
    exact .two (by omega) (by omega)
  by_cases hthree : 0xE0 ≤ byte ∧ byte < 0xF0
  · obtain ⟨value, rfl⟩ := Nat.exists_eq_add_of_le' hthree.1
    rw [start_three (by omega)]
    exact .three (by omega)
  by_cases hfour : 0xF0 ≤ byte ∧ byte < 0xF5
  · obtain ⟨value, rfl⟩ := Nat.exists_eq_add_of_le' hfour.1
    rw [start_four (by omega)]
    exact .four (by omega)
  · have hbroken : start byte = ([none], none) := by grind [start]
    rw [hbroken]
    exact .broken byte

theorem start_cases (byte : Nat) : (∃ c, start byte = ([some c], none)) ∨
    start byte = ([none], none) ∨ ∃ pending, start byte = ([], some pending) ∧
      pending.low ≤ pending.high ∧ pending.high ≤ 0xBF := by
  have hstarted := started_start byte
  generalize start byte = begun at hstarted ⊢
  cases hstarted with
  | broken => exact .inr (.inl rfl)
  | one => exact .inl ⟨_, rfl⟩
  | two => exact .inr (.inr ⟨_, rfl, by simp⟩)
  | three | four => exact .inr (.inr ⟨_, rfl, by dsimp only; grind⟩)

section Steps

variable {value low high more byte : Nat}

theorem step_last (h : low ≤ byte ∧ byte ≤ high) : step (some ⟨value, low, high, 0⟩) byte =
    ([some (.ofNat (value * 0x40 + (byte - 0x80)))], none) :=
  if_pos h

theorem step_inner (h : low ≤ byte ∧ byte ≤ high) : step (some ⟨value, low, high, more + 1⟩) byte =
    ([], some ⟨value * 0x40 + (byte - 0x80), 0x80, 0xBF, more⟩) :=
  if_pos h

theorem step_outside (h : ¬ (low ≤ byte ∧ byte ≤ high)) :
    step (some ⟨value, low, high, more⟩) byte = (none :: (start byte).1, (start byte).2) :=
  if_neg h

end Steps

theorem pieces_cons (byte : UInt8) (rest : List UInt8) :
    pieces (byte :: rest) = (start byte.toNat).1 ++ piecesFrom (start byte.toNat).2 rest := rfl

theorem piecesFrom_some_ne_nil (pending : Pending) (bytes : List UInt8) :
    piecesFrom (some pending) bytes ≠ [] := by
  induction bytes generalizing pending with
  | nil => nofun
  | cons byte rest ih =>
    obtain ⟨value, low, high, more⟩ := pending
    rw [piecesFrom_cons]
    by_cases hrange : low ≤ byte.toNat ∧ byte.toNat ≤ high
    · cases more with
      | zero =>
        rw [step_last hrange]
        nofun
      | succ more =>
        rw [step_inner hrange]
        exact ih _
    · rw [step_outside hrange]
      nofun

theorem eq_nil_of_pieces {bytes : List UInt8} (h : pieces bytes = []) : bytes = [] := by
  cases bytes with
  | nil => rfl
  | cons byte rest =>
    rw [pieces_cons] at h
    rcases start_cases byte.toNat with ⟨c, hstart⟩ | hstart | ⟨pending, hstart, -⟩ <;>
      rw [hstart] at h
    · cases h
    · cases h
    · exact absurd h (piecesFrom_some_ne_nil pending rest)

theorem exists_completion (value : Nat) {low high : Nat} (more : Nat) (hrange : low ≤ high)
    (hhigh : high ≤ 0xBF) :
    ∃ tail c, piecesFrom (some ⟨value, low, high, more⟩) tail = [some c] := by
  have hlow : (UInt8.ofNat low).toNat = low := toNat_ofNat (by omega)
  induction more generalizing value low high with
  | zero =>
    refine ⟨[.ofNat low], .ofNat (value * 0x40 + (low - 0x80)), ?_⟩
    rw [piecesFrom_cons, hlow, step_last ⟨Nat.le_refl _, hrange⟩]
    rfl
  | succ more ih =>
    obtain ⟨tail, c, htail⟩ := @ih (value * 0x40 + (low - 0x80)) 0x80 0xBF (by omega)
      (Nat.le_refl _) rfl
    refine ⟨.ofNat low :: tail, c, ?_⟩
    rw [piecesFrom_cons, hlow, step_inner ⟨Nat.le_refl _, hrange⟩]
    exact htail

theorem exists_digit {value low high more : Nat} {tail : List UInt8} {c : Char} (hlow : 0x80 ≤ low)
    (h : piecesFrom (some ⟨value, low, high, more⟩) tail = [some c]) :
    ∃ digit rest, tail = .ofNat (digit + 0x80) :: rest ∧ low ≤ digit + 0x80 ∧
      digit + 0x80 ≤ high ∧ (match more with
        | 0 => c = .ofNat (value * 0x40 + digit) ∧ rest = []
        | more + 1 =>
          piecesFrom (some ⟨value * 0x40 + digit, 0x80, 0xBF, more⟩) rest = [some c]) := by
  cases tail with
  | nil => cases h
  | cons byte rest =>
    rw [piecesFrom_cons] at h
    by_cases hrange : low ≤ byte.toNat ∧ byte.toNat ≤ high
    · refine ⟨byte.toNat - 0x80, rest, ?_, by omega, by omega, ?_⟩
      · rw [Nat.sub_add_cancel (by omega), UInt8.ofNat_toNat]
      · cases more with
        | zero =>
          rw [step_last hrange] at h
          obtain ⟨hc, hrest⟩ := List.cons.inj h
          exact ⟨(Option.some.inj hc).symm, eq_nil_of_pieces hrest⟩
        | succ more =>
          rw [step_inner hrange] at h
          exact h
    · rw [step_outside hrange] at h
      cases h

section Digits

variable {v first second third fourth : Nat}

private theorem toNat_val_ofNat (h : v < 0xD800 ∨ 0xDFFF < v ∧ v < 0x110000) :
    (Char.ofNat v).val.toNat = v := by
  rw [Char.ofNat, dif_pos h]
  rfl

theorem utf8EncodeChar_one (h : v < 0x80) : String.utf8EncodeChar (.ofNat v) = [.ofNat v] := by
  unfold String.utf8EncodeChar
  rw [toNat_val_ofNat (by omega)]
  exact if_pos (by omega)

theorem utf8EncodeChar_two (hleast : 2 ≤ first) (hmost : first < 0x20) (hsecond : second < 0x40) :
    String.utf8EncodeChar (.ofNat (first * 0x40 + second)) =
      [.ofNat (first + 0xC0), .ofNat (second + 0x80)] := by
  unfold String.utf8EncodeChar
  rw [toNat_val_ofNat (by omega)]
  generalize hn : first * 0x40 + second = n
  have hdigits : n / 64 % 32 = first ∧ n % 64 = second := by omega
  dsimp only
  rw [if_neg (by omega), if_pos (by omega), hdigits.1, hdigits.2]

theorem utf8EncodeChar_three (hmost : first < 0x10)
    (hlow : (if first = 0 then 0xA0 else 0x80) ≤ second + 0x80)
    (hhigh : second + 0x80 ≤ if first = 0xD then 0x9F else 0xBF) (hthird : third < 0x40) :
    String.utf8EncodeChar (.ofNat ((first * 0x40 + second) * 0x40 + third)) =
      [.ofNat (first + 0xE0), .ofNat (second + 0x80), .ofNat (third + 0x80)] := by
  -- No second form of a shorter character, and no surrogate.
  have hsecond : second < 0x40 ∧ (first = 0 → 0x20 ≤ second) ∧ (first = 0xD → second < 0x20) := by
    grind
  unfold String.utf8EncodeChar
  rw [toNat_val_ofNat (by omega)]
  generalize hn : (first * 0x40 + second) * 0x40 + third = n
  have hdigits : n / 4096 % 16 = first ∧ n / 64 % 64 = second ∧ n % 64 = third := by omega
  dsimp only
  rw [if_neg (by omega), if_neg (by omega), if_pos (by omega), hdigits.1, hdigits.2.1, hdigits.2.2]

theorem utf8EncodeChar_four (hmost : first < 5)
    (hlow : (if first = 0 then 0x90 else 0x80) ≤ second + 0x80)
    (hhigh : second + 0x80 ≤ if first = 4 then 0x8F else 0xBF) (hthird : third < 0x40)
    (hfourth : fourth < 0x40) :
    String.utf8EncodeChar (.ofNat (((first * 0x40 + second) * 0x40 + third) * 0x40 + fourth)) =
      [.ofNat (first + 0xF0), .ofNat (second + 0x80), .ofNat (third + 0x80),
        .ofNat (fourth + 0x80)] := by
  have hsecond : second < 0x40 ∧ (first = 0 → 0x10 ≤ second) ∧ (first = 4 → second < 0x10) := by
    grind
  unfold String.utf8EncodeChar
  rw [toNat_val_ofNat (by omega)]
  generalize hn : ((first * 0x40 + second) * 0x40 + third) * 0x40 + fourth = n
  have hdigits : n / 262144 % 8 = first ∧ n / 4096 % 64 = second ∧ n / 64 % 64 = third ∧
      n % 64 = fourth := by omega
  dsimp only
  rw [if_neg (by omega), if_neg (by omega), if_neg (by omega), hdigits.1, hdigits.2.1,
    hdigits.2.2.1, hdigits.2.2.2]

end Digits

theorem eq_utf8EncodeChar_of_pieces {bytes : List UInt8} {c : Char} (h : pieces bytes = [some c]) :
    bytes = String.utf8EncodeChar c := by
  cases bytes with
  | nil => cases h
  | cons byte tail =>
    have hbyte : byte = .ofNat byte.toNat := byte.ofNat_toNat.symm
    have hstarted := started_start byte.toNat
    rw [pieces_cons] at h
    generalize start byte.toNat = begun at h hstarted
    rw [hbyte]
    generalize byte.toNat = n at hstarted
    cases hstarted with
    | broken => cases h
    | one most =>
      obtain ⟨hc, htail⟩ := List.cons.inj h
      rw [← Option.some.inj hc, utf8EncodeChar_one most, eq_nil_of_pieces htail]
    | two least most =>
      obtain ⟨second, rest, rfl, -, hhigh, rfl, rfl⟩ := exists_digit (Nat.le_refl _) h
      rw [utf8EncodeChar_two least most (by omega)]
    | three most =>
      obtain ⟨second, rest, rfl, hlow, hhigh, h⟩ := exists_digit (by split <;> omega) h
      obtain ⟨third, rest, rfl, -, hthird, rfl, rfl⟩ := exists_digit (Nat.le_refl _) h
      rw [utf8EncodeChar_three most hlow hhigh (by omega)]
    | four most =>
      obtain ⟨second, rest, rfl, hlow, hhigh, h⟩ := exists_digit (by split <;> omega) h
      obtain ⟨third, rest, rfl, -, hthird, h⟩ := exists_digit (Nat.le_refl _) h
      obtain ⟨fourth, rest, rfl, -, hfourth, rfl, rfl⟩ := exists_digit (Nat.le_refl _) h
      rw [utf8EncodeChar_four most hlow hhigh (by omega) (by omega)]

@[simp] theorem pieces_eq_singleton_iff {bytes : List UInt8} {c : Char} :
    pieces bytes = [some c] ↔ bytes = String.utf8EncodeChar c := by
  refine ⟨eq_utf8EncodeChar_of_pieces, ?_⟩
  rintro rfl
  have hpieces := piecesFrom_encodeChar [] c
  rwa [List.append_nil] at hpieces

@[simp] theorem head?_pieces_utf8EncodeChar (c : Char) (rest : List UInt8) :
    (pieces (String.utf8EncodeChar c ++ rest)).head? = some (some c) := by
  rw [pieces, piecesFrom_encodeChar, List.head?_cons]

theorem broken_of_head? {piece rest : List UInt8} (hne : piece ≠ [])
    (hstarts : StartsChar piece ∨ piece.length = 1)
    (h : ∀ tail, tail.head? = rest.head? → (pieces (piece ++ tail)).head? = some none) :
    Broken piece rest := by
  refine ⟨hne, ?_, hstarts, ?_⟩
  · rintro c ⟨after, hsplit⟩
    have hhead := h rest rfl
    rw [← hsplit, head?_pieces_utf8EncodeChar] at hhead
    cases hhead
  · rintro longer ⟨after, hsplit⟩ ⟨c, left, hc⟩
    refine Nat.le_of_not_lt fun hlength => ?_
    obtain ⟨more, rfl⟩ : piece <+: longer :=
      List.prefix_of_prefix_length_le (List.prefix_append _ _) ⟨after, hsplit⟩ (by omega)
    cases more with
    | nil => simp at hlength
    | cons byte more =>
      -- The next byte would belong to a character, and it is the one that breaks the piece.
      rw [List.append_assoc, List.append_cancel_left_eq] at hsplit
      have hhead := h (byte :: more ++ left) (by rw [← hsplit]; rfl)
      rw [← List.append_assoc, hc, ← List.append_nil (String.utf8EncodeChar c),
        head?_pieces_utf8EncodeChar] at hhead
      cases hhead

theorem broken_singleton {byte : UInt8} (h : start byte.toNat = ([none], none))
    (rest : List UInt8) : Broken [byte] rest := by
  refine broken_of_head? (List.cons_ne_nil _ _) (.inr rfl) ?_
  intro tail _
  rw [List.singleton_append, pieces_cons, h]
  rfl

/-- The bytes taken in since the last piece, with what they leave open. -/
structure Underway (taken : List UInt8) (pending : Pending) : Prop where
  silent : ∀ tail, pieces (taken ++ tail) = piecesFrom (some pending) tail
  nonempty : taken ≠ []
  range : pending.low ≤ pending.high ∧ pending.high ≤ 0xBF

theorem underway_start {byte : UInt8} {pending : Pending}
    (h : start byte.toNat = ([], some pending))
    (hrange : pending.low ≤ pending.high ∧ pending.high ≤ 0xBF) : Underway [byte] pending := by
  refine ⟨fun tail => ?_, List.cons_ne_nil _ _, hrange⟩
  rw [List.singleton_append, pieces_cons, h, List.nil_append]

namespace Underway

variable {taken : List UInt8} {byte : UInt8} {value low high more : Nat} {pending : Pending}

theorem pieces_concat (h : Underway taken pending) (byte : UInt8) (tail : List UInt8) :
    pieces (taken ++ [byte] ++ tail) =
      (step (some pending) byte.toNat).1 ++ piecesFrom (step (some pending) byte.toNat).2 tail := by
  rw [List.append_assoc, h.silent, List.singleton_append, piecesFrom_cons]

theorem startsChar (h : Underway taken pending) : StartsChar taken := by
  obtain ⟨tail, c, htail⟩ := exists_completion pending.value pending.more h.range.1 h.range.2
  rw [← h.silent, pieces_eq_singleton_iff] at htail
  exact ⟨c, tail, htail⟩

theorem inner (h : Underway taken ⟨value, low, high, more + 1⟩)
    (hrange : low ≤ byte.toNat ∧ byte.toNat ≤ high) :
    Underway (taken ++ [byte]) ⟨value * 0x40 + (byte.toNat - 0x80), 0x80, 0xBF, more⟩ := by
  refine ⟨fun tail => ?_, by simp, by simp⟩
  rw [h.pieces_concat, step_inner hrange, List.nil_append]

theorem exists_last (h : Underway taken ⟨value, low, high, 0⟩)
    (hrange : low ≤ byte.toNat ∧ byte.toNat ≤ high) :
    ∃ c, taken ++ [byte] = String.utf8EncodeChar c ∧
      step (some ⟨value, low, high, 0⟩) byte.toNat = ([some c], none) := by
  refine ⟨_, ?_, step_last hrange⟩
  have hpieces := h.pieces_concat byte []
  rw [step_last hrange, List.append_nil] at hpieces
  exact eq_utf8EncodeChar_of_pieces hpieces

theorem broken_nil (h : Underway taken pending) : Broken taken [] := by
  refine broken_of_head? h.nonempty (.inl h.startsChar) ?_
  intro tail hhead
  rw [List.head?_nil, List.head?_eq_none_iff] at hhead
  rw [hhead, h.silent]
  rfl

theorem broken_cons (h : Underway taken ⟨value, low, high, more⟩)
    (hrange : ¬ (low ≤ byte.toNat ∧ byte.toNat ≤ high)) (rest : List UInt8) :
    Broken taken (byte :: rest) := by
  refine broken_of_head? h.nonempty (.inl h.startsChar) ?_
  intro tail hhead
  obtain ⟨after, rfl⟩ := List.head?_eq_some_iff.1 hhead
  rw [h.silent, piecesFrom_cons, step_outside hrange]
  rfl

end Underway

def lossy (pieces : List Piece) : List Char :=
  pieces.map (·.getD '\uFFFD')

theorem reads_lossy (bytes : List UInt8) :
    Reads bytes (lossy (pieces bytes)) ∧ ∀ taken pending, Underway taken pending →
      Reads (taken ++ bytes) (lossy (piecesFrom (some pending) bytes)) := by
  induction bytes with
  | nil => exact ⟨.nil, fun taken pending h => .broken h.broken_nil .nil⟩
  | cons byte rest ih =>
    obtain ⟨hbetween, hunderway⟩ := ih
    have hstart : Reads (byte :: rest) (lossy (pieces (byte :: rest))) := by
      rw [pieces_cons]
      rcases start_cases byte.toNat with ⟨c, hstart⟩ | hstart | ⟨pending, hstart, hrange⟩
      · have hc : [byte] = String.utf8EncodeChar c := by
          rw [← pieces_eq_singleton_iff, pieces_cons, hstart]
          rfl
        rw [← List.singleton_append, hc, hstart]
        exact .char c hbetween
      · rw [hstart]
        exact .broken (broken_singleton hstart rest) hbetween
      · rw [hstart]
        exact hunderway [byte] pending (underway_start hstart hrange)
    refine ⟨hstart, ?_⟩
    rintro taken ⟨value, low, high, more⟩ h
    by_cases hrange : low ≤ byte.toNat ∧ byte.toNat ≤ high
    · rw [piecesFrom_cons, ← List.singleton_append, ← List.append_assoc]
      cases more with
      | zero =>
        obtain ⟨c, hc, hstep⟩ := h.exists_last hrange
        rw [hc, hstep]
        exact .char c hbetween
      | succ more =>
        rw [step_inner hrange]
        exact hunderway _ _ (h.inner hrange)
    · -- The byte that breaks the piece starts anew.
      rw [piecesFrom_cons, step_outside hrange]
      exact .broken (h.broken_cons hrange rest) hstart

@[simp] theorem reads_decodeLossy (bytes : List UInt8) : Reads bytes (decodeLossy bytes) :=
  (reads_lossy bytes).1

theorem Broken.length_le {piece other rest after : List UInt8} (h : Broken piece rest)
    (hother : Broken other after) (hsplit : piece ++ rest = other ++ after) :
    other.length ≤ piece.length := by
  rcases hother.starts with hstarts | hone
  · exact h.longest other ⟨after, hsplit.symm⟩ hstarts
  · rw [hone]
    exact List.length_pos_iff.2 h.nonempty

theorem utf8EncodeChar_append_inj {c d : Char} {rest after : List UInt8}
    (h : String.utf8EncodeChar c ++ rest = String.utf8EncodeChar d ++ after) :
    c = d ∧ rest = after := by
  have hhead := head?_pieces_utf8EncodeChar c rest
  rw [h, head?_pieces_utf8EncodeChar] at hhead
  cases hhead
  exact ⟨rfl, List.append_cancel_left h⟩

theorem Reads.eq {bytes : List UInt8} {text other : List Char} (h : Reads bytes text)
    (hother : Reads bytes other) : text = other := by
  induction h generalizing other with
  | nil =>
    generalize hbytes : [] = bytes at hother
    cases hother with
    | nil => rfl
    | char c reads => simp at hbytes
    | broken broken reads => exact absurd (List.append_eq_nil_iff.1 hbytes.symm).1 broken.nonempty
  | @char c rest text reads ih =>
    generalize hbytes : String.utf8EncodeChar c ++ rest = bytes at hother
    cases hother with
    | nil => simp at hbytes
    | char d reads' =>
      obtain ⟨rfl, rfl⟩ := utf8EncodeChar_append_inj hbytes
      rw [ih reads']
    | broken broken reads' => exact absurd ⟨rest, hbytes⟩ (broken.unfinished c)
  | @broken piece rest text broken reads ih =>
    generalize hbytes : piece ++ rest = bytes at hother
    cases hother with
    | nil => exact absurd (List.append_eq_nil_iff.1 hbytes).1 broken.nonempty
    | char d reads' => exact absurd ⟨_, hbytes.symm⟩ (broken.unfinished d)
    | broken broken' reads' =>
      have hlength := Nat.le_antisymm (broken'.length_le broken hbytes.symm)
        (broken.length_le broken' hbytes)
      obtain ⟨rfl, rfl⟩ := List.append_inj hbytes hlength
      rw [ih reads']

theorem reads_iff {bytes : List UInt8} {text : List Char} :
    Reads bytes text ↔ decodeLossy bytes = text := by
  refine ⟨(reads_decodeLossy bytes).eq, ?_⟩
  rintro rfl
  exact reads_decodeLossy bytes

theorem Reads.front {bytes : List UInt8} {text part : List Char} (h : Reads bytes text)
    (hpart : '\uFFFD' ∉ part) (hfront : part <+: text) :
    part.flatMap String.utf8EncodeChar <+: bytes := by
  induction h generalizing part with
  | nil =>
    rw [List.prefix_nil.1 hfront]
    exact List.nil_prefix
  | char c reads ih =>
    cases part with
    | nil => exact List.nil_prefix
    | cons d part =>
      obtain ⟨rfl, hrest⟩ := List.cons_prefix_cons.1 hfront
      rw [List.flatMap_cons, List.prefix_append_right_inj]
      exact ih (fun hin => hpart (List.mem_cons_of_mem _ hin)) hrest
  | broken broken reads ih =>
    cases part with
    | nil => exact List.nil_prefix
    | cons d part =>
      obtain ⟨rfl, -⟩ := List.cons_prefix_cons.1 hfront
      exact absurd List.mem_cons_self hpart

theorem Reads.inside {bytes : List UInt8} {text part : List Char} (h : Reads bytes text)
    (hpart : '\uFFFD' ∉ part) (hinside : part <:+: text) :
    part.flatMap String.utf8EncodeChar <:+: bytes := by
  induction h with
  | nil =>
    rw [List.infix_nil.1 hinside]
    exact List.nil_infix
  | char c reads ih =>
    rcases List.infix_cons_iff.1 hinside with hfront | hinside
    · exact ((Reads.char c reads).front hpart hfront).isInfix
    · exact (ih hinside).trans (List.suffix_append _ _).isInfix
  | broken broken reads ih =>
    rcases List.infix_cons_iff.1 hinside with hfront | hinside
    · exact ((Reads.broken broken reads).front hpart hfront).isInfix
    · exact (ih hinside).trans (List.suffix_append _ _).isInfix

/-- Invalid bytes neither hide a text nor make it up. -/
theorem infix_decodeLossy_iff {text : String} {bytes : List UInt8} (h : '\uFFFD' ∉ text.toList) :
    text.toList <:+: decodeLossy bytes ↔ encode text <:+: bytes := by
  refine ⟨?_, infix_decodeLossy⟩
  intro hinside
  rw [encode_eq]
  exact (reads_decodeLossy bytes).inside h hinside

end SecretEnv.Text.Utf8
