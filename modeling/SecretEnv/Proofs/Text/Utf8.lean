import Mathlib.Tactic.SplitIfs
import SecretEnv.Text

/-! What decoding makes of encoded text. It gives the text back, and it does so wherever the bytes
of the text stand: the first byte of a character never goes on with what came before, so broken
sequences around a text cannot reach into it. -/
namespace SecretEnv.Text.Utf8

private theorem toList_loop (bytes : ByteArray) (i : Nat) (read : List UInt8) :
    ByteArray.toList.loop bytes i read = read.reverse ++ bytes.data.toList.drop i := by
  fun_induction ByteArray.toList.loop bytes i read with
  | case1 i read hlt ih =>
    have hlength : i < bytes.data.toList.length := by simpa using hlt
    have hbyte : bytes.get! i = bytes.data[i]! := by
      cases bytes
      rfl
    rw [ih, List.drop_eq_getElem_cons hlength, hbyte, getElem!_pos bytes.data i hlt]
    simp
  | case2 i read hlt =>
    rw [List.drop_eq_nil_of_le (by simpa using Nat.le_of_not_lt hlt)]
    simp

theorem encode_eq (text : String) : encode text = text.toList.flatMap String.utf8EncodeChar := by
  have hbytes : text.toByteArray = (text.toList.flatMap String.utf8EncodeChar).toByteArray := by
    conv => lhs; rw [← String.ofList_toList (s := text)]
    rfl
  rw [encode, String.toUTF8_eq_toByteArray, hbytes, ByteArray.toList, toList_loop]
  simp

@[simp] theorem encode_append (left right : String) :
    encode (left ++ right) = encode left ++ encode right := by
  simp [encode_eq]

@[simp] theorem piecesFrom_cons (pending : Option Pending) (byte : UInt8) (rest : List UInt8) :
    piecesFrom pending (byte :: rest) =
      (step pending byte.toNat).1 ++ piecesFrom (step pending byte.toNat).2 rest := rfl

theorem toNat_ofNat {n : Nat} (h : n < 0x100) : (UInt8.ofNat n).toNat = n := by
  rw [UInt8.toNat_ofNat', Nat.mod_eq_of_lt h]

section Bytes

variable (rest : List UInt8) {value low high more digit : Nat}

private theorem piecesFrom_one (h : value < 0x80) :
    piecesFrom none (UInt8.ofNat value :: rest) = some (Char.ofNat value) :: piecesFrom none rest := by
  rw [piecesFrom_cons, toNat_ofNat (by omega), step, start, if_pos h]
  rfl

private theorem piecesFrom_begin {byte : Nat} {pending : Pending} (hbyte : byte < 0x100)
    (h : start byte = ([], some pending)) :
    piecesFrom none (UInt8.ofNat byte :: rest) = piecesFrom (some pending) rest := by
  rw [piecesFrom_cons, toNat_ofNat hbyte, step, h]
  rfl

theorem start_two (hleast : 2 ≤ value) (hmost : value < 0x20) :
    start (value + 0xC0) = ([], some ⟨value, 0x80, 0xBF, 0⟩) := by
  grind [start]

theorem start_three (h : value < 0x10) : start (value + 0xE0) = ([], some ⟨value,
    if value = 0 then 0xA0 else 0x80, if value = 0xD then 0x9F else 0xBF, 1⟩) := by
  grind [start]

theorem start_four (h : value < 5) : start (value + 0xF0) = ([], some ⟨value,
    if value = 0 then 0x90 else 0x80, if value = 4 then 0x8F else 0xBF, 2⟩) := by
  grind [start]

private theorem piecesFrom_inner (hdigit : digit < 0x40) (hlow : low ≤ digit + 0x80)
    (hhigh : digit + 0x80 ≤ high) :
    piecesFrom (some ⟨value, low, high, more + 1⟩) (UInt8.ofNat (digit + 0x80) :: rest) =
      piecesFrom (some ⟨value * 0x40 + digit, 0x80, 0xBF, more⟩) rest := by
  rw [piecesFrom_cons, toNat_ofNat (by omega), step, if_pos ⟨hlow, hhigh⟩, Nat.add_sub_cancel]
  rfl

private theorem piecesFrom_last (hdigit : digit < 0x40) (hlow : low ≤ digit + 0x80)
    (hhigh : digit + 0x80 ≤ high) :
    piecesFrom (some ⟨value, low, high, 0⟩) (UInt8.ofNat (digit + 0x80) :: rest) =
      some (Char.ofNat (value * 0x40 + digit)) :: piecesFrom none rest := by
  rw [piecesFrom_cons, toNat_ofNat (by omega), step, if_pos ⟨hlow, hhigh⟩, Nat.add_sub_cancel]
  rfl

@[simp] theorem piecesFrom_encodeChar (c : Char) :
    piecesFrom none (String.utf8EncodeChar c ++ rest) = some c :: piecesFrom none rest := by
  have hc : Char.ofNat c.val.toNat = c := Char.ofNat_toNat c
  have hvalid : c.val.toNat < 0xD800 ∨ (0xDFFF < c.val.toNat ∧ c.val.toNat < 0x110000) := c.valid
  unfold String.utf8EncodeChar
  generalize c.val.toNat = v at hc hvalid
  dsimp only
  -- The ranges of the first digit are what rules out second forms and surrogates.
  split_ifs <;> simp only [List.cons_append, List.nil_append]
  · rw [piecesFrom_one _ (by omega), hc]
  · rw [piecesFrom_begin _ (by omega) (start_two (by omega) (by omega)),
      piecesFrom_last _ (by omega) (by omega) (by omega)]
    rw [← hc]
    congr 3
    omega
  · rw [piecesFrom_begin _ (by omega) (start_three (by omega)),
      piecesFrom_inner _ (by omega) (by split_ifs <;> omega) (by split_ifs <;> omega),
      piecesFrom_last _ (by omega) (by omega) (by omega)]
    rw [← hc]
    congr 3
    omega
  · rw [piecesFrom_begin _ (by omega) (start_four (by omega)),
      piecesFrom_inner _ (by omega) (by split_ifs <;> omega) (by split_ifs <;> omega),
      piecesFrom_inner _ (by omega) (by omega) (by omega),
      piecesFrom_last _ (by omega) (by omega) (by omega)]
    rw [← hc]
    congr 3
    omega

end Bytes

@[simp] theorem piecesFrom_encode (text : List Char) (rest : List UInt8) :
    piecesFrom none (text.flatMap String.utf8EncodeChar ++ rest) =
      text.map some ++ piecesFrom none rest := by
  induction text with
  | nil => rfl
  | cons c text ih => rw [List.flatMap_cons, List.append_assoc, piecesFrom_encodeChar, ih]; rfl

@[simp] theorem decodeLossy_encode (text : String) : decodeLossy (encode text) = text.toList := by
  have hpieces := piecesFrom_encode text.toList []
  rw [List.append_nil, ← encode_eq] at hpieces
  rw [decodeLossy, pieces, hpieces]
  simp [piecesFrom, Function.comp_def]

def Waits (pending : Option Pending) : Prop :=
  ∀ p, pending = some p → 0x80 ≤ p.low ∧ p.high ≤ 0xBF

@[simp] theorem waits_none : Waits none := nofun

theorem waits_start (byte : Nat) : Waits (start byte).2 := by
  grind [Waits, start]

theorem waits_step (pending : Option Pending) (byte : Nat) : Waits (step pending byte).2 := by
  match pending with
  | none => exact waits_start byte
  | some ⟨value, low, high, more⟩ =>
    rw [step]
    split
    · cases more with
      | zero => exact waits_none
      | succ more => simp [Waits]
    · exact waits_start byte

theorem exists_piecesFrom_append {pending : Option Pending} (h : Waits pending)
    (before rest : List UInt8) : ∃ pieces left, Waits left ∧
      piecesFrom pending (before ++ rest) = pieces ++ piecesFrom left rest := by
  induction before generalizing pending with
  | nil => exact ⟨[], pending, h, rfl⟩
  | cons byte before ih =>
    obtain ⟨pieces, left, hleft, heq⟩ := ih (waits_step pending byte.toNat)
    refine ⟨(step pending byte.toNat).1 ++ pieces, left, hleft, ?_⟩
    rw [List.cons_append, piecesFrom_cons, heq, List.append_assoc]

theorem exists_head_encodeChar (c : Char) : ∃ byte tail, String.utf8EncodeChar c = byte :: tail ∧
    (byte.toNat < 0x80 ∨ 0xBF < byte.toNat) := by
  unfold String.utf8EncodeChar
  dsimp only
  split_ifs <;> refine ⟨_, _, rfl, ?_⟩ <;> rw [toNat_ofNat (by omega)] <;> omega

theorem exists_piecesFrom_encodeChar {pending : Option Pending} (h : Waits pending) (c : Char)
    (rest : List UInt8) : ∃ broken, piecesFrom pending (String.utf8EncodeChar c ++ rest) =
      broken ++ piecesFrom none (String.utf8EncodeChar c ++ rest) := by
  obtain ⟨byte, tail, hc, hhead⟩ := exists_head_encodeChar c
  match pending with
  | none => exact ⟨[], rfl⟩
  | some ⟨value, low, high, more⟩ =>
    obtain ⟨hlow, hhigh⟩ := h _ rfl
    dsimp only at hlow hhigh
    refine ⟨[none], ?_⟩
    have hstep : step (some ⟨value, low, high, more⟩) byte.toNat =
        (none :: (start byte.toNat).1, (start byte.toNat).2) := if_neg (by omega)
    rw [hc, List.cons_append, piecesFrom_cons, hstep]
    rfl

/-- The bytes of a text are decoded as the text wherever they stand, between any bytes. -/
theorem infix_decodeLossy {text : String} {bytes : List UInt8} (h : encode text <:+: bytes) :
    text.toList <:+: decodeLossy bytes := by
  obtain ⟨before, after, rfl⟩ := h
  rw [encode_eq]
  cases htext : text.toList with
  | nil => exact List.nil_infix
  | cons c rest =>
    obtain ⟨pieces, left, hleft, hbefore⟩ := exists_piecesFrom_append waits_none before
      ((c :: rest).flatMap String.utf8EncodeChar ++ after)
    obtain ⟨broken, hbroken⟩ := exists_piecesFrom_encodeChar hleft c
      (rest.flatMap String.utf8EncodeChar ++ after)
    rw [← List.append_assoc, ← List.flatMap_cons, piecesFrom_encode] at hbroken
    rw [decodeLossy, Utf8.pieces, List.append_assoc, hbefore, hbroken]
    refine ⟨(pieces ++ broken).map (·.getD '\uFFFD'),
      (piecesFrom none after).map (·.getD '\uFFFD'), ?_⟩
    simp [Function.comp_def]

end SecretEnv.Text.Utf8
