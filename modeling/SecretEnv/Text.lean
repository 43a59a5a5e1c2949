/-!
Texts. Blanks are the Unicode property White_Space: every trimming in this library drops exactly
these characters, so no-break and ideographic spaces count, and zero-width characters do not. Texts
are kept as UTF-8. A byte sequence that cannot go on is cut off where it breaks, and the byte that
broke it begins anew, so the longest possible start of a character counts as one fault and no byte
after it is lost.
-/
namespace SecretEnv.Text

abbrev CodePoints := List (Nat × Nat)

def CodePoints.has (ranges : CodePoints) (c : Char) : Bool :=
  ranges.any fun range => range.1 ≤ c.toNat && c.toNat ≤ range.2

def blankRanges : CodePoints :=
  [(0x09, 0x0D), (0x20, 0x20), (0x85, 0x85), (0xA0, 0xA0), (0x1680, 0x1680), (0x2000, 0x200A),
    (0x2028, 0x2029), (0x202F, 0x202F), (0x205F, 0x205F), (0x3000, 0x3000)]

def isBlank (c : Char) : Bool :=
  blankRanges.has c

def trimStart (text : List Char) : List Char :=
  text.dropWhile isBlank

def trimEnd (text : List Char) : List Char :=
  (text.reverse.dropWhile isBlank).reverse

def trim (text : List Char) : List Char :=
  trimEnd (trimStart text)

def occurs (part : List Char) : List Char → Bool
  | [] => part.isEmpty
  | c :: rest => part.isPrefixOf (c :: rest) || occurs part rest

namespace Utf8

structure Pending where
  value : Nat
  /-- The next byte must lie between these two, so that no character has a second form and no
  surrogate has any. -/
  low : Nat
  high : Nat
  more : Nat
  deriving DecidableEq, Repr

abbrev Piece := Option Char

def start (byte : Nat) : List Piece × Option Pending :=
  if byte < 0x80 then ([some (Char.ofNat byte)], none)
  else if byte < 0xC2 then ([none], none)
  else if byte < 0xE0 then ([], some ⟨byte - 0xC0, 0x80, 0xBF, 0⟩)
  else if byte < 0xF0 then
    ([], some ⟨byte - 0xE0, if byte = 0xE0 then 0xA0 else 0x80, if byte = 0xED then 0x9F else 0xBF, 1⟩)
  else if byte < 0xF5 then
    ([], some ⟨byte - 0xF0, if byte = 0xF0 then 0x90 else 0x80, if byte = 0xF4 then 0x8F else 0xBF, 2⟩)
  else ([none], none)

def step (pending : Option Pending) (byte : Nat) : List Piece × Option Pending :=
  match pending with
  | none => start byte
  | some ⟨value, low, high, more⟩ =>
    if low ≤ byte ∧ byte ≤ high then
      let value := value * 0x40 + (byte - 0x80)
      match more with
      | 0 => ([some (Char.ofNat value)], none)
      | more + 1 => ([], some ⟨value, 0x80, 0xBF, more⟩)
    else
      let (pieces, pending) := start byte
      (none :: pieces, pending)

def piecesFrom (pending : Option Pending) : List UInt8 → List Piece
  | [] => if pending.isSome then [none] else []
  | byte :: rest =>
    let (pieces, pending) := step pending byte.toNat
    pieces ++ piecesFrom pending rest

def pieces (bytes : List UInt8) : List Piece :=
  piecesFrom none bytes

def decode? (bytes : List UInt8) : Option (List Char) :=
  (pieces bytes).mapM id

def decodeLossy (bytes : List UInt8) : List Char :=
  (pieces bytes).map (·.getD '\uFFFD')

def encode (text : String) : List UInt8 :=
  text.toUTF8.toList

end Utf8

end SecretEnv.Text
