import SecretEnv.Json.Value

/-!
Tokens of a JSON text. The scanner reads one character at a time and needs no look-ahead: a number
or a word ends with the first character that cannot belong to it. Two such tokens never stand side
by side in a document, so nothing is lost by taking the longest run.
-/
namespace SecretEnv.Json

inductive Token where
  | null
  | bool (b : Bool)
  | number (n : Numeral)
  | string (content : Content)
  | comma
  | colon
  | arrayStart
  | arrayEnd
  | objectStart
  | objectEnd
  deriving DecidableEq, Repr

inductive Letter where
  | char (c : Char)
  | unit (u : Nat)
  deriving DecidableEq, Repr

namespace Letter

def isHighSurrogate (u : Nat) : Bool :=
  0xD800 ≤ u && u < 0xDC00

def isLowSurrogate (u : Nat) : Bool :=
  0xDC00 ≤ u && u < 0xE000

def pair (high low : Nat) : Char :=
  Char.ofNat (0x10000 + (high - 0xD800) * 0x400 + (low - 0xDC00))

/-- Joins surrogate pairs. A surrogate outside a pair spells no text. -/
def spell : List Letter → Option (List Char)
  | [] => some []
  | .char c :: rest => (c :: ·) <$> spell rest
  | .unit u :: .unit v :: rest =>
    if isHighSurrogate u then
      if isLowSurrogate v then (pair u v :: ·) <$> spell rest else none
    else if isLowSurrogate u then none
    else (Char.ofNat u :: ·) <$> spell (.unit v :: rest)
  | .unit u :: rest =>
    if isHighSurrogate u || isLowSurrogate u then none else (Char.ofNat u :: ·) <$> spell rest

end Letter

namespace Token

inductive Mode where
  | between
  | string (read : List Letter)
  | escape (read : List Letter)
  | hex (read : List Letter) (left value : Nat)
  | number (read : List Char)
  | word (read : List Char)
  deriving DecidableEq, Repr

structure Scan where
  done : List Token
  mode : Mode
  deriving DecidableEq, Repr

def isSpace (c : Char) : Bool :=
  c == ' ' || c == '\t' || c == '\n' || c == '\r'

def punctuation? : Char → Option Token
  | ',' => some comma
  | ':' => some colon
  | '[' => some arrayStart
  | ']' => some arrayEnd
  | '\x7b' => some objectStart
  | '\x7d' => some objectEnd
  | _ => none

def isNumberChar (c : Char) : Bool :=
  c.isDigit || c == '-' || c == '+' || c == '.' || c == 'e' || c == 'E'

def word? : List Char → Option Token
  | ['n', 'u', 'l', 'l'] => some null
  | ['t', 'r', 'u', 'e'] => some (bool true)
  | ['f', 'a', 'l', 's', 'e'] => some (bool false)
  | _ => none

def escaped? : Char → Option Char
  | '\x22' => some '\x22'
  | '\\' => some '\\'
  | '/' => some '/'
  | 'b' => some '\x08'
  | 'f' => some '\x0c'
  | 'n' => some '\n'
  | 'r' => some '\r'
  | 't' => some '\t'
  | _ => none

def hexDigit? (c : Char) : Option Nat :=
  if c.isDigit then some (c.toNat - '0'.toNat)
  else if 'a' ≤ c ∧ c ≤ 'f' then some (c.toNat - 'a'.toNat + 10)
  else if 'A' ≤ c ∧ c ≤ 'F' then some (c.toNat - 'A'.toNat + 10)
  else none

def Scan.start (done : List Token) (c : Char) : Option Scan :=
  if isSpace c then some ⟨done, .between⟩
  else match punctuation? c with
    | some token => some ⟨token :: done, .between⟩
    | none =>
      if c = '\x22' then some ⟨done, .string []⟩
      else if c = '-' ∨ c.isDigit then some ⟨done, .number [c]⟩
      else if c.isLower then some ⟨done, .word [c]⟩
      else none

/-- Completes a token that only the next character, or the end of the text, can end. -/
def Scan.settle : Scan → Option (List Token)
  | ⟨done, .between⟩ => some done
  | ⟨done, .number read⟩ => (Numeral.ofChars? read.reverse).map fun n => number n :: done
  | ⟨done, .word read⟩ => (word? read.reverse).map (· :: done)
  | _ => none

def Scan.step (scan : Scan) (c : Char) : Option Scan :=
  match scan.mode with
  | .string read =>
    if c = '\x22' then
      some ⟨string ((Letter.spell read.reverse).map String.ofList) :: scan.done, .between⟩
    else if c = '\\' then some { scan with mode := .escape read }
    else if c.toNat < 0x20 then none
    else some { scan with mode := .string (.char c :: read) }
  | .escape read =>
    if c = 'u' then some { scan with mode := .hex read 4 0 }
    else (escaped? c).map fun letter => { scan with mode := .string (.char letter :: read) }
  | .hex read left value => do
    let value := 16 * value + (← hexDigit? c)
    if left = 1 then some { scan with mode := .string (.unit value :: read) }
    else some { scan with mode := .hex read (left - 1) value }
  | .number read =>
    if isNumberChar c then some { scan with mode := .number (c :: read) }
    else scan.settle.bind (start · c)
  | .word read =>
    if c.isLower then some { scan with mode := .word (c :: read) }
    else scan.settle.bind (start · c)
  | .between => start scan.done c

def scan? (text : List Char) : Option (List Token) := do
  let scan ← text.foldlM Scan.step ⟨[], .between⟩
  let done ← scan.settle
  return done.reverse

def hasValue : Token → Bool
  | string none => false
  | number n => n.fitsDouble
  | _ => true

end Token

end SecretEnv.Json
