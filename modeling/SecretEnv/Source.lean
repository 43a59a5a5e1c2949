import SecretEnv.KeySorted
import SecretEnv.Line

/-!
Sources: texts of many lines. Blank lines and comments say nothing, a section header scopes the
lookups below it up to the next header, and a later definition of a key replaces an earlier one as
a whole. One bad line refuses the whole source. What a source says are bindings: at most one
expression a key, in key order.
-/
namespace SecretEnv

abbrev Bindings := KeySorted Expression.key

namespace Bindings

def literalCount (bindings : Bindings) : Nat :=
  bindings.toList.countP Expression.isLiteral

def lookupCount (bindings : Bindings) : Nat :=
  bindings.size - bindings.literalCount

end Bindings

namespace Source

open SecretEnv.Text

def significant (text : List Char) : List (List Char) :=
  ((text.splitOn '\n').map trim).filter fun line => line ≠ [] ∧ line.head? ≠ some '#'

def significantLines (text : String) : List String :=
  (significant text.toList).map String.ofList

structure Progress where
  bindings : Bindings
  item : Option String

def Progress.advance (progress : Progress) (line : String) : Except LineError Progress := do
  match ← Line.section? line with
  | some item => return { progress with item := some item }
  | none =>
    let expression ← Line.expression line progress.item
    return { progress with bindings := progress.bindings.insert expression }

def parseLines (lines : List String) : Except LineError Bindings :=
  Progress.bindings <$> lines.foldlM Progress.advance ⟨.empty, none⟩

def parse (text : String) : Except LineError Bindings :=
  parseLines (significantLines text)

def startsSection (line : String) : Bool :=
  Line.sectionMark.isPrefixOf line.toList

/-- Reads an inline entry. An entry belongs to no section, and a line that starts like a header is
refused before any line is read. -/
def parseEntry (text : String) : Except LineError Bindings :=
  match (significantLines text).find? startsSection with
  | some line => .error (.sectionInEntry line)
  | none => parse text

end Source

end SecretEnv
