import SecretEnv.Loading
import SecretEnv.Text

/-!
A disk of files and directories below a working directory, as far as reading sources can tell. Of
what lies above the working directory nothing is known, so it counts as empty directories. A path
is walked name by name: every name but the last has to be a directory, also before `.` and `..`.
-/
namespace SecretEnv

inductive DiskError where
  | noSuchFile
  | notDirectory
  | isDirectory
  | nameTooLong
  | zeroByte
  | notUtf8
  deriving DecidableEq, Repr

namespace DiskError

def cause : DiskError → String
  | noSuchFile => "No such file or directory (os error 2)"
  | notDirectory => "Not a directory (os error 20)"
  | isDirectory => "Is a directory (os error 21)"
  | nameTooLong => "File name too long (os error 36)"
  | zeroByte => "file name contained an unexpected NUL byte"
  | notUtf8 => "stream did not contain valid UTF-8"

def toReadError : DiskError → ReadError
  | noSuchFile => .absent noSuchFile.cause
  | error => .unreadable error.cause

end DiskError

abbrev Place := List String

inductive DiskEntry where
  | file (bytes : List UInt8)
  | directory
  deriving DecidableEq, Repr

structure Disk where
  entries : List (Place × DiskEntry)

namespace Disk

def empty : Disk :=
  ⟨[]⟩

/-- Where a walk stands: at a place below the working directory, the last name first, or outside. -/
inductive Spot where
  | inside (reversed : List String)
  | outside
  deriving DecidableEq, Repr

def parent : Spot → Spot
  | .inside (_ :: above) => .inside above
  | _ => .outside

def entryAt? (disk : Disk) : Spot → Option DiskEntry
  | .inside [] => some .directory
  | .inside reversed => disk.entries.lookup reversed.reverse
  | .outside => some .directory

def isDirectory (disk : Disk) (spot : Spot) : Bool :=
  disk.entryAt? spot = some .directory

def nameLimit : Nat := 255

def pathLimit : Nat := 4095

/-- The spot that a name leads to, whether or not something is there. -/
def follow (disk : Disk) (spot : Spot) (name : String) : Except DiskError Spot :=
  if !disk.isDirectory spot then
    .error (if (disk.entryAt? spot).isNone then .noSuchFile else .notDirectory)
  else if name = "." then .ok spot
  else if name = ".." then .ok (parent spot)
  else if name.utf8ByteSize > nameLimit then .error .nameTooLong
  else match spot with
    | .inside reversed => .ok (.inside (name :: reversed))
    | .outside => .error .noSuchFile

def names (path : String) : List String × Bool :=
  let pieces := path.toList.splitOn '/'
  ((pieces.filter (· ≠ [])).map String.ofList, pieces.getLast? = some [])

def walk (disk : Disk) (path : String) : Except DiskError Spot :=
  if '\x00' ∈ path.toList then .error .zeroByte
  else if path = "" then .error .noSuchFile
  else if path.utf8ByteSize > pathLimit then .error .nameTooLong
  else
    let origin := if path.toList.head? = some '/' then Spot.outside else .inside []
    (names path).1.foldlM disk.follow origin

def bytes (disk : Disk) (path : String) : Except DiskError (List UInt8) := do
  let spot ← disk.walk path
  match disk.entryAt? spot with
  | none => .error .noSuchFile
  | some .directory => .error .isDirectory
  | some (.file bytes) => if (names path).2 then .error .notDirectory else .ok bytes

def read (disk : Disk) (path : String) : Except DiskError String := do
  match Text.Utf8.decode? (← disk.bytes path) with
  | some text => .ok (String.ofList text)
  | none => .error .notUtf8

def reader (disk : Disk) : Reader := fun path =>
  (disk.read path).mapError DiskError.toReadError

def put (disk : Disk) (place : Place) (entry : DiskEntry) : Disk :=
  ⟨(place, entry) :: disk.entries.filter (·.1 ≠ place)⟩

def write (disk : Disk) (path : String) (bytes : List UInt8) : Except DiskError Disk := do
  match ← disk.walk path with
  | .outside => .error .isDirectory
  | .inside reversed =>
    if disk.isDirectory (.inside reversed) then .error .isDirectory
    else if (names path).2 then .error .notDirectory
    else .ok (disk.put reversed.reverse (.file bytes))

def enter (state : Disk × Spot) (name : String) : Except DiskError (Disk × Spot) := do
  let (disk, spot) := state
  let next ← disk.follow spot name
  match next, disk.entryAt? next with
  | .inside reversed, none => return (disk.put reversed.reverse .directory, next)
  | _, _ => return (disk, next)

def makeDirectory (disk : Disk) (path : String) : Except DiskError Disk := do
  let (disk, _) ← (names path).1.foldlM enter (disk, .inside [])
  return disk

def remove (disk : Disk) (path : String) : Except DiskError Disk := do
  match ← disk.walk path with
  | .outside => .error .isDirectory
  | .inside reversed =>
    return ⟨disk.entries.filter fun entry => !reversed.reverse.isPrefixOf entry.1⟩

end Disk

end SecretEnv
