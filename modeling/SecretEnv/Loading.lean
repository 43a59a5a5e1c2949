import SecretEnv.Source
import SecretEnv.Text.Quoted

/-!
Loading of sources: files in order, each under its local companion, and inline entries on top. A
later source replaces whole expressions, every source is read on its own, and the first fault ends
the loading. What was read is part of the result, because a fault must not cause further reads.
-/
namespace SecretEnv

/-- Only an absent file is told apart, because only an absent companion may be passed over. -/
inductive ReadError where
  | absent (cause : String)
  | unreadable (cause : String)
  deriving DecidableEq, Repr

def ReadError.cause : ReadError → String
  | absent cause => cause
  | unreadable cause => cause

abbrev Reader := String → Except ReadError String

def Reader.ofTable (files : List (String × Except ReadError String)) : Reader := fun path =>
  (files.lookup path).getD (.error (.absent "not found"))

def companionPath (path : String) : String :=
  path ++ ".local"

inductive LoadError where
  | unreadable (path : String) (error : ReadError)
  | inFile (path : String) (error : LineError)
  | inEntry (entry : String) (error : LineError)
  deriving DecidableEq, Repr

def LoadError.message : LoadError → String
  | unreadable path error => "Failed to read file " ++ path ++ ": " ++ error.cause
  | inFile path error => error.message ++ " (in " ++ path ++ ")"
  | inEntry entry error => error.message ++ " (in entry " ++ Text.quote entry ++ ")"

structure Loading (α : Type) where
  reads : List String
  outcome : Except LoadError α

namespace Loading

variable {α β : Type}

def done (outcome : Except LoadError α) : Loading α :=
  ⟨[], outcome⟩

/-- Goes on with the result of a loading; after a fault nothing more is read. -/
def andThen (loading : Loading α) (next : α → Loading β) : Loading β :=
  match loading.outcome with
  | .error error => ⟨loading.reads, .error error⟩
  | .ok a => ⟨loading.reads ++ (next a).reads, (next a).outcome⟩

instance : Monad Loading where
  pure a := done (.ok a)
  bind := andThen

def required (reader : Reader) (path : String) : Loading String :=
  ⟨[path], (reader path).mapError (.unreadable path)⟩

def optional (reader : Reader) (path : String) : Loading (Option String) :=
  ⟨[path],
    match reader path with
    | .ok text => .ok (some text)
    | .error (.absent _) => .ok none
    | .error error => .error (.unreadable path error)⟩

def parsed (path text : String) : Loading Bindings :=
  done ((Source.parse text).mapError (.inFile path))

def file (reader : Reader) (path : String) : Loading Bindings := do
  parsed path (← required reader path)

def companion (reader : Reader) (path : String) : Loading Bindings := do
  match ← optional reader (companionPath path) with
  | none => return .empty
  | some text => parsed (companionPath path) text

def overlayFile (reader : Reader) (localOverrides : Bool) (merged : Bindings) (path : String) :
    Loading Bindings := do
  let merged := merged.overlay (← file reader path)
  if localOverrides then return merged.overlay (← companion reader path) else return merged

def files (reader : Reader) (localOverrides : Bool) (paths : List String) : Loading Bindings :=
  paths.foldlM (overlayFile reader localOverrides) .empty

end Loading

namespace Bindings

def overlayEntry (base : Bindings) (entry : String) : Except LoadError Bindings :=
  match Source.parseEntry entry with
  | .ok bindings => .ok (base.overlay bindings)
  | .error error => .error (.inEntry entry error)

def overlayEntries (base : Bindings) (entries : List String) : Except LoadError Bindings :=
  entries.foldlM overlayEntry base

end Bindings

def Loading.layers (reader : Reader) (localOverrides : Bool) (paths entries : List String) :
    Loading Bindings := do
  let merged ← Loading.files reader localOverrides paths
  Loading.done (merged.overlayEntries entries)

end SecretEnv
