import SecretEnv.Loading
import SecretEnv.Resolution
import SecretEnv.Settings

namespace SecretEnv

inductive LoadFailure where
  | sources (error : LoadError)
  | lookups (failed : FailedLookups)
  deriving DecidableEq, Repr

structure Loaded where
  environment : Environment
  literalCount : Nat
  lookupCount : Nat

structure Load where
  reads : List String
  events : List (Event Location)
  outcome : Except LoadFailure Loaded

def Load.calls (load : Load) : List Location :=
  load.events.filterMap Event.begun?

namespace Settings

/-- The bindings of the files, if they are read at all, under the inline entries. -/
def collect (settings : Settings) (reader : Reader) (entries : List String) : Loading Bindings :=
  if settings.readFiles then
    Loading.layers reader settings.localOverrides settings.files entries
  else Loading.done (Bindings.overlayEntries .empty entries)

def load (settings : Settings) (timing : Timing Resolution.Placed) (reader : Reader) (vault : Vault)
    (entries : List String) : Load :=
  let collected := settings.collect reader entries
  match collected.outcome with
  | .error error => ⟨collected.reads, [], .error (.sources error)⟩
  | .ok bindings =>
    let resolution := Resolution.resolve settings.schedule timing vault bindings.toList
    let outcome := match resolution.outcome with
      | .ok environment => .ok ⟨environment, bindings.literalCount, bindings.lookupCount⟩
      | .error failed => .error (.lookups failed)
    ⟨collected.reads, resolution.events, outcome⟩

end Settings

end SecretEnv
