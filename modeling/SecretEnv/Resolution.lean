import SecretEnv.Run
import SecretEnv.Source
import SecretEnv.Vault

/-!
Resolution turns expressions into an environment. Lookups are the questions that expressions put to
a vault. Every lookup is made, whatever became of the others, and then there is either a value for
every key or the list of all failures, in the order of the expressions. In which order the calls
ended does not show. Queries are what users of a vault ask of it, one after another.
-/
namespace SecretEnv

structure LookupFailure where
  key : String
  message : String
  deriving DecidableEq, Repr

structure Lookup where
  key : String
  location : Location
  /-- Whether the name looked up is written beside the key. -/
  viaReference : Bool
  deriving DecidableEq, Repr

namespace Lookup

def ofExpression? (e : Expression) : Option Lookup :=
  e.location?.map fun location => ⟨e.key, location, e.rule.kind == .reference⟩

def missingMessage (lookup : Lookup) : String :=
  match lookup.location with
  | .field item label => "No field \"" ++ label ++ "\" found in item \"" ++ item ++ "\""
  | .item name =>
    if lookup.viaReference then "No item found for reference " ++ name
    else "No item found for " ++ name

@[simp] def conclude (lookup : Lookup) :
    Except VaultError (Option Secret) → Except LookupFailure (String × String)
  | .ok (some secret) => .ok (lookup.key, secret.value)
  | .ok none => .error ⟨lookup.key, lookup.missingMessage⟩
  | .error error => .error ⟨lookup.key, error.message⟩

def run {μ : Type} (service : Service μ) (lookup : Lookup) :
    Marked μ (Except LookupFailure (String × String)) :=
  (service lookup.location).map lookup.conclude

end Lookup

abbrev Environment := KeySorted (Prod.fst : String × String → String)

structure FailedLookups where
  failures : List LookupFailure
  deriving DecidableEq, Repr

def FailedLookups.message (failed : FailedLookups) : String :=
  "Failed to load " ++ toString failed.failures.length ++ " secret(s):\n"
    ++ "\n".intercalate (failed.failures.map fun failure => "- " ++ failure.message)

structure Resolution (μ : Type) where
  outcome : Except FailedLookups Environment
  /-- What the calls to the vault did as they began and ended. -/
  events : List (Event μ)

namespace Resolution

variable {μ : Type}

def calls (resolution : Resolution μ) : List μ :=
  resolution.events.filterMap Event.begun?

def literals (expressions : List Expression) : List (String × String) :=
  expressions.filterMap fun e =>
    match e.rule with
    | .literal text => some (e.key, text)
    | _ => none

def lookups (expressions : List Expression) : List Lookup :=
  expressions.filterMap Lookup.ofExpression?

def failure? {α : Type} : Except LookupFailure α → Option LookupFailure
  | .ok _ => none
  | .error failure => some failure

/-- A looked-up value stands over a literal of the same key, and a later one over an earlier one. -/
def settle (expressions : List Expression)
    (outcomes : List (Except LookupFailure (String × String))) :
    Except FailedLookups Environment :=
  match outcomes.filterMap failure? with
  | [] => .ok (.ofList (literals expressions ++ outcomes.filterMap Except.toOption))
  | failures => .error ⟨failures⟩

def arrange {β : Type} (count : Nat) (arrived : List (Nat × β)) : List β :=
  (List.range count).filterMap fun position => arrived.lookup position

abbrev Placed := Lookup × Nat

def run (schedule : Schedule) (timing : Timing Placed) (lookups : List Lookup) :
    List (Event Placed) :=
  (Run.ofGroups (schedule.groups lookups.zipIdx)).events timing

def through (schedule : Schedule) (timing : Timing Placed) (service : Service μ)
    (expressions : List Expression) : Resolution μ :=
  let lookups := lookups expressions
  let events := run schedule timing lookups
  let answer (placed : Placed) := placed.1.run service
  let arrived := (events.filterMap Event.ended?).map fun placed =>
    (placed.2, (answer placed).result)
  { outcome := settle expressions (arrange lookups.length arrived)
    events := events.flatMap (Event.spread fun placed => (answer placed).marks) }

def resolve (schedule : Schedule) (timing : Timing Placed) (vault : Vault)
    (expressions : List Expression) : Resolution Location :=
  through schedule timing vault.recorded expressions

end Resolution

inductive Query where
  | look (location : Location)
  | resolve (text : String) (schedule : Schedule)
  deriving DecidableEq, Repr

inductive Reply where
  | found (secret : Except VaultError (Option Secret))
  | resolved (outcome : Except FailedLookups Environment)
  | misread (error : LineError)

def Query.serve {μ : Type} (timing : Timing Resolution.Placed) (service : Service μ) :
    Query → Marked μ Reply
  | look location => (service location).map .found
  | resolve text schedule =>
    match Source.parse text with
    | .error error => .silent (.misread error)
    | .ok bindings =>
      let resolution := Resolution.through schedule timing service bindings.toList
      ⟨resolution.calls, .resolved resolution.outcome⟩

end SecretEnv
