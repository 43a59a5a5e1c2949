/-!
Runs of calls that are issued in groups. All calls of a group are begun before the run waits for
any of them, those under way may end in any order, and a group begins when the one before it has
ended. A call that answers without waiting ends in the moment it begins. Schedules say which calls
make a group: the first call of a run may ask a person to unlock the vault, and priming lets it
finish before any other begins.
-/
namespace SecretEnv

inductive Event (α : Type) where
  | begun (call : α)
  | ended (call : α)
  deriving DecidableEq, Repr

namespace Event

variable {α : Type}

def begun? : Event α → Option α
  | begun call => some call
  | ended _ => none

def ended? : Event α → Option α
  | begun _ => none
  | ended call => some call

def map {β : Type} (f : α → β) : Event α → Event β
  | begun call => begun (f call)
  | ended call => ended (f call)

/-- Calls give way to the calls that they are made of. -/
def spread {β : Type} (f : α → List β) : Event α → List (Event β)
  | begun call => (f call).map begun
  | ended call => (f call).map ended

/-- The calls begun before any call of their group ended, group by group; `group` is the group that
is still growing. -/
def wavesFrom (group : List α) : List (Event α) → List (List α)
  | [] => if group.isEmpty then [] else [group]
  | begun call :: rest => wavesFrom (group ++ [call]) rest
  | ended _ :: rest => if group.isEmpty then wavesFrom [] rest else group :: wavesFrom [] rest

def waves (events : List (Event α)) : List (List α) :=
  wavesFrom [] events

end Event

/-- What is left open about a run: which calls wait before they answer, and at each move which of
the calls under way ends next, the oldest being number zero. -/
structure Timing (α : Type) where
  waits : α → Bool
  picks : Nat → Nat

def Timing.inOrder {α : Type} : Timing α :=
  ⟨fun _ => true, fun _ => 0⟩

def Timing.later {α : Type} (timing : Timing α) : Timing α :=
  { timing with picks := fun move => timing.picks (move + 1) }

structure Run (α : Type) where
  waiting : List α
  underWay : List α
  held : List (List α)

namespace Run

variable {α : Type}

def ofGroups (groups : List (List α)) : Run α :=
  ⟨[], [], groups⟩

def move (timing : Timing α) : Run α → Option (List (Event α) × Run α)
  | ⟨call :: waiting, underWay, held⟩ =>
    if timing.waits call then some ([.begun call], ⟨waiting, underWay ++ [call], held⟩)
    else some ([.begun call, .ended call], ⟨waiting, underWay, held⟩)
  | ⟨[], oldest :: younger, held⟩ =>
    let underWay := oldest :: younger
    let pick := timing.picks 0 % underWay.length
    some ([.ended (underWay.getD pick oldest)], ⟨[], underWay.eraseIdx pick, held⟩)
  | ⟨[], [], group :: held⟩ => some ([], ⟨group, [], held⟩)
  | ⟨[], [], []⟩ => none

def work (run : Run α) : Nat :=
  2 * run.waiting.length + run.underWay.length + 2 * run.held.flatten.length + run.held.length

theorem work_lt_of_move {timing : Timing α} {run next : Run α} {events : List (Event α)}
    (h : run.move timing = some (events, next)) : next.work < run.work := by
  unfold move at h
  split at h
  · split at h
    · cases h
      simp [work]
      omega
    · cases h
      simp [work]
  · next oldest younger held =>
    cases h
    have := Nat.mod_lt (timing.picks 0) (Nat.zero_lt_succ younger.length)
    simp only [work, List.length_eraseIdx]
    split <;> simp_all
  · cases h; simp [work]; omega
  · cases h

def events (timing : Timing α) (run : Run α) : List (Event α) :=
  match _moved : run.move timing with
  | none => []
  | some (shown, next) => shown ++ next.events timing.later
termination_by run.work
decreasing_by exact work_lt_of_move (by assumption)

end Run

inductive Schedule where
  | primeThenFanOut
  | fanOut
  deriving DecidableEq, Repr

namespace Schedule

def name : Schedule → String
  | primeThenFanOut => "prime-then-fan-out"
  | fanOut => "fan-out"

def all : List Schedule :=
  [primeThenFanOut, fanOut]

def ofName? (name : String) : Option Schedule :=
  all.find? (·.name == name)

def groups {α : Type} : Schedule → List α → List (List α)
  | fanOut, calls => [calls]
  | primeThenFanOut, [] => []
  | primeThenFanOut, first :: rest => [[first], rest]

end Schedule

end SecretEnv
