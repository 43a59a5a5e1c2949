import SecretEnv.Proofs.Resolution.Answer
import SecretEnv.Proofs.Vault.Agreement

/-! Which runs of the program a vault behind it takes: one for every lookup, whatever the runs
before it left behind, with the name of the item as one argument. A field is looked up by fetching
its item. -/
namespace SecretEnv

/-- The item that is fetched for an expression: that of its section, or else the one it names. -/
inductive Expression.Fetches : Expression → String → Prop where
  | reference (key target : String) : Fetches ⟨key, .reference target none⟩ target
  | scopedReference (key target item : String) :
      Fetches ⟨key, .reference target (some item)⟩ item
  | shorthand (key : String) : Fetches ⟨key, .shorthand none⟩ key
  | scopedShorthand (key item : String) : Fetches ⟨key, .shorthand (some item)⟩ item

theorem Expression.Asks.fetches {e : Expression} {location : Location} (h : e.Asks location) :
    e.Fetches location.itemName := by
  cases h with
  | reference key target => exact .reference key target
  | scopedReference key target item => exact .scopedReference key target item
  | shorthand key => exact .shorthand key
  | scopedShorthand key item => exact .scopedShorthand key item

namespace Query

/-- The items that are fetched for a query, in order and as often as each is fetched. -/
inductive Fetches : Query → List String → Prop where
  | item (name : String) : Fetches (.look (.item name)) [name]
  | field (item label : String) : Fetches (.look (.field item label)) [item]
  | misread {text : String} {error : LineError} (bad : Source.parse text = .error error)
      (schedule : Schedule) : Fetches (.resolve text schedule) []
  | resolve {text : String} {bindings : Bindings} {names : List String}
      (good : Source.parse text = .ok bindings)
      (each : List.Forall₂ Expression.Fetches (bindings.toList.filter fun e => !e.isLiteral) names)
      (schedule : Schedule) : Fetches (.resolve text schedule) names

theorem exists_fetches (timing : Timing Resolution.Placed) (query : Query) :
    ∃ locations : List Location, query.Fetches (locations.map Location.itemName) ∧
      ∀ {μ : Type} (service : Service μ), (query.serve timing service).marks =
        locations.flatMap fun location => (service location).marks := by
  cases query with
  | look location =>
    refine ⟨[location], ?_, fun service => by simp [serve]⟩
    cases location with
    | item name => exact .item name
    | field holder label => exact .field holder label
  | resolve text schedule =>
    cases hparse : Source.parse text with
    | error error =>
      exact ⟨[], .misread hparse schedule, fun service => by simp [serve, hparse]⟩
    | ok bindings =>
      refine ⟨(Resolution.lookups bindings.toList).map Lookup.location,
        .resolve hparse ?_ schedule, fun service => ?_⟩
      · rw [List.map_map, List.forall₂_map_right_iff]
        exact (Resolution.asks_lookups bindings.toList).imp fun e lookup h => h.2.fetches
      · simp only [serve, hparse, Resolution.calls_through, List.flatMap_map]

end Query

namespace CommandVault

/-- A query, the timing of its calls, and the program as it behaves in the meantime. -/
structure Occasion where
  program : Program
  timing : Timing Resolution.Placed
  query : Query

def performAll (vault : String) (occasions : List Occasion) : List (Reply × List (List String)) :=
  occasions.map fun occasion =>
    perform occasion.timing ⟨vault, occasion.program⟩ occasion.query

theorem marks_service {μ : Type} (command : Command μ) {vault : String}
    (hvault : '\x00' ∉ vault.toList) {location : Location}
    (hname : '\x00' ∉ location.itemName.toList) :
    (service command vault location).marks =
      (command (arguments vault location.itemName)).marks := by
  rw [service, Marked.marks_map, fetch, Marked.marks_map, start_eq command hvault hname,
    Marked.marks_map]

theorem marks_recorded {program : Program} {arguments : List String} {output : ProgramOutput}
    (h : program arguments = .ok output) : (program.recorded arguments).marks = [arguments] := by
  rw [Program.recorded, h]

theorem flatMap_marks_recorded {program : Program} {lists : List (List String)}
    (h : ∀ arguments, ∃ output, program arguments = .ok output) :
    lists.flatMap (fun arguments => (program.recorded arguments).marks) = lists := by
  conv_rhs => rw [← List.flatMap_singleton' lists]
  apply List.flatMap_congr
  intro arguments _
  obtain ⟨output, houtput⟩ := h arguments
  exact marks_recorded houtput

/-- Each query runs the program once for every item that is fetched for it and not otherwise,
whatever the program prints and however its runs end: what a run does, be it anything, is done that
often. The name of the item is one argument as it stands, and labels are no part of the
arguments. -/
theorem program_runs_once_per_lookup (vault : String) (occasions : List Occasion)
    (hvault : '\x00' ∉ vault.toList)
    (hstarts : ∀ occasion ∈ occasions, ∀ arguments, ∃ output,
      occasion.program arguments = .ok output)
    (hnames : ∀ occasion ∈ occasions, ∀ names, occasion.query.Fetches names →
      ∀ name ∈ names, '\x00' ∉ name.toList) :
    List.Forall₂ (fun occasion shown => ∃ names, occasion.query.Fetches names ∧
        let runs := names.map fun name =>
          ["item", "get", name, "--vault", vault, "--format", "json"]
        shown.2 = runs ∧ ∀ {μ : Type} (command : Command μ),
          (occasion.query.serve occasion.timing (service command vault)).marks =
            runs.flatMap fun run => (command run).marks)
      occasions (performAll vault occasions) := by
  rw [performAll, List.forall₂_map_right_iff, List.forall₂_same]
  intro occasion hoccasion
  obtain ⟨locations, hfetches, hmarks⟩ := occasion.query.exists_fetches occasion.timing
  have hruns : ∀ {μ : Type} (command : Command μ),
      (occasion.query.serve occasion.timing (service command vault)).marks =
        ((locations.map Location.itemName).map (arguments vault)).flatMap fun run =>
          (command run).marks := by
    intro μ command
    rw [hmarks, List.flatMap_map, List.flatMap_map]
    apply List.flatMap_congr
    intro location hlocation
    exact marks_service command hvault
      (hnames occasion hoccasion _ hfetches _ (List.mem_map_of_mem hlocation))
  refine ⟨_, hfetches, ?_, hruns⟩
  exact (hruns _).trans (flatMap_marks_recorded (hstarts occasion hoccasion))

/-- A program that always fails is run again for every lookup, and for none that a bad text would
have made; what looks like an option or a command is the name of an item. -/
theorem failing_program_runs_once_per_lookup :
    let fails : Program := fun _ => .ok ⟨some "exit status: 6", [], []⟩
    let occasions : List Occasion := [⟨fails, .inOrder, .look (.field "name; rm -rf /" "KEY")⟩,
      ⟨fails, .inOrder, .resolve "A\n[item:--vault]\nL='1'\nA=t" .primeThenFanOut⟩,
      ⟨fails, .inOrder, .resolve "A\nno source" .fanOut⟩]
    '\x00' ∉ "team vault".toList ∧
    List.Forall₂ (fun occasion shown => ∃ names, occasion.query.Fetches names ∧
        let runs := names.map fun name =>
          ["item", "get", name, "--vault", "team vault", "--format", "json"]
        shown.2 = runs ∧ ∀ {μ : Type} (command : Command μ),
          (occasion.query.serve occasion.timing (service command "team vault")).marks =
            runs.flatMap fun run => (command run).marks)
      occasions (performAll "team vault" occasions) := by
  intro fails occasions
  refine ⟨by decide, program_runs_once_per_lookup "team vault" occasions (by decide) ?_ ?_⟩
  · intro occasion hoccasion arguments
    simp only [occasions, List.mem_cons, List.not_mem_nil, or_false] at hoccasion
    rcases hoccasion with rfl | rfl | rfl <;> exact ⟨_, rfl⟩
  · intro occasion hoccasion names hfetches
    simp only [occasions, List.mem_cons, List.not_mem_nil, or_false] at hoccasion
    rcases hoccasion with rfl | rfl | rfl
    · cases hfetches
      decide
    · have hparse : Source.parse "A\n[item:--vault]\nL='1'\nA=t" =
          .ok (.ofList [⟨"A", .reference "t" (some "--vault")⟩, ⟨"L", .literal "1"⟩]) := by
        decide +kernel
      cases hfetches with
      | misread bad => cases hparse.symm.trans bad
      | resolve good each =>
        cases hparse.symm.trans good
        cases each with
        | cons hfirst hrest =>
          cases hfirst
          cases hrest
          decide
    · have hparse : Source.parse "A\nno source" = .error (.malformed "no source") := by
        decide +kernel
      cases hfetches with
      | misread bad => nofun
      | resolve good each => cases hparse.symm.trans good

end CommandVault

end SecretEnv
