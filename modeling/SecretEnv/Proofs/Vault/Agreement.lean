import SecretEnv.Proofs.Resolution.Outcome
import SecretEnv.Proofs.Text.Utf8
import SecretEnv.Proofs.Vault.Item
import SecretEnv.Proofs.Vault.Memory
import SecretEnv.Vault.CommandLine

namespace SecretEnv

open Text

/-- What a program that serves the items leaves behind when it is asked for a name. -/
inductive ProgramOutput.Tells (items : List Item) (name : String) (output : ProgramOutput) : Prop where
  /-- The last item of this title, among blanks. -/
  | found (item : Item) (left right : String) (titled : item.LastTitled items name)
      (left_blank : Blanks left.toList) (right_blank : Blanks right.toList)
      (success : output.failure = none)
      (printed : output.stdout = Utf8.encode (left ++ item.render ++ right))
  /-- Words that hold the marker, and whatever else. -/
  | unknown (status : String) (untitled : ∀ item ∈ items, item.title ≠ name)
      (failure : output.failure = some status)
      (printed : Utf8.encode (.ofList CommandVault.unknownItemMarker) <:+: output.stderr)

namespace CommandVault

/-- The program serves the items under all names that can be arguments. -/
def Serves (self : CommandVault) (items : List Item) : Prop :=
  ∀ name : String, '\x00' ∉ name.toList → ∃ output,
    self.program (arguments self.vault name) = .ok output ∧ output.Tells items name

variable {self : CommandVault} {items : List Item} {name : String} {output : ProgramOutput}

theorem said_encode {left core right : String} (hleft : Blanks left.toList)
    (hright : Blanks right.toList) (hcore : Trimmed core.toList) :
    said (Utf8.encode (left ++ core ++ right)) = core.toList := by
  rw [said, Utf8.decodeLossy_encode]
  exact trim_eq_iff.2 ⟨left.toList, right.toList, hleft, hright, by simp, hcore⟩

theorem readFailure_of_marker {status : String} {stderr : List UInt8}
    (h : Utf8.encode (.ofList unknownItemMarker) <:+: stderr) :
    readFailure status stderr = .ok none := by
  have hinfix := Utf8.infix_decodeLossy h
  rw [String.toList_ofList] at hinfix
  have htrimmed : Trimmed unknownItemMarker := by decide
  -- Neither broken bytes around the marker nor trimming can take it away.
  have hoccurs : occurs unknownItemMarker (said stderr) = true :=
    occurs_iff.2 (infix_trim (by decide) htrimmed hinfix)
  rw [readFailure, if_pos hoccurs]

theorem readOutput_of_tells (h : output.Tells items name) :
    readOutput output = .ok ((MemoryVault.ofItems items).find? name) := by
  cases h with
  | found item left right titled left_blank right_blank success printed =>
    rw [readOutput, success, printed, MemoryVault.find?_ofItems_eq_some_iff.2 titled]
    dsimp only
    rw [readItem, said_encode left_blank right_blank item.trimmed_render, item.readChars?_render]
    rfl
  | unknown status untitled failure printed =>
    rw [readOutput, failure, MemoryVault.find?_ofItems_eq_none_iff.2 untitled]
    exact readFailure_of_marker printed

def script (items : List Item) : List (String × ProgramOutput) :=
  items.reverse.map fun item =>
    (item.title, .ofExitCode 0 (Utf8.encode (" \x85" ++ item.render ++ "\n")) [])

@[simp] theorem lookup_script (items : List Item) (name : String) :
    (script items).lookup name = ((MemoryVault.ofItems items).find? name).map fun item =>
      .ofExitCode 0 (Utf8.encode (" \x85" ++ item.render ++ "\n")) [] := by
  rw [script, MemoryVault.find?, MemoryVault.items_ofItems]
  induction items.reverse with
  | nil => rfl
  | cons item rest ih =>
    rw [List.map_cons, List.lookup_cons, List.find?_cons, BEq.comm]
    cases item.title == name with
    | true => rfl
    | false => exact ih

theorem tells_unknownItem (h : ∀ item ∈ items, item.title ≠ name) :
    (Program.unknownItem name).Tells items name := by
  refine .unknown "exit status: 1" h rfl ?_
  refine ⟨Utf8.encode ("[ERROR] \"" ++ name ++ "\" "),
    Utf8.encode ". Specify the item with its UUID, name, or domain.", ?_⟩
  have hwords : "\" " ++ (.ofList unknownItemMarker ++
      ". Specify the item with its UUID, name, or domain.") =
      "\" isn't an item. Specify the item with its UUID, name, or domain." := by decide
  rw [← Utf8.encode_append, ← Utf8.encode_append, String.append_assoc, String.append_assoc, hwords]
  rfl

theorem serves_script (vault : String) (items : List Item) :
    (⟨vault, .scripted (script items)⟩ : CommandVault).Serves items := by
  intro name _
  refine ⟨((script items).lookup name).getD (Program.unknownItem name), rfl, ?_⟩
  rw [lookup_script]
  cases hfind : (MemoryVault.ofItems items).find? name with
  | none => exact tells_unknownItem (MemoryVault.find?_ofItems_eq_none_iff.1 hfind)
  | some item =>
    exact .found item " \x85" "\n" (MemoryVault.find?_ofItems_eq_some_iff.1 hfind) (by decide)
      (by decide) rfl rfl

theorem start_eq {μ : Type} {vault : String} (command : Command μ)
    (hvault : '\x00' ∉ vault.toList) (hname : '\x00' ∉ name.toList) :
    start command vault name = (command (arguments vault name)).map (·.mapError .system) := by
  rw [start]
  apply if_neg
  simp [arguments, hvault, hname]

theorem answers_eq (hserves : self.Serves items) (hvault : '\x00' ∉ self.vault.toList)
    {location : Location} (hname : '\x00' ∉ location.itemName.toList) :
    self.answers location = (MemoryVault.ofItems items).answers location := by
  obtain ⟨output, hprogram, htells⟩ := hserves location.itemName hname
  have hrun : (self.program.recorded (arguments self.vault location.itemName)).result =
      .ok output := by
    rw [Program.recorded, hprogram]
  rw [answers, Service.answers, service, fetch, start_eq _ hvault hname]
  simp only [Marked.result_map, hrun]
  change (do let item? ← readOutput output; _) = _
  rw [readOutput_of_tells htells]
  rfl

/-- A vault behind a program that serves the items resolves expressions to the same answer as the
items in memory do, the same environment or the same failures. -/
theorem agrees_with_memory (self : CommandVault) (items : List Item) (hserves : self.Serves items)
    (hvault : '\x00' ∉ self.vault.toList) (expressions : List Expression)
    (hnames : ∀ e ∈ expressions, ∀ location, e.Asks location → '\x00' ∉ location.itemName.toList)
    (schedule : Schedule) (timing timing' : Timing Resolution.Placed) :
    (Resolution.resolve schedule timing self.answers expressions).outcome =
      (Resolution.resolve schedule timing' (MemoryVault.ofItems items).answers expressions).outcome := by
  apply Resolution.outcome_congr
  intro location hlocation
  obtain ⟨e, he, hasks⟩ := List.mem_filterMap.1 hlocation
  exact answers_eq hserves hvault
    (hnames e he location (Expression.location?_eq_some_iff.1 hasks))

/-- Of two items with one title the later answers, notes are no secret, and what is not there is
missing, no fault of the program. -/
theorem scripted_program_agrees_with_memory :
    let items : List Item := [⟨"1", "db", [.concealed "KEY" "old"]⟩,
      ⟨"2", "memo", [(ItemField.concealed "notes" "text").withPurpose "NOTES"]⟩,
      ⟨"3", "db", [(ItemField.concealed "notes" "\"\t").withPurpose "NOTES",
        ⟨"", "STRING", none, "KEY", none⟩]⟩]
    let vault : CommandVault := ⟨"dev", .scripted (script items)⟩
    let found : List Expression := [⟨"A", .reference "db" none⟩, ⟨"B", .literal "B"⟩,
      ⟨"NOTES", .reference "notes" (some "db")⟩, ⟨"KEY", .shorthand (some "db")⟩]
    let missing : List Expression := [⟨"MEMO", .reference "memo" none⟩, ⟨"GONE", .shorthand none⟩]
    (Resolution.resolve .primeThenFanOut .inOrder vault.answers found).outcome =
      .ok (.ofList [("A", ""), ("B", "B"), ("KEY", ""), ("NOTES", "\"\t")]) ∧
    (Resolution.resolve .fanOut .inOrder vault.answers (found ++ missing)).outcome =
      .error ⟨[⟨"MEMO", "No item found for reference memo"⟩,
        ⟨"GONE", "No item found for GONE"⟩]⟩ := by
  intro items vault found missing
  have hserves : vault.Serves items := serves_script "dev" items
  have hnames : ∀ e ∈ found ++ missing, ∀ location, e.Asks location →
      '\x00' ∉ location.itemName.toList := by
    simp only [← Expression.location?_eq_some_iff]
    decide
  constructor
  · rw [agrees_with_memory vault items hserves (by decide) found
      (fun e he => hnames e (List.mem_append_left missing he)) .primeThenFanOut .inOrder .inOrder]
    decide +kernel
  · rw [agrees_with_memory vault items hserves (by decide) (found ++ missing) hnames .fanOut
      .inOrder .inOrder]
    decide +kernel

end CommandVault

end SecretEnv
