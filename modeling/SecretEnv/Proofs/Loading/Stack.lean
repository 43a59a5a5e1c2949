import SecretEnv.Loading
import SecretEnv.Proofs.KeySorted.Lookup

/-! A load is a stack of layers, each read on its own: every file, over it its companion where there
is one, and the inline entries on top. The stack is read in order, and of each key the uppermost
layer that has it decides. Companions add nothing to what a list of files can say: a file with its
companion is read like two files, although the companion may be absent. -/
namespace SecretEnv

inductive Layer where
  | file (path : String)
  | entry (text : String)
  deriving DecidableEq, Repr

namespace Layer

/-- What a layer says when nothing else is loaded. -/
def read (reader : Reader) : Layer → Except LoadError Bindings
  | file path =>
    match reader path with
    | .error error => .error (.unreadable path error)
    | .ok text => (Source.parse text).mapError (.inFile path)
  | entry text => (Source.parseEntry text).mapError (.inEntry text)

def content (reader : Reader) (layer : Layer) : Bindings :=
  match layer.read reader with
  | .ok bindings => bindings
  | .error _ => .empty

theorem content_of_read {reader : Reader} {layer : Layer} {bindings : Bindings}
    (h : layer.read reader = .ok bindings) : layer.content reader = bindings := by
  rw [content, h]

@[simp] theorem read_file (reader : Reader) (path : String) :
    (file path).read reader = match reader path with
      | .error error => .error (.unreadable path error)
      | .ok text => (Source.parse text).mapError (.inFile path) := rfl

@[simp] theorem read_entry (reader : Reader) (text : String) :
    (entry text).read reader = (Source.parseEntry text).mapError (.inEntry text) := rfl

/-- What a layer says on its own, where every reading succeeds. -/
def Gives (reader : Reader) (layer : Layer) (bindings : Bindings) : Prop :=
  match layer with
  | file path => ∃ text, reader path = .ok text ∧ Source.parse text = .ok bindings
  | entry text => Source.parseEntry text = .ok bindings

private theorem mapError_eq_ok_iff {ε ε' α : Type} {x : Except ε α} {f : ε → ε'} {a : α} :
    x.mapError f = .ok a ↔ x = .ok a := by
  cases x with
  | error error => exact ⟨nofun, nofun⟩
  | ok b => refine ⟨?_, ?_⟩ <;> intro h <;> cases h <;> rfl

theorem read_eq_ok_iff {reader : Reader} {layer : Layer} {bindings : Bindings} :
    layer.read reader = .ok bindings ↔ layer.Gives reader bindings := by
  cases layer with
  | file path =>
    rw [read_file, Gives]
    cases reader path with
    | error error => simp
    | ok text => simp [mapError_eq_ok_iff]
  | entry text => rw [read_entry, Gives, mapError_eq_ok_iff]

theorem exists_gives_iff {reader : Reader} {layer : Layer} :
    (∃ bindings, layer.Gives reader bindings) ↔ (layer.read reader).isOk = true := by
  simp only [← read_eq_ok_iff]
  cases layer.read reader <;> simp [Except.isOk, Except.toBool]

end Layer

namespace Loading

def companions (reader : Reader) (path : String) : List String :=
  match reader (companionPath path) with
  | .error (.absent _) => []
  | _ => [companionPath path]

def filePaths (reader : Reader) (localOverrides : Bool) (paths : List String) : List String :=
  if localOverrides then paths.flatMap fun path => path :: companions reader path
  else paths

/-- The layers of a load, the lowest first. -/
def stack (reader : Reader) (localOverrides : Bool) (paths entries : List String) : List Layer :=
  (filePaths reader localOverrides paths).map .file ++ entries.map .entry

@[simp] theorem outcome_bind {α β : Type} (loading : Loading α) (next : α → Loading β) :
    (loading >>= next).outcome = loading.outcome >>= fun a => (next a).outcome := by
  change (loading.andThen next).outcome = _
  unfold andThen
  cases loading.outcome <;> rfl

theorem outcome_foldlM {α β : Type} (f : β → α → Loading β) (b : β) (list : List α) :
    (list.foldlM f b).outcome = list.foldlM (fun b a => (f b a).outcome) b := by
  induction list generalizing b with
  | nil => rfl
  | cons a rest ih =>
    rw [List.foldlM_cons, List.foldlM_cons, outcome_bind]
    cases (f b a).outcome with
    | error error => rfl
    | ok next => exact ih next

def overlayLayer (reader : Reader) (merged : Bindings) (layer : Layer) :
    Except LoadError Bindings :=
  merged.overlay <$> layer.read reader

@[simp] theorem outcome_file (reader : Reader) (path : String) :
    (file reader path).outcome = (Layer.file path).read reader := by
  change (required reader path >>= parsed path).outcome = _
  rw [outcome_bind, Layer.read_file, required]
  cases reader path <;> rfl

theorem overlay_companion (reader : Reader) (merged : Bindings) (path : String) :
    merged.overlay <$> (companion reader path).outcome =
      ((companions reader path).map .file).foldlM (overlayLayer reader) merged := by
  unfold companion companions
  rw [outcome_bind, optional]
  cases hcompanion : reader (companionPath path) with
  | ok text =>
    rw [List.map_singleton, List.foldlM_cons, overlayLayer, Layer.read_file, hcompanion]
    change merged.overlay <$> (Source.parse text).mapError _ = _
    dsimp only
    cases Source.parse text <;> rfl
  | error error =>
    cases error with
    | absent cause => rfl
    | unreadable cause =>
      rw [List.map_singleton, List.foldlM_cons, overlayLayer, Layer.read_file, hcompanion]
      rfl

theorem outcome_overlayFile (reader : Reader) (localOverrides : Bool) (merged : Bindings)
    (path : String) :
    (overlayFile reader localOverrides merged path).outcome =
      ((filePaths reader localOverrides [path]).map .file).foldlM (overlayLayer reader) merged := by
  unfold overlayFile filePaths
  rw [outcome_bind, outcome_file]
  cases localOverrides with
  | false =>
    change _ = [Layer.file path].foldlM (overlayLayer reader) merged
    rw [List.foldlM_cons, overlayLayer]
    cases (Layer.file path).read reader <;> rfl
  | true =>
    simp only [if_true, List.flatMap_singleton, List.map_cons, List.foldlM_cons,
      ← overlay_companion]
    rw [overlayLayer]
    cases (Layer.file path).read reader with
    | error error => rfl
    | ok base =>
      change (companion reader path >>= _).outcome = _
      rw [outcome_bind]
      cases (companion reader path).outcome <;> rfl

theorem filePaths_cons (reader : Reader) (localOverrides : Bool) (path : String)
    (rest : List String) :
    filePaths reader localOverrides (path :: rest) =
      filePaths reader localOverrides [path] ++ filePaths reader localOverrides rest := by
  cases localOverrides <;> simp [filePaths]

theorem outcome_files (reader : Reader) (localOverrides : Bool) (paths : List String) :
    (files reader localOverrides paths).outcome =
      ((filePaths reader localOverrides paths).map .file).foldlM (overlayLayer reader) .empty := by
  rw [files, outcome_foldlM]
  generalize KeySorted.empty = merged
  induction paths generalizing merged with
  | nil => cases localOverrides <;> rfl
  | cons path rest ih =>
    rw [filePaths_cons, List.map_append, List.foldlM_append, List.foldlM_cons, outcome_overlayFile]
    simp only [ih]

theorem overlayEntries_eq (reader : Reader) (base : Bindings) (entries : List String) :
    base.overlayEntries entries = (entries.map .entry).foldlM (overlayLayer reader) base := by
  rw [Bindings.overlayEntries, List.foldlM_map]
  congr 1
  funext merged entry
  rw [Bindings.overlayEntry, overlayLayer, Layer.read_entry]
  cases Source.parseEntry entry <;> rfl

theorem outcome_layers (reader : Reader) (localOverrides : Bool) (paths entries : List String) :
    (layers reader localOverrides paths entries).outcome =
      (stack reader localOverrides paths entries).foldlM (overlayLayer reader) .empty := by
  unfold layers
  rw [outcome_bind, outcome_files, stack, List.foldlM_append]
  congr 1
  funext merged
  exact overlayEntries_eq reader merged entries

/-- The uppermost layer that has the key gives it this expression. -/
def Uppermost (reader : Reader) (layers : List Layer) (key : String) (e : Expression) : Prop :=
  ∃ below layer above bindings, layers = below ++ layer :: above ∧ layer.Gives reader bindings ∧
    bindings.get? key = some e ∧
    ∀ later ∈ above, ∀ bindings, later.Gives reader bindings → key ∉ bindings.keys

theorem foldlM_overlayLayer_eq_ok_iff {reader : Reader} {layers : List Layer}
    {base merged : Bindings} :
    layers.foldlM (overlayLayer reader) base = .ok merged ↔
      (∀ layer ∈ layers, ∃ bindings, layer.Gives reader bindings) ∧
        merged = (layers.map (Layer.content reader)).foldl KeySorted.overlay base := by
  induction layers generalizing base with
  | nil => simp [pure, Except.pure, eq_comm]
  | cons layer rest ih =>
    rw [List.foldlM_cons, overlayLayer]
    cases hread : layer.read reader with
    | error error =>
      have hsilent : ¬ ∃ bindings, layer.Gives reader bindings := by
        rw [Layer.exists_gives_iff, hread]
        exact nofun
      simp only [List.forall_mem_cons, hsilent, false_and, iff_false]
      exact nofun
    | ok bindings =>
      have hgives : ∃ bindings, layer.Gives reader bindings :=
        ⟨bindings, Layer.read_eq_ok_iff.1 hread⟩
      rw [List.forall_mem_cons, List.map_cons, List.foldl_cons, Layer.content_of_read hread]
      simp only [hgives, true_and]
      exact ih

theorem get?_of_stack {reader : Reader} {layers : List Layer}
    (hgives : ∀ layer ∈ layers, ∃ bindings, layer.Gives reader bindings) (key : String)
    (e : Expression) :
    KeySorted.get? ((layers.map (Layer.content reader)).foldl KeySorted.overlay .empty) key = some e ↔
      Uppermost reader layers key e := by
  rw [KeySorted.get?_foldl_overlay, KeySorted.get?_empty, Option.or_none, ← List.map_reverse,
    List.findSome?_map, List.findSome?_eq_some_iff]
  refine ⟨?_, ?_⟩
  · intro h
    obtain ⟨above, layer, below, hsplit, hkey, habove⟩ := h
    have hlayers : layers = below.reverse ++ layer :: above.reverse := by
      rw [← List.reverse_reverse layers, hsplit]
      simp
    obtain ⟨bindings, hlayer⟩ := hgives layer (by simp [hlayers])
    refine ⟨below.reverse, layer, above.reverse, bindings, hlayers, hlayer, ?_, ?_⟩
    · rw [← hkey, Function.comp_apply, Layer.content_of_read (Layer.read_eq_ok_iff.2 hlayer)]
    · intro later hlater given hgiven
      have hnone := habove later (List.mem_reverse.1 hlater)
      rw [Function.comp_apply, Layer.content_of_read (Layer.read_eq_ok_iff.2 hgiven)] at hnone
      exact KeySorted.not_mem_keys_iff.2 hnone
  · intro h
    obtain ⟨below, layer, above, bindings, hlayers, hlayer, hkey, habove⟩ := h
    refine ⟨above.reverse, layer, below.reverse, by simp [hlayers], ?_, ?_⟩
    · rw [Function.comp_apply, Layer.content_of_read (Layer.read_eq_ok_iff.2 hlayer), hkey]
    · intro later hlater
      have hin : later ∈ above := List.mem_reverse.1 hlater
      obtain ⟨given, hgiven⟩ := hgives later (by simp [hlayers, hin])
      rw [Function.comp_apply, Layer.content_of_read (Layer.read_eq_ok_iff.2 hgiven)]
      exact KeySorted.not_mem_keys_iff.1 (habove later hin given hgiven)

theorem mem_keys_of_stack {reader : Reader} {layers : List Layer}
    (hgives : ∀ layer ∈ layers, ∃ bindings, layer.Gives reader bindings) (key : String) :
    key ∈ KeySorted.keys ((layers.map (Layer.content reader)).foldl KeySorted.overlay .empty) ↔
      ∃ layer ∈ layers, ∃ bindings, layer.Gives reader bindings ∧ key ∈ bindings.keys := by
  rw [KeySorted.mem_keys_iff]
  refine ⟨?_, ?_⟩
  · intro h
    obtain ⟨e, he⟩ := h
    obtain ⟨below, layer, above, bindings, hlayers, hlayer, hkey, -⟩ :=
      (get?_of_stack hgives key e).1 he
    exact ⟨layer, by simp [hlayers], bindings, hlayer, KeySorted.mem_keys_iff.2 ⟨e, hkey⟩⟩
  · intro h
    obtain ⟨layer, hin, bindings, hlayer, hkey⟩ := h
    rw [KeySorted.get?_foldl_overlay, KeySorted.get?_empty, Option.or_none]
    refine Option.isSome_iff_exists.1 (List.findSome?_isSome_iff.2 ⟨bindings, ?_, ?_⟩)
    · rw [← Layer.content_of_read (Layer.read_eq_ok_iff.2 hlayer)]
      simp only [List.mem_reverse, List.mem_map]
      exact ⟨layer, hin, rfl⟩
    · exact Option.isSome_iff_exists.2 (KeySorted.mem_keys_iff.1 hkey)

/-- A load whose layers can all be read holds the keys of all layers, and the uppermost layer that
has a key gives it its whole expression. -/
theorem uppermost_layer_decides (reader : Reader) (localOverrides : Bool)
    (paths entries : List String)
    (hgives : ∀ layer ∈ stack reader localOverrides paths entries,
      ∃ bindings, layer.Gives reader bindings) :
    ∃ merged, (layers reader localOverrides paths entries).outcome = .ok merged ∧
      (∀ key, key ∈ merged.keys ↔ ∃ layer ∈ stack reader localOverrides paths entries,
        ∃ bindings, layer.Gives reader bindings ∧ key ∈ bindings.keys) ∧
      ∀ key e, merged.get? key = some e ↔
        Uppermost reader (stack reader localOverrides paths entries) key e := by
  rw [outcome_layers]
  exact ⟨_, foldlM_overlayLayer_eq_ok_iff.2 ⟨hgives, rfl⟩, mem_keys_of_stack hgives,
    get?_of_stack hgives⟩

theorem uppermost_entry_decides :
    let reader := Reader.ofTable [("a", .ok "[item:db]\nHOST\nPORT='1'"), ("a.local", .ok "PORT")]
    (∀ layer ∈ stack reader true ["a"] ["HOST='x'"], ∃ bindings, layer.Gives reader bindings) ∧
      ∃ merged, (layers reader true ["a"] ["HOST='x'"]).outcome = .ok merged ∧
        merged.get? "HOST" = some ⟨"HOST", .literal "x"⟩ := by
  intro reader
  have hgives : ∀ layer ∈ stack reader true ["a"] ["HOST='x'"],
      ∃ bindings, layer.Gives reader bindings := by
    simp only [Layer.exists_gives_iff]
    decide +kernel
  obtain ⟨merged, houtcome, -, hget⟩ :=
    uppermost_layer_decides reader true ["a"] ["HOST='x'"] hgives
  refine ⟨hgives, merged, houtcome, (hget _ _).2 ?_⟩
  exact ⟨[.file "a", .file "a.local"], .entry "HOST='x'", [], .ofList [⟨"HOST", .literal "x"⟩],
    rfl, rfl, rfl, by simp⟩

/-- The paths with the companion of each right behind it. A companion that cannot be read is listed
too, and fails where it is listed. -/
def withCompanions (reader : Reader) (paths : List String) : List String :=
  paths.flatMap fun path => path :: companions reader path

theorem outcome_files_withCompanions (reader : Reader) (paths : List String) :
    (files reader true paths).outcome =
      (files reader false (withCompanions reader paths)).outcome := by
  have hpaths : filePaths reader true paths = withCompanions reader paths := rfl
  have hlisted : filePaths reader false (withCompanions reader paths) =
      withCompanions reader paths := rfl
  rw [outcome_files, outcome_files, hpaths, hlisted]

@[simp] theorem files_singleton (reader : Reader) (path : String) :
    files reader false [path] = file reader path := by
  -- A list of one puts the file over no bindings at all and then goes on with no further path.
  change ((file reader path).andThen fun base =>
    done (.ok (KeySorted.empty.overlay base))).andThen (fun merged => done (.ok merged)) = _
  simp only [KeySorted.empty_overlay]
  obtain ⟨reads, outcome⟩ := file reader path
  cases outcome <;> simp [andThen, done]

/-- Overriding files by their companions answers like listing the companions, with the same bindings
or the same error at the same path. A single file answers like a list of one. -/
theorem companions_are_listed_files (reader : Reader) :
    (∀ paths, (files reader true paths).outcome =
      (files reader false (withCompanions reader paths)).outcome) ∧
    ∀ path, (file reader path).outcome = (files reader false [path]).outcome := by
  refine ⟨outcome_files_withCompanions reader, ?_⟩
  intro path
  rw [files_singleton]

example :
    withCompanions (.ofTable [("a", .ok ""), ("a.local", .error (.unreadable "denied"))])
      ["a", "a.local", "a"] = ["a", "a.local", "a.local", "a", "a.local"] := by decide +kernel

end Loading

end SecretEnv
