import SecretEnv.Json.Value
import SecretEnv.Json.Written
import SecretEnv.Proofs.Json.Document

namespace SecretEnv.Json

/-- A value without numbers in which every string spells a text. -/
inductive Value.Textual : Value → Prop where
  | null : Textual .null
  | bool (b : Bool) : Textual (.bool b)
  | text (s : String) : Textual (text s)
  | array {elements : List Value} (textual : ∀ v ∈ elements, v.Textual) :
      Textual (.array elements)
  | object {members : List (Content × Value)}
      (named : ∀ m ∈ members, ∃ name, m.1 = some name) (textual : ∀ m ∈ members, m.2.Textual) :
      Textual (.object members)

theorem hexDigit_hexDigit {n : Nat} (h : n < 16) : HexDigit (hexDigit n) n := by
  have hall : ∀ n < 16, "0123456789abcdef".toList[n]? = some (hexDigit n) := by decide
  exact .inl (hall n h)

theorem spellsChar_escape (c : Char) : SpellsChar (escape c) c := by
  unfold escape
  split
  case h_8 hquote hbackslash _ _ _ _ _ =>
    split
    · have hzero : HexDigit '0' 0 := .inl rfl
      have hnames := NamesUnit.digits hzero hzero (hexDigit_hexDigit (n := c.toNat / 16) (by omega))
        (hexDigit_hexDigit (n := c.toNat % 16) (by omega))
      have hvalue : 16 * (16 * (16 * 0 + 0) + c.toNat / 16) + c.toNat % 16 = c.toNat := by omega
      rw [hvalue] at hnames
      exact .unit hnames
    · next hplain => exact .plain c hquote hbackslash (Nat.not_lt.1 hplain)
  all_goals exact .short (by decide)

theorem stringLayout_write (s : String) : StringLayout (some s) (writeString (some s)) := by
  refine ⟨s, rfl, s.toList.map escape, ?_, ?_⟩
  · change '\x22' :: (s.toList.flatMap escape ++ ['\x22']) = _
    rw [List.flatMap_def]
  · rw [List.forall₂_map_left_iff]
    exact List.forall₂_same.2 fun c _ => spellsChar_escape c

theorem Spaced.of_core {core : List Char → Prop} {text : List Char} (h : core text) :
    Spaced core text :=
  ⟨[], text, [], (List.append_nil text).symm, nofun, h, nofun⟩

mutual

theorem layout_write : (v : Value) → v.Textual → v.Layout v.write
  | .null, _ => rfl
  | .bool true, _ => rfl
  | .bool false, _ => rfl
  | .number _, h => nomatch h
  | .string content, h => by
    cases h with
    | text s => exact stringLayout_write s
  | .array elements, h => by
    cases h with
    | array helements => exact ⟨_, rfl, layout_writeElements elements helements⟩
  | .object members, h => by
    cases h with
    | object hnamed hmembers => exact ⟨_, rfl, layout_writeMembers members hnamed hmembers⟩

theorem layout_writeElements : (elements : List Value) → (∀ v ∈ elements, v.Textual) →
    ElementsLayout elements (writeElements elements)
  | [], _ => nofun
  | [v], h => .of_core (layout_write v (h v (List.mem_singleton_self v)))
  | v :: next :: rest, h => by
    obtain ⟨hv, hrest⟩ := List.forall_mem_cons.1 h
    exact ⟨_, _, rfl, .of_core (layout_write v hv), layout_writeElements (next :: rest) hrest⟩

theorem layout_writeMembers : (members : List (Content × Value)) →
    (∀ m ∈ members, ∃ name, m.1 = some name) → (∀ m ∈ members, m.2.Textual) →
      MembersLayout members (writeMembers members)
  | [], _, _ => nofun
  | [(name, v)], hnamed, h => by
    obtain ⟨⟨s, rfl⟩, -⟩ := List.forall_mem_cons.1 hnamed
    obtain ⟨hv, -⟩ := List.forall_mem_cons.1 h
    exact ⟨_, _, rfl, .of_core (stringLayout_write s), .of_core (layout_write v hv)⟩
  | (name, v) :: next :: rest, hnamed, h => by
    obtain ⟨⟨s, rfl⟩, hnames⟩ := List.forall_mem_cons.1 hnamed
    obtain ⟨hv, hrest⟩ := List.forall_mem_cons.1 h
    exact ⟨_, _, _, rfl, .of_core (stringLayout_write s), .of_core (layout_write v hv),
      layout_writeMembers (next :: rest) hnames hrest⟩

end

@[simp] theorem spaced_render {v : Value} (h : v.Textual) : Spaced v.Layout v.render.toList := by
  rw [Value.render, String.toList_ofList]
  exact .of_core (layout_write v h)

end SecretEnv.Json
