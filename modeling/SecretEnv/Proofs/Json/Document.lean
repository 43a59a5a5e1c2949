import SecretEnv.Json.Document
import SecretEnv.Proofs.Json.Layout

/-! Documents are read back from every layout. The builder, put in front of the tokens of a value at
any place of a document, ends with the value, unless the value nests deeper there than the limit
allows. -/
namespace SecretEnv.Json

mutual

def Value.depth : Value → Nat
  | .array elements => elementsDepth elements + 1
  | .object members => membersDepth members + 1
  | _ => 0

def elementsDepth : List Value → Nat
  | [] => 0
  | v :: rest => max v.depth (elementsDepth rest)

def membersDepth : List (Content × Value) → Nat
  | [] => 0
  | (_, v) :: rest => max v.depth (membersDepth rest)

end

namespace Builder

def Allows : Limit → Nat → Prop
  | none, _ => True
  | some most, count => count ≤ most

theorem Allows.mono {limit : Limit} {m n : Nat} (h : Allows limit n) (hle : m ≤ n) :
    Allows limit m := by
  cases limit with
  | none => trivial
  | some most => exact Nat.le_trans hle h

theorem enter_of_allows {limit : Limit} {frames : List Frame} (h : Allows limit (frames.length + 1))
    (frame : Frame) (expected : Expected) :
    enter limit frames frame expected = some ⟨frame :: frames, expected⟩ := by
  have hfits : fits limit frames = true := by
    cases limit with
    | none => rfl
    | some most => exact decide_eq_true h
  rw [enter, if_pos hfits]

end Builder

open Builder

/-- Wherever a value is expected and there is room for this one, the builder takes the tokens for
it. -/
def Builds (limit : Limit) (tokens : List Token) (v : Value) : Prop :=
  ∀ frames : List Frame, Allows limit (frames.length + v.depth) →
    tokens.foldlM (Builder.step limit) ⟨frames, .value⟩ = some ⟨frames, .next v⟩

theorem Value.exists_first_token (v : Value) :
    ∃ first rest, v.tokens = first :: rest ∧ first ≠ .arrayEnd := by
  cases v <;> exact ⟨_, _, rfl, nofun⟩

section

variable {limit : Limit}

theorem foldlM_firstElement (v : Value) (rest : List Value) (frames : List Frame) :
    (elementTokens (v :: rest) ++ [Token.arrayEnd]).foldlM (Builder.step limit)
      ⟨.array [] :: frames, .elementOrEnd⟩ =
      (elementTokens (v :: rest) ++ [Token.arrayEnd]).foldlM (Builder.step limit)
        ⟨.array [] :: frames, .value⟩ := by
  -- Only the end of the array is read differently at its start.
  obtain ⟨first, others, htokens, hfirst⟩ := v.exists_first_token
  have hstep : Builder.step limit ⟨.array [] :: frames, .elementOrEnd⟩ first =
      Builder.step limit ⟨.array [] :: frames, .value⟩ first := by
    cases first with
    | arrayEnd => exact absurd rfl hfirst
    | _ => rfl
  cases rest <;> simp [elementTokens, htokens, hstep]

theorem foldlM_firstMember (member : Content × Value) (rest : List (Content × Value))
    (frames : List Frame) :
    (memberTokens (member :: rest) ++ [Token.objectEnd]).foldlM (Builder.step limit)
      ⟨.object [] :: frames, .nameOrEnd⟩ =
      (memberTokens (member :: rest) ++ [Token.objectEnd]).foldlM (Builder.step limit)
        ⟨.object [] :: frames, .name⟩ := by
  cases rest <;> rfl

theorem foldlM_arrayStart {frames : List Frame} (h : Allows limit (frames.length + 1))
    (tokens : List Token) :
    (Token.arrayStart :: tokens).foldlM (Builder.step limit) ⟨frames, .value⟩ =
      tokens.foldlM (Builder.step limit) ⟨.array [] :: frames, .elementOrEnd⟩ := by
  rw [List.foldlM_cons, Builder.step, Builder.value, enter_of_allows h]
  rfl

theorem foldlM_objectStart {frames : List Frame} (h : Allows limit (frames.length + 1))
    (tokens : List Token) :
    (Token.objectStart :: tokens).foldlM (Builder.step limit) ⟨frames, .value⟩ =
      tokens.foldlM (Builder.step limit) ⟨.object [] :: frames, .nameOrEnd⟩ := by
  rw [List.foldlM_cons, Builder.step, Builder.value, enter_of_allows h]
  rfl

mutual

theorem builds_tokens : (v : Value) → Builds limit v.tokens v
  | .null => fun _ _ => rfl
  | .bool _ => fun _ _ => rfl
  | .number _ => fun _ _ => rfl
  | .string _ => fun _ _ => rfl
  | .array [] => by
    intro frames hroom
    exact foldlM_arrayStart hroom [.arrayEnd]
  | .array (v :: rest) => by
    intro frames hroom
    rw [Value.depth] at hroom
    rw [Value.tokens, foldlM_arrayStart (hroom.mono (by omega)), foldlM_firstElement]
    exact foldlM_elementTokens (v :: rest) (List.cons_ne_nil v rest) [] frames
      (hroom.mono (by omega))
  | .object [] => by
    intro frames hroom
    exact foldlM_objectStart hroom [.objectEnd]
  | .object (member :: rest) => by
    intro frames hroom
    rw [Value.depth] at hroom
    rw [Value.tokens, foldlM_objectStart (hroom.mono (by omega)), foldlM_firstMember]
    exact foldlM_memberTokens (member :: rest) (List.cons_ne_nil member rest) [] frames
      (hroom.mono (by omega))

theorem foldlM_elementTokens : (elements : List Value) → elements ≠ [] →
    ∀ (read : List Value) (frames : List Frame),
      Allows limit (frames.length + 1 + elementsDepth elements) →
        (elementTokens elements ++ [Token.arrayEnd]).foldlM (Builder.step limit)
          ⟨.array read :: frames, .value⟩ =
          some ⟨frames, .next (.array (read.reverse ++ elements))⟩
  | [v], _ => by
    intro read frames hroom
    have hv := builds_tokens v (.array read :: frames)
      (hroom.mono (Nat.add_le_add_left (Nat.le_max_left _ _) _))
    rw [elementTokens, List.foldlM_append, hv]
    simp [Builder.step, Builder.proceed]
  | v :: next :: rest, _ => by
    intro read frames hroom
    have hv := builds_tokens v (.array read :: frames)
      (hroom.mono (Nat.add_le_add_left (Nat.le_max_left _ _) _))
    have hrest := foldlM_elementTokens (next :: rest) (List.cons_ne_nil next rest) (v :: read) frames
      (hroom.mono (Nat.add_le_add_left (Nat.le_max_right _ _) _))
    have htokens : elementTokens (v :: next :: rest) ++ [Token.arrayEnd] =
        v.tokens ++ .comma :: (elementTokens (next :: rest) ++ [.arrayEnd]) := by
      simp [elementTokens]
    rw [htokens, List.foldlM_append, hv]
    simpa [Builder.step, Builder.proceed] using hrest

theorem foldlM_memberTokens : (members : List (Content × Value)) → members ≠ [] →
    ∀ (read : List (Content × Value)) (frames : List Frame),
      Allows limit (frames.length + 1 + membersDepth members) →
        (memberTokens members ++ [Token.objectEnd]).foldlM (Builder.step limit)
          ⟨.object read :: frames, .name⟩ =
          some ⟨frames, .next (.object (read.reverse ++ members))⟩
  | [(name, v)], _ => by
    intro read frames hroom
    have hv := builds_tokens v (.member read name :: frames)
      (hroom.mono (Nat.add_le_add_left (Nat.le_max_left _ _) _))
    change (v.tokens ++ [Token.objectEnd]).foldlM (Builder.step limit)
      ⟨.member read name :: frames, .value⟩ = _
    rw [List.foldlM_append, hv]
    simp [Builder.step, Builder.proceed]
  | (name, v) :: next :: rest, _ => by
    intro read frames hroom
    have hv := builds_tokens v (.member read name :: frames)
      (hroom.mono (Nat.add_le_add_left (Nat.le_max_left _ _) _))
    have hrest := foldlM_memberTokens (next :: rest) (List.cons_ne_nil next rest)
      ((name, v) :: read) frames (hroom.mono (Nat.add_le_add_left (Nat.le_max_right _ _) _))
    have htokens : memberTokens ((name, v) :: next :: rest) ++ [Token.objectEnd] =
        .string name :: .colon :: (v.tokens ++ .comma :: (memberTokens (next :: rest) ++
          [.objectEnd])) := by
      simp [memberTokens]
    rw [htokens]
    change (v.tokens ++ .comma :: (memberTokens (next :: rest) ++ [Token.objectEnd])).foldlM
      (Builder.step limit) ⟨.member read name :: frames, .value⟩ = _
    rw [List.foldlM_append, hv]
    simpa [Builder.step, Builder.proceed] using hrest

end

theorem build?_tokens {v : Value} (h : Allows limit v.depth) : build? limit v.tokens = some v := by
  rw [build?, builds_tokens v [] (h.mono (by simp))]

end

theorem scans_document {v : Value} {text : List Char} (h : Spaced v.Layout text) :
    Token.Scans text v.tokens :=
  .spaced (fun _ => scans_layout v) h

/-- A value is read from every layout of it. -/
theorem parse?_of_layout {v : Value} {text : List Char} (h : Spaced v.Layout text) :
    parse? text = some v := by
  rw [parse?, (scans_document h).scan?_eq]
  exact build?_tokens trivial

theorem parseStrict?_of_layout {v : Value} {text : List Char} {limit : Nat}
    (h : Spaced v.Layout text) (hdepth : v.depth ≤ limit) : parseStrict? limit text = some v := by
  have hscans := scans_document h
  rw [parseStrict?, hscans.scan?_eq]
  change (if v.tokens.all Token.hasValue then build? (some limit) v.tokens else none) = some v
  rw [if_pos (List.all_eq_true.2 hscans.valued)]
  exact build?_tokens hdepth

end SecretEnv.Json
