import SecretEnv.Proofs.Resolution.Answer
import SecretEnv.Proofs.Source.WellFormed
import SecretEnv.Vault.Memory

/-! The report of a resolution that fails. It has one line for the count and one for each secret
that is missing, and a line can be taken back to the place in the vault that it is about: names that
are looked up hold neither quotes nor spaces, so what stands around them is never part of a name. -/
namespace SecretEnv

/-- A place that a well-formed expression can point at. An item that holds a field is named by a
section, so its name may hold quotes and spaces. -/
def Location.WellFormed : Location → Prop
  | .item name => Identifier.Spelling name.toList
  | .field holder label => Identifier.Spelling label.toList ∧ '\n' ∉ holder.toList

theorem Expression.WellFormed.location {e : Expression} (h : e.WellFormed) {location : Location}
    (hasks : e.Asks location) : location.WellFormed := by
  cases hasks with
  | reference key target => exact h.reference target none rfl
  | scopedReference key target holder =>
    exact ⟨h.reference target (some holder) rfl, (h.item holder rfl).single⟩
  | shorthand key => exact h.key
  | scopedShorthand key holder => exact ⟨h.key, (h.item holder rfl).single⟩

private theorem append_cons_inj {c : Char} {front front' back back' : List Char}
    (hfront : c ∉ front) (hfront' : c ∉ front') (h : front ++ c :: back = front' ++ c :: back') :
    front = front' ∧ back = back' := by
  have htake (text rest : List Char) (htext : c ∉ text) :
      (text ++ c :: rest).takeWhile (· != c) = text := by
    rw [List.takeWhile_append_of_pos (by grind), List.takeWhile_cons]
    simp
  have hsame : front = front' := by rw [← htake front back hfront, h, htake front' back' hfront']
  subst hsame
  exact ⟨rfl, List.cons_injective (List.append_cancel_left h)⟩

namespace Lookup

variable {lookup other : Lookup}

theorem missingMessage_single (h : lookup.location.WellFormed) :
    '\n' ∉ lookup.missingMessage.toList := by
  obtain ⟨key, location, viaReference⟩ := lookup
  cases location with
  | item name =>
    have hname : '\n' ∉ name.toList := Identifier.Spelling.not_mem h (by decide)
    cases viaReference <;> simp [missingMessage, hname]
  | field holder label =>
    have hlabel : '\n' ∉ label.toList := h.1.not_mem (by decide)
    simp [missingMessage, hlabel, h.2]

theorem missingMessage_inj (h : lookup.location.WellFormed) (hother : other.location.WellFormed) :
    lookup.missingMessage = other.missingMessage ↔ lookup.location = other.location ∧
      ∀ name, lookup.location = .item name → lookup.viaReference = other.viaReference := by
  obtain ⟨key, location, viaReference⟩ := lookup
  obtain ⟨key', location', viaReference'⟩ := other
  rw [← String.toList_inj]
  cases location with
  | item name =>
    cases location' with
    | item name' =>
      have hspace : ' ' ∉ name.toList := Identifier.Spelling.not_mem h (by decide)
      have hspace' : ' ' ∉ name'.toList := Identifier.Spelling.not_mem hother (by decide)
      cases viaReference with
      | false =>
        cases viaReference' with
        | false => simp [missingMessage, String.toList_inj]
        | true =>
          have hword : name.toList ≠ "reference ".toList ++ name'.toList :=
            fun heq => hspace (by simp [heq])
          simpa [missingMessage] using hword
      | true =>
        cases viaReference' with
        | false =>
          have hword : "reference ".toList ++ name.toList ≠ name'.toList :=
            fun heq => hspace' (by simp [← heq])
          simpa [missingMessage] using hword
        | true => simp [missingMessage, String.toList_inj]
    | field holder' label' => cases viaReference <;> simp [missingMessage]
  | field holder label =>
    cases location' with
    | item name' => cases viaReference' <;> simp [missingMessage]
    | field holder' label' =>
      have hquote : '\x22' ∉ label.toList := h.1.not_mem (by decide)
      have hquote' : '\x22' ∉ label'.toList := hother.1.not_mem (by decide)
      refine ⟨fun heq => ?_, ?_⟩
      · have hrest : label.toList ++
            '\x22' :: (" found in item \"".toList ++ (holder.toList ++ ['\x22'])) =
            label'.toList ++
              '\x22' :: (" found in item \"".toList ++ (holder'.toList ++ ['\x22'])) := by
          simpa [missingMessage] using heq
        obtain ⟨hlabel, hholder⟩ := append_cons_inj hquote hquote' hrest
        have hholder := List.append_cancel_right (List.append_cancel_left hholder)
        rw [String.toList_inj.1 hlabel, String.toList_inj.1 hholder]
        exact ⟨rfl, nofun⟩
      · rintro ⟨hlocation, -⟩
        cases hlocation
        rfl

theorem missingMessage_inj_of_asks {e e' : Expression} (he : e.WellFormed) (he' : e'.WellFormed)
    (h : ofExpression? e = some lookup) (h' : ofExpression? e' = some other) :
    lookup.missingMessage = other.missingMessage ↔ lookup.location = other.location ∧
      (e.rule.item? = none → e.rule.kind = e'.rule.kind) := by
  obtain ⟨location, hlocation, rfl⟩ := Option.map_eq_some_iff.1 h
  obtain ⟨location', hlocation', rfl⟩ := Option.map_eq_some_iff.1 h'
  have hasks := Expression.location?_eq_some_iff.1 hlocation
  have hasks' := Expression.location?_eq_some_iff.1 hlocation'
  rw [missingMessage_inj (he.location hasks) (he'.location hasks')]
  cases hasks <;> cases hasks' <;> simp [Rule.item?, Rule.kind]

end Lookup

/-- A text line by line. -/
def Text.lines (text : String) : List String :=
  (text.toList.splitOn '\n').map String.ofList

theorem Text.lines_intercalate {lines : List String} (hne : lines ≠ [])
    (h : ∀ line ∈ lines, '\n' ∉ line.toList) : Text.lines ("\n".intercalate lines) = lines := by
  have hsplit : ("\n".intercalate lines).toList.splitOn '\n' = lines.map String.toList := by
    rw [String.toList_intercalate]
    exact List.splitOn_intercalate '\n' (List.forall_mem_map.2 h) (by simpa using hne)
  rw [Text.lines, hsplit, List.map_map]
  simp [Function.comp_def]

namespace FailedLookups

def headline (count : Nat) : String :=
  "Failed to load " ++ toString count ++ " secret(s):"

@[simp] theorem headline_single (count : Nat) : '\n' ∉ (headline count).toList := by
  have hdigits : '\n' ∉ Nat.toDigits 10 count := fun hin =>
    absurd (Nat.isDigit_of_mem_toDigits (by decide) (by decide) hin) (by decide)
  have hchars : (headline count).toList =
      "Failed to load ".toList ++ Nat.toDigits 10 count ++ " secret(s):".toList := by
    have hcount : (String.ofList (Nat.toDigits 10 count)).toList = Nat.toDigits 10 count :=
      String.toList_ofList
    change ("Failed to load " ++ String.ofList (Nat.toDigits 10 count) ++ " secret(s):").toList = _
    rw [String.toList_append, String.toList_append, hcount]
  rw [hchars, List.mem_append, List.mem_append, not_or, not_or]
  exact ⟨⟨by decide, hdigits⟩, by decide⟩

theorem lines_message {failed : FailedLookups} (hne : failed.failures ≠ [])
    (h : ∀ failure ∈ failed.failures, '\n' ∉ failure.message.toList) :
    Text.lines failed.message = headline failed.failures.length ::
      failed.failures.map fun failure => "- " ++ failure.message := by
  have hmessage : failed.message = "\n".intercalate (headline failed.failures.length ::
      failed.failures.map fun failure => "- " ++ failure.message) := by
    have hend : " secret(s):\n" = " secret(s):" ++ "\n" := by decide
    rw [String.intercalate_cons_of_ne_nil (by simpa using hne)]
    change "Failed to load " ++ toString failed.failures.length ++ " secret(s):\n" ++ _ =
      "Failed to load " ++ toString failed.failures.length ++ " secret(s):" ++ "\n" ++ _
    rw [hend, ← String.append_assoc]
  rw [hmessage]
  apply Text.lines_intercalate (List.cons_ne_nil _ _)
  rw [List.forall_mem_cons, List.forall_mem_map]
  refine ⟨headline_single _, ?_⟩
  intro failure hfailure
  simp [h failure hfailure]

end FailedLookups

namespace Resolution

def missing (vault : Vault) (expressions : List Expression) : List Lookup :=
  (lookups expressions).filter fun lookup => vault lookup.location = .ok none

variable {vault : Vault} {expressions : List Expression}

theorem exists_of_mem_missing {lookup : Lookup} (h : lookup ∈ missing vault expressions) :
    ∃ e ∈ expressions, Lookup.ofExpression? e = some lookup :=
  List.mem_filterMap.1 (List.mem_filter.1 h).1

theorem failures_eq_map_missing (h : ∀ location, ∃ found, vault location = .ok found) :
    failures vault expressions =
      (missing vault expressions).map fun lookup => ⟨lookup.key, lookup.missingMessage⟩ := by
  rw [missing, ← List.filterMap_eq_map', List.filterMap_filter]
  apply List.filterMap_congr
  intro lookup _
  obtain ⟨found, hfound⟩ := h lookup.location
  cases found <;> simp [Lookup.outcome, hfound, failure?]

theorem pairwise_missing (h : expressions.Pairwise fun a b => a.key < b.key) :
    (missing vault expressions).Pairwise fun a b => a.key < b.key := by
  apply List.Pairwise.filter
  rw [lookups, List.pairwise_filterMap]
  refine h.imp ?_
  intro a b hkey lookup hlookup other hother
  obtain ⟨location, -, rfl⟩ := Option.map_eq_some_iff.1 hlookup
  obtain ⟨location', -, rfl⟩ := Option.map_eq_some_iff.1 hother
  exact hkey

end Resolution

/-- Some text is read as bindings that hold the expression. -/
def Expression.Sourced (e : Expression) : Prop :=
  ∃ text bindings, Source.parse text = .ok bindings ∧ e ∈ bindings.toList

theorem Expression.Sourced.wellFormed {e : Expression} (h : Expression.Sourced e) :
    e.WellFormed := by
  obtain ⟨text, bindings, hparse, he⟩ := h
  exact (Source.wellFormed_parse hparse).of_mem he

namespace Resolution

theorem failures_of_error {schedule : Schedule} {timing : Timing Placed} {vault : Vault}
    {expressions : List Expression} {failed : FailedLookups}
    (h : (resolve schedule timing vault expressions).outcome = .error failed) :
    failed.failures = failures vault expressions ∧ failed.failures ≠ [] := by
  rw [outcome_eq] at h
  split at h
  · cases h
  · next hne =>
    cases h
    exact ⟨rfl, hne⟩

theorem lines_of_missing {vault : Vault} {bindings : Bindings} (hbindings : bindings.WellFormed)
    {failed : FailedLookups} (hne : failed.failures ≠ [])
    (hfailures : failed.failures = (missing vault bindings.toList).map fun lookup =>
      ⟨lookup.key, lookup.missingMessage⟩) :
    Text.lines failed.message = FailedLookups.headline failed.failures.length ::
      (missing vault bindings.toList).map fun lookup => "- " ++ lookup.missingMessage := by
  rw [FailedLookups.lines_message hne, hfailures, List.map_map]
  · rfl
  · rw [hfailures, List.forall_mem_map]
    intro lookup hlookup
    obtain ⟨e, he, hof⟩ := exists_of_mem_missing hlookup
    obtain ⟨location, hlocation, rfl⟩ := Option.map_eq_some_iff.1 hof
    have hasks := Expression.location?_eq_some_iff.1 hlocation
    exact Lookup.missingMessage_single ((hbindings.of_mem he).location hasks)

end Resolution

/-- The report of a failure, when a text is resolved from a vault in memory, has a line with the
number of failures and then one for each lookup that finds nothing, by ascending keys. Expressions
of any texts are missed with one message only if they look in the same place and, outside all
sections, are of the same kind; so a line says which place was empty. -/
theorem report_tells_places_apart :
    (∀ text bindings (vault : MemoryVault) schedule timing failed,
      Source.parse text = .ok bindings →
      (Resolution.resolve schedule timing vault.answers bindings.toList).outcome = .error failed →
      let missing := Resolution.missing vault.answers bindings.toList
      failed.failures = missing.map (fun lookup => ⟨lookup.key, lookup.missingMessage⟩) ∧
      missing.Pairwise (fun a b => a.key < b.key) ∧
      (Text.lines failed.message).length = failed.failures.length + 1 ∧
      Text.lines failed.message =
        ("Failed to load " ++ toString failed.failures.length ++ " secret(s):") ::
          missing.map fun lookup => "- " ++ lookup.missingMessage) ∧
    ∀ e e' : Expression, e.Sourced → e'.Sourced → ∀ lookup other,
      Lookup.ofExpression? e = some lookup → Lookup.ofExpression? e' = some other →
      (lookup.missingMessage = other.missingMessage ↔ lookup.location = other.location ∧
        (e.rule.item? = none → e.rule.kind = e'.rule.kind)) := by
  refine ⟨?_, ?_⟩
  · intro text bindings vault schedule timing failed hparse hfailed missing
    obtain ⟨hfailures, hne⟩ := Resolution.failures_of_error hfailed
    have hanswers : ∀ location, ∃ found, vault.answers location = .ok found :=
      fun location => ⟨_, rfl⟩
    rw [Resolution.failures_eq_map_missing hanswers] at hfailures
    have hlines := Resolution.lines_of_missing (Source.wellFormed_parse hparse) hne hfailures
    refine ⟨hfailures, Resolution.pairwise_missing bindings.ascending, ?_, hlines⟩
    rw [hlines, hfailures, List.length_cons, List.length_map, List.length_map]
  · intro e e' he he' lookup other h h'
    exact Lookup.missingMessage_inj_of_asks he.wellFormed he'.wellFormed h h'

/-- A section whose name looks like the end of a message, and one name that is missed under two
kinds of expression. -/
theorem look_alikes_are_told_apart :
    let text := "KEY=REF\n[item: a\" found in item \"b ]\nLABEL"
    let bindings : Bindings := .ofList [⟨"KEY", .reference "REF" none⟩,
      ⟨"LABEL", .shorthand (some "a\" found in item \"b")⟩]
    let failed : FailedLookups := ⟨[⟨"KEY", "No item found for reference REF"⟩,
      ⟨"LABEL", "No field \"LABEL\" found in item \"a\" found in item \"b\""⟩]⟩
    (Source.parse text = .ok bindings ∧ (Resolution.resolve .primeThenFanOut .inOrder
        MemoryVault.empty.answers bindings.toList).outcome = .error failed ∧
      (Text.lines failed.message).length = 3) ∧
    Lookup.missingMessage ⟨"KEY", .item "REF", true⟩ ≠
      Lookup.missingMessage ⟨"REF", .item "REF", false⟩ := by
  intro text bindings failed
  have hparse : Source.parse text = .ok bindings := by decide +kernel
  have hfailed : (Resolution.resolve .primeThenFanOut .inOrder MemoryVault.empty.answers
      bindings.toList).outcome = .error failed := by decide +kernel
  obtain ⟨hreport, hmessages⟩ := report_tells_places_apart
  refine ⟨⟨hparse, hfailed, ?_⟩, ?_⟩
  · obtain ⟨-, -, hlength, -⟩ := hreport text bindings .empty .primeThenFanOut .inOrder failed
      hparse hfailed
    exact hlength
  · have hnamed : Expression.Sourced ⟨"KEY", .reference "REF" none⟩ :=
      ⟨text, bindings, hparse, by decide⟩
    have hbare : Expression.Sourced ⟨"REF", .shorthand none⟩ :=
      ⟨"REF", .ofList [⟨"REF", .shorthand none⟩], by decide +kernel, by decide⟩
    intro hsame
    obtain ⟨-, hkind⟩ := (hmessages _ _ hnamed hbare ⟨"KEY", .item "REF", true⟩
      ⟨"REF", .item "REF", false⟩ rfl rfl).1 hsame
    exact absurd (hkind rfl) (by decide)

end SecretEnv
