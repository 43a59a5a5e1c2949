import Mathlib.Data.List.Forall2
import SecretEnv.Proofs.Resolution.Outcome

namespace SecretEnv

namespace Expression

/-- What is said when the vault has no secret for an expression, or cannot tell. -/
inductive Complaint (vault : Vault) : Expression → String → Prop where
  | field {e : Expression} {item label : String} (asks : e.Asks (.field item label))
      (missing : vault (.field item label) = .ok none) :
      Complaint vault e ("No field \"" ++ label ++ "\" found in item \"" ++ item ++ "\"")
  | reference {key target : String} (missing : vault (.item target) = .ok none) :
      Complaint vault ⟨key, .reference target none⟩ ("No item found for reference " ++ target)
  | shorthand {key : String} (missing : vault (.item key) = .ok none) :
      Complaint vault ⟨key, .shorthand none⟩ ("No item found for " ++ key)
  | fault {e : Expression} {location : Location} {error : VaultError} (asks : e.Asks location)
      (fails : vault location = .error error) : Complaint vault e error.message

/-- The vault has a secret for the expression, with this value. -/
def Finds (vault : Vault) (e : Expression) (value : String) : Prop :=
  ∃ location secret, e.Asks location ∧ vault location = .ok (some secret) ∧ secret.value = value

/-- The expression asks for a secret that the vault does not give. -/
def Unmet (vault : Vault) (e : Expression) : Prop :=
  ∃ location, e.Asks location ∧ ∀ secret, vault location ≠ .ok (some secret)

end Expression

namespace Resolution

def failureOf? (vault : Vault) (e : Expression) : Option LookupFailure :=
  (Lookup.ofExpression? e).bind fun lookup => failure? (lookup.outcome vault)

def found? (vault : Vault) (e : Expression) : Option (String × String) :=
  (Lookup.ofExpression? e).bind fun lookup => (lookup.outcome vault).toOption

def literal? (e : Expression) : Option (String × String) :=
  match e.rule with
  | .literal text => some (e.key, text)
  | _ => none

theorem failures_eq (vault : Vault) (expressions : List Expression) :
    failures vault expressions = expressions.filterMap (failureOf? vault) :=
  List.filterMap_filterMap

theorem values_eq (vault : Vault) (expressions : List Expression) :
    values vault expressions =
      expressions.filterMap literal? ++ expressions.filterMap (found? vault) := by
  rw [values, lookups, List.filterMap_filterMap]
  rfl

@[simp] theorem literal?_eq_some_iff {e : Expression} {key value : String} :
    literal? e = some (key, value) ↔ e = ⟨key, .literal value⟩ := by
  obtain ⟨name, rule⟩ := e
  cases rule <;> simp [literal?]

theorem exists_literal? {e : Expression} (h : e.isLiteral = true) :
    ∃ value, literal? e = some (e.key, value) := by
  obtain ⟨key, rule⟩ := e
  cases rule with
  | literal text => exact ⟨text, rfl⟩
  | reference target item => cases h
  | shorthand item => cases h

variable {vault : Vault} {e : Expression} {location : Location}

theorem ofExpression?_of_isLiteral (h : e.isLiteral = true) : Lookup.ofExpression? e = none := by
  rw [Lookup.ofExpression?, Expression.location?_eq_none_iff.2 h]
  rfl

theorem failureOf?_of_asks (h : e.Asks location) :
    failureOf? vault e = match vault location with
      | .ok (some _) => none
      | .ok none =>
        some ⟨e.key, Lookup.missingMessage ⟨e.key, location, e.rule.kind == .reference⟩⟩
      | .error error => some ⟨e.key, error.message⟩ := by
  rw [failureOf?, ofExpression?_of_asks h, Option.bind_some, Lookup.outcome]
  cases vault location with
  | error error => rfl
  | ok found => cases found <;> rfl

theorem found?_of_asks (h : e.Asks location) :
    found? vault e = match vault location with
      | .ok (some secret) => some (e.key, secret.value)
      | _ => none := by
  rw [found?, ofExpression?_of_asks h, Option.bind_some, Lookup.outcome]
  cases vault location with
  | error error => rfl
  | ok found => cases found <;> rfl

theorem found?_of_isLiteral (h : e.isLiteral = true) : found? vault e = none := by
  rw [found?, ofExpression?_of_isLiteral h, Option.bind_none]

@[simp] theorem found?_eq_some_iff {key value : String} :
    found? vault e = some (key, value) ↔ e.key = key ∧ e.Finds vault value := by
  refine ⟨?_, ?_⟩
  · intro h
    cases hliteral : e.isLiteral with
    | true =>
      rw [found?_of_isLiteral hliteral] at h
      cases h
    | false =>
      obtain ⟨location, hasks⟩ := Expression.exists_asks hliteral
      rw [found?_of_asks hasks] at h
      split at h
      · next secret hvault =>
        cases h
        exact ⟨rfl, location, secret, hasks, hvault, rfl⟩
      · cases h
  · rintro ⟨rfl, location, secret, hasks, hvault, rfl⟩
    rw [found?_of_asks hasks, hvault]

theorem complaint_of_missing (h : e.Asks location) (hmissing : vault location = .ok none) :
    e.Complaint vault (Lookup.missingMessage ⟨e.key, location, e.rule.kind == .reference⟩) := by
  cases h with
  | reference key target => exact .reference hmissing
  | shorthand key => exact .shorthand hmissing
  | scopedReference key target item => exact .field (.scopedReference key target item) hmissing
  | scopedShorthand key item => exact .field (.scopedShorthand key item) hmissing

theorem complaint_of_failureOf? {failure : LookupFailure} (h : failureOf? vault e = some failure) :
    e.Unmet vault ∧ failure.key = e.key ∧ e.Complaint vault failure.message := by
  cases hliteral : e.isLiteral with
  | true =>
    rw [failureOf?, ofExpression?_of_isLiteral hliteral] at h
    cases h
  | false =>
    obtain ⟨location, hasks⟩ := Expression.exists_asks hliteral
    rw [failureOf?_of_asks hasks] at h
    split at h
    · cases h
    · next hvault =>
      cases h
      exact ⟨⟨location, hasks, by simp [hvault]⟩, rfl, complaint_of_missing hasks hvault⟩
    · next error hvault =>
      cases h
      exact ⟨⟨location, hasks, by simp [hvault]⟩, rfl, .fault hasks hvault⟩

@[simp] theorem isSome_failureOf?_iff : (failureOf? vault e).isSome = true ↔ e.Unmet vault := by
  refine ⟨?_, ?_⟩
  · intro h
    obtain ⟨failure, hfailure⟩ := Option.isSome_iff_exists.1 h
    exact (complaint_of_failureOf? hfailure).1
  · rintro ⟨location, hasks, hunmet⟩
    rw [failureOf?_of_asks hasks]
    split
    · next secret hvault => exact absurd hvault (hunmet secret)
    · rfl
    · rfl

instance : DecidablePred (Expression.Unmet vault) := fun _ =>
  decidable_of_iff _ isSome_failureOf?_iff

theorem forall₂_filter_filterMap {α β : Type} {p : α → Bool} {f : α → Option β} {R : α → β → Prop}
    (hp : ∀ a, (f a).isSome = p a) (hR : ∀ a b, f a = some b → R a b) (list : List α) :
    List.Forall₂ R (list.filter p) (list.filterMap f) := by
  induction list with
  | nil => exact .nil
  | cons a rest ih =>
    cases hfa : f a with
    | none =>
      have hpa : p a = false := by rw [← hp, hfa, Option.isSome_none]
      rwa [List.filter_cons, List.filterMap_cons, hfa, hpa, if_neg Bool.false_ne_true]
    | some b =>
      have hpa : p a = true := by rw [← hp, hfa, Option.isSome_some]
      rw [List.filter_cons, List.filterMap_cons, hfa, hpa, if_pos rfl]
      exact .cons (hR a b hfa) ih

theorem asks_lookups (expressions : List Expression) :
    List.Forall₂ (fun e lookup => lookup.key = e.key ∧ e.Asks lookup.location)
      (expressions.filter fun e => !e.isLiteral) (lookups expressions) := by
  apply forall₂_filter_filterMap
  · intro e
    cases hliteral : e.isLiteral with
    | true => simp [ofExpression?_of_isLiteral hliteral]
    | false =>
      obtain ⟨location, hasks⟩ := Expression.exists_asks hliteral
      simp [ofExpression?_of_asks hasks]
  · intro e lookup hof
    obtain ⟨location, hlocation, rfl⟩ := Option.map_eq_some_iff.1 hof
    exact ⟨rfl, Expression.location?_eq_some_iff.1 hlocation⟩

theorem asks_calls (schedule : Schedule) (timing : Timing Placed) (vault : Vault)
    (expressions : List Expression) :
    List.Forall₂ Expression.Asks (expressions.filter fun e => !e.isLiteral)
      (resolve schedule timing vault expressions).calls := by
  rw [calls_resolve, List.forall₂_map_right_iff]
  exact (asks_lookups expressions).imp fun _ _ => And.right

theorem complaints_failures (vault : Vault) (expressions : List Expression) :
    List.Forall₂ (fun e failure => failure.key = e.key ∧ e.Complaint vault failure.message)
      (expressions.filter fun e => e.Unmet vault) (failures vault expressions) := by
  rw [failures_eq]
  apply forall₂_filter_filterMap
  · intro e
    rw [Bool.eq_iff_iff, isSome_failureOf?_iff, decide_eq_true_iff]
  · intro e failure h
    exact (complaint_of_failureOf? h).2

/-- What a key is given where expressions may repeat keys: the value of its last lookup, and only if
it has no lookup the text of its last literal. -/
def Prevails (vault : Vault) (expressions : List Expression) (key value : String) : Prop :=
  (∃ before e after, expressions = before ++ e :: after ∧ e.key = key ∧ e.Finds vault value ∧
    ∀ later ∈ after, later.key = key → later.isLiteral = true) ∨
  ((∀ e ∈ expressions, e.key = key → e.isLiteral = true) ∧
    ∃ before after, expressions = before ++ ⟨key, .literal value⟩ :: after ∧
      ∀ later ∈ after, later.key ≠ key)

section Success

variable {expressions : List Expression}

theorem exists_found? (hnone : failures vault expressions = []) (he : e ∈ expressions)
    (hlookup : e.isLiteral = false) : ∃ value, found? vault e = some (e.key, value) := by
  obtain ⟨location, hasks⟩ := Expression.exists_asks hlookup
  rw [failures_eq, List.filterMap_eq_nil_iff] at hnone
  have hmet := hnone e he
  rw [failureOf?_of_asks hasks] at hmet
  split at hmet
  · next secret hvault => exact ⟨secret.value, by rw [found?_of_asks hasks, hvault]⟩
  · cases hmet
  · cases hmet

theorem found?_ne_key_iff (hnone : failures vault expressions = []) (he : e ∈ expressions)
    (key : String) :
    (∀ pair, found? vault e = some pair → pair.1 ≠ key) ↔ (e.key = key → e.isLiteral = true) := by
  refine ⟨?_, ?_⟩
  · rintro hfound rfl
    by_contra hlookup
    obtain ⟨value, hvalue⟩ := exists_found? hnone he (Bool.eq_false_iff.2 hlookup)
    exact hfound _ hvalue rfl
  · rintro hliteral ⟨name, value⟩ hfound rfl
    have hkey := (found?_eq_some_iff.1 hfound).1
    rw [found?_of_isLiteral (hliteral hkey)] at hfound
    cases hfound

theorem get?_found (hnone : failures vault expressions = []) {key value : String} :
    (.ofList (expressions.filterMap (found? vault)) : Environment).get? key = some (key, value) ↔
      ∃ before e after, expressions = before ++ e :: after ∧ e.key = key ∧ e.Finds vault value ∧
        ∀ later ∈ after, later.key = key → later.isLiteral = true := by
  rw [KeySorted.get?_ofList_filterMap_eq_some_iff]
  refine exists_congr fun before => exists_congr fun e => exists_congr fun after =>
    and_congr_right fun hsplit => ?_
  have hafter : (∀ later ∈ after, ∀ pair, found? vault later = some pair → pair.1 ≠ key) ↔
      ∀ later ∈ after, later.key = key → later.isLiteral = true := by
    refine forall₂_congr fun later hlater => ?_
    exact found?_ne_key_iff hnone (by simp [hsplit, hlater]) key
  rw [hafter, found?_eq_some_iff, and_assoc]
  simp

theorem get?_found_eq_none_iff (hnone : failures vault expressions = []) {key : String} :
    (.ofList (expressions.filterMap (found? vault)) : Environment).get? key = none ↔
      ∀ e ∈ expressions, e.key = key → e.isLiteral = true := by
  rw [KeySorted.get?_ofList_eq_none_iff, List.forall_mem_filterMap]
  exact forall₂_congr fun e he => found?_ne_key_iff hnone he key

theorem get?_literals {key value : String}
    (hliteral : ∀ e ∈ expressions, e.key = key → e.isLiteral = true) :
    (.ofList (expressions.filterMap literal?) : Environment).get? key = some (key, value) ↔
      ∃ before after, expressions = before ++ ⟨key, .literal value⟩ :: after ∧
        ∀ later ∈ after, later.key ≠ key := by
  rw [KeySorted.get?_ofList_filterMap_eq_some_iff]
  refine ⟨?_, ?_⟩
  · rintro ⟨before, e, after, hsplit, he, -, hafter⟩
    rw [literal?_eq_some_iff] at he
    subst he
    refine ⟨before, after, hsplit, ?_⟩
    intro later hlater hkey
    obtain ⟨text, htext⟩ := exists_literal? (hliteral later (by simp [hsplit, hlater]) hkey)
    exact hafter later hlater _ htext hkey
  · rintro ⟨before, after, hsplit, hafter⟩
    refine ⟨before, _, after, hsplit, rfl, rfl, ?_⟩
    rintro later hlater ⟨name, text⟩ htext rfl
    rw [literal?_eq_some_iff] at htext
    subst htext
    exact hafter _ hlater rfl

theorem get?_values_iff (hnone : failures vault expressions = []) {key value : String} :
    (.ofList (values vault expressions) : Environment).get? key = some (key, value) ↔
      Prevails vault expressions key value := by
  -- What is found is put in after the literals, so it answers before them.
  rw [values_eq, KeySorted.get?_ofList_append, Option.or_eq_some_iff, get?_found hnone,
    get?_found_eq_none_iff hnone, Prevails]
  exact or_congr_right (and_congr_right get?_literals)

end Success

theorem failures_eq_nil_iff_calls (schedule : Schedule) (timing : Timing Placed) (vault : Vault)
    (expressions : List Expression) :
    failures vault expressions = [] ↔
      ∀ location ∈ (resolve schedule timing vault expressions).calls,
        ∃ secret, vault location = .ok (some secret) := by
  rw [calls_resolve, map_location_lookups, failures_eq_nil_iff]

/-- Every expression that is no literal is asked for, whatever becomes of the others. If the vault
does not give all that is asked for, the answer lists every failure and nothing else, in order.
Otherwise every key has the value that prevails. -/
theorem answer_is_all_or_nothing (schedule : Schedule) (timing : Timing Placed) (vault : Vault)
    (expressions : List Expression) :
    let resolution := resolve schedule timing vault expressions
    List.Forall₂ Expression.Asks (expressions.filter fun e => !e.isLiteral) resolution.calls ∧
    ((∃ failed, resolution.outcome = .error failed) ↔
      ∃ location ∈ resolution.calls, ∀ secret, vault location ≠ .ok (some secret)) ∧
    (∀ failed, resolution.outcome = .error failed →
      List.Forall₂ (fun e failure => failure.key = e.key ∧ e.Complaint vault failure.message)
        (expressions.filter fun e => e.Unmet vault) failed.failures) ∧
    (∀ environment, resolution.outcome = .ok environment →
      (∀ key, key ∈ environment.keys ↔ ∃ e ∈ expressions, e.key = key) ∧
      ∀ key value, environment.get? key = some (key, value) ↔
        Prevails vault expressions key value) := by
  intro resolution
  have houtcome : resolution.outcome = _ := outcome_eq schedule timing vault expressions
  have hmet := failures_eq_nil_iff_calls schedule timing vault expressions
  refine ⟨asks_calls schedule timing vault expressions, ?_, ?_, ?_⟩
  · have hunmet : failures vault expressions ≠ [] ↔
        ∃ location ∈ resolution.calls, ∀ secret, vault location ≠ .ok (some secret) := by
      rw [ne_eq, hmet]
      push Not
      rfl
    rw [← hunmet, houtcome]
    by_cases hnone : failures vault expressions = [] <;> simp [hnone]
  · intro failed hfailed
    rw [houtcome] at hfailed
    split at hfailed
    · cases hfailed
    · cases hfailed
      exact complaints_failures vault expressions
  · intro environment hfound
    rw [houtcome] at hfound
    split at hfound
    · next hnone =>
      cases hfound
      exact ⟨fun _ => mem_keys_values_iff hnone, fun _ _ => get?_values_iff hnone⟩
    · cases hfound

/-- A literal does not stand over a lookup of its key, although it comes later. -/
theorem lookup_stands_over_later_literal :
    let vault : Vault := fun _ => .ok (some ⟨"CONCEALED", "secret"⟩)
    let expressions : List Expression := [⟨"A", .shorthand none⟩, ⟨"A", .literal "text"⟩]
    ∃ environment, (resolve .fanOut .inOrder vault expressions).outcome = .ok environment ∧
      environment.get? "A" = some ("A", "secret") := by
  intro vault expressions
  obtain ⟨-, hfails, -, hanswer⟩ := answer_is_all_or_nothing .fanOut .inOrder vault expressions
  cases houtcome : (resolve .fanOut .inOrder vault expressions).outcome with
  | error failed =>
    obtain ⟨location, -, hunmet⟩ := hfails.1 ⟨failed, houtcome⟩
    exact absurd rfl (hunmet _)
  | ok environment =>
    refine ⟨environment, rfl, ((hanswer environment houtcome).2 "A" "secret").2 (.inl ?_)⟩
    exact ⟨[], ⟨"A", .shorthand none⟩, [⟨"A", .literal "text"⟩], rfl, rfl,
      ⟨_, _, .shorthand "A", rfl, rfl⟩, by simp [Expression.isLiteral, Rule.isLiteral]⟩

end Resolution

end SecretEnv
