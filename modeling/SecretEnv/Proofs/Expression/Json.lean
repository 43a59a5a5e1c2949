import SecretEnv.Expression.Json
import SecretEnv.Proofs.Json.Members

namespace SecretEnv

open Json

namespace Expression

def memberNames : List String :=
  ["key", "type", "value", "itemContext"]

def ownMembers (e : Expression) : Members :=
  [("key", text e.key), ("type", text e.rule.kind.name)]
    ++ (e.value?.map fun value => ("value", text value)).toList
    ++ (e.rule.item?.map fun item => ("itemContext", text item)).toList

/-- Members in any order that hold the expression and nothing else that is asked for. That there is
no item may be left out or said with null. -/
inductive HeldBy (e : Expression) : Members → Prop where
  | ofPerm {absent others members : Members}
      (absent_item : absent = [] ∨ e.rule.item? = none ∧ absent = [("itemContext", .null)])
      (passed_over : ∀ m ∈ others, m.1 ∉ memberNames ∧ m.2.Flat)
      (order : members.Perm (e.ownMembers ++ absent ++ others)) : HeldBy e members

/-- A JSON text that holds the expression. -/
def JsonForm (e : Expression) (text : String) : Prop :=
  ∃ members, e.HeldBy members ∧ Spaced (Value.record members).Layout text.toList

@[simp] theorem record_ownMembers (e : Expression) : Value.record e.ownMembers = e.toJson := by
  obtain ⟨key, rule⟩ := e
  cases rule with
  | literal value => rfl
  | reference target item => cases item <;> rfl
  | shorthand item => cases item <;> rfl

theorem flat_of_mem_ownMembers {e : Expression} {m : String × Value} (h : m ∈ e.ownMembers) :
    m.2.Flat := by
  simp only [ownMembers, List.mem_append, List.mem_cons, List.not_mem_nil, or_false,
    Option.mem_toList, Option.map_eq_some_iff] at h
  rcases h with ((rfl | rfl) | ⟨value, -, rfl⟩) | ⟨item, -, rfl⟩ <;> exact .text _

theorem ofJson?_congr {members others : Members}
    (h : ∀ name ∈ memberNames, members.single? name = others.single? name) :
    ofJson? (Value.record members) = ofJson? (Value.record others) := by
  simp only [memberNames, List.forall_mem_cons, List.not_mem_nil, false_implies, forall_const,
    and_true] at h
  obtain ⟨hkey, htype, hvalue, hitem⟩ := h
  simp only [ofJson?, named?_record, Option.bind_eq_bind, Option.bind_some, Rule.ofMembers?,
    Members.required?, Members.withDefault?, hkey, htype, hvalue, hitem]

theorem ofJson?_ownMembers {e : Expression} {absent : Members}
    (h : absent = [] ∨ e.rule.item? = none ∧ absent = [("itemContext", .null)]) :
    ofJson? (Value.record (e.ownMembers ++ absent)) = some e := by
  obtain ⟨key, rule⟩ := e
  rcases h with rfl | ⟨hitem, rfl⟩
  · cases rule with
    | literal value => rfl
    | reference target item => cases item <;> rfl
    | shorthand item => cases item <;> rfl
  · cases rule with
    | literal value => rfl
    | reference target item => cases hitem; rfl
    | shorthand item => cases hitem; rfl

theorem heldBy_ownMembers (e : Expression) : e.HeldBy e.ownMembers := by
  refine .ofPerm (.inl rfl) (List.forall_mem_nil _) ?_
  rw [List.append_nil, List.append_nil]

namespace HeldBy

variable {e : Expression} {members : Members}

theorem ofJson?_eq (h : e.HeldBy members) : ofJson? (Value.record members) = some e := by
  obtain ⟨habsent, hothers, horder⟩ := h
  rw [← ofJson?_ownMembers habsent]
  apply ofJson?_congr
  intro name hname
  rw [Members.single?_perm horder]
  apply Members.single?_append
  rintro m hm rfl
  exact (hothers m hm).1 hname

theorem flat (h : e.HeldBy members) : ∀ m ∈ members, m.2.Flat := by
  obtain ⟨habsent, hothers, horder⟩ := h
  intro m hm
  rw [horder.mem_iff, List.mem_append, List.mem_append] at hm
  rcases hm with (hown | hmissing) | hother
  · exact flat_of_mem_ownMembers hown
  · rcases habsent with rfl | ⟨-, rfl⟩
    · cases hmissing
    · rw [List.mem_singleton.1 hmissing]
      exact .null
  · exact (hothers m hother).2

@[simp] theorem jsonForm_render (h : e.HeldBy members) : e.JsonForm (Value.record members).render :=
  ⟨members, h, spaced_render (Value.textual_record fun m hm => (h.flat m hm).textual)⟩

end HeldBy

@[simp] theorem jsonForm_render (e : Expression) : e.JsonForm e.render := by
  rw [render, ← record_ownMembers]
  exact e.heldBy_ownMembers.jsonForm_render

theorem read?_of_jsonForm {e : Expression} {text : String} (h : e.JsonForm text) :
    read? text = some e := by
  obtain ⟨members, hheld, hlayout⟩ := h
  have hdepth : (Value.record members).depth ≤ nestingLimit := by
    rw [depth_record hheld.flat]
    decide
  rw [read?, parseStrict?_of_layout hlayout hdepth]
  exact hheld.ofJson?_eq

/-- Every JSON form of an expression is read as that expression: its members in any order, among
others or not, and however they are laid out. What is written for it is one of its forms, so it is
read back and belongs to no other expression. -/
theorem reading_ignores_layout :
    (∀ (e : Expression) text, e.JsonForm text → read? text = some e) ∧
    (∀ (e : Expression) members, e.HeldBy members → e.JsonForm (Value.record members).render) ∧
    (∀ e : Expression, e.JsonForm e.render ∧ read? e.render = some e) ∧
    Function.Injective render := by
  have hrender (e : Expression) : read? e.render = some e :=
    read?_of_jsonForm e.jsonForm_render
  refine ⟨fun e text => read?_of_jsonForm, fun e members => HeldBy.jsonForm_render,
    fun e => ⟨e.jsonForm_render, hrender e⟩, ?_⟩
  intro e other hsame
  have hread := hrender e
  rw [hsame, hrender other] at hread
  exact (Option.some.inj hread).symm

example : read? " \x7b\"itemContext\" :null,\t\"\\u0074ype\":\"shorthand\",\n\"note\":true, \"key\":\"\\ud83d\\ude00\\/\"\x7d" =
    some ⟨"😀/", .shorthand none⟩ := by
  decide +kernel

end Expression

end SecretEnv
