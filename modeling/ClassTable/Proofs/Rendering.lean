import ClassTable.Member
import Mathlib.Data.List.Basic

/-!
The written forms of members. Spelled descriptors are a prefix code: what follows one is not part of
it, so that parameters need no separators. Where all types are spelled and no name has the character
that ends it, two members have the same written form only if they are equal.
-/

namespace ClassTable

def primitiveLetters : List Char := ['V', 'Z', 'B', 'S', 'C', 'I', 'J', 'F', 'D']

/-- The spelling of a descriptor: a letter, a class name between `L` and `;`, or the spelling of a
component type behind `[`. -/
inductive Spelling : List Char → Prop
  | primitive {letter : Char} (known : letter ∈ primitiveLetters) : Spelling [letter]
  | named {name : List Char} (nonempty : name ≠ []) (plain : ';' ∉ name) :
      Spelling ('L' :: (name ++ [';']))
  | array {component : List Char} (spelled : Spelling component) : Spelling ('[' :: component)

theorem split_at_delimiter {delimiter : Char} {left right before after : List Char}
    (leftPlain : delimiter ∉ left) (rightPlain : delimiter ∉ right)
    (same : left ++ delimiter :: before = right ++ delimiter :: after) :
    left = right ∧ before = after := by
  rcases List.append_eq_append_iff.1 same with ⟨gap, rfl, rest⟩ | ⟨gap, rfl, rest⟩
  · cases gap with
    | nil => exact ⟨(List.append_nil _).symm, (List.cons.inj rest).2⟩
    | cons first gap =>
        obtain ⟨rfl, _⟩ := List.cons.inj rest
        simp at rightPlain
  · cases gap with
    | nil => exact ⟨List.append_nil _, (List.cons.inj rest).2.symm⟩
    | cons first gap =>
        obtain ⟨rfl, _⟩ := List.cons.inj rest
        simp at leftPlain

theorem ne_of_primitive {letter mark : Char} {before after : List Char}
    (known : letter ∈ primitiveLetters) (foreign : mark ∉ primitiveLetters) :
    [letter] ++ before ≠ mark :: after := by
  intro same
  exact ne_of_mem_of_not_mem known foreign (List.cons.inj same).1

namespace Spelling

variable {left right before after : List Char}

theorem prefix_unique (leftSpelled : Spelling left) (rightSpelled : Spelling right)
    (same : left ++ before = right ++ after) : left = right ∧ before = after := by
  -- The first letter tells the form, so that only spellings of one form are compared.
  induction leftSpelled generalizing right with
  | primitive known =>
      cases rightSpelled with
      | primitive => simpa using same
      | named => exact absurd same (ne_of_primitive known (by decide))
      | array => exact absurd same (ne_of_primitive known (by decide))
  | named _ leftPlain =>
      cases rightSpelled with
      | primitive known => exact absurd same.symm (ne_of_primitive known (by decide))
      | named _ rightPlain =>
          simp only [List.cons_append, List.append_assoc, List.nil_append, List.cons.injEq,
            true_and] at same
          obtain ⟨rfl, rest⟩ := split_at_delimiter leftPlain rightPlain same
          exact ⟨rfl, rest⟩
      | array => simp at same
  | array _ ih =>
      cases rightSpelled with
      | primitive known => exact absurd same.symm (ne_of_primitive known (by decide))
      | named => simp at same
      | array component =>
          obtain ⟨rfl, rest⟩ := ih component (List.cons.inj same).2
          exact ⟨rfl, rest⟩

theorem ne_close (spelled : Spelling left) : left ++ before ≠ ')' :: after := by
  intro same
  cases spelled with
  | primitive known => exact ne_of_primitive known (by decide) same
  | named => simp at same
  | array => simp at same

end Spelling

def Descriptor.Spelled (type : Descriptor) : Prop :=
  Spelling type.text.toList

theorem Descriptor.toList_text_inj {left right : Descriptor} :
    left.text.toList = right.text.toList ↔ left = right := by
  rw [String.toList_inj]
  cases left
  cases right
  simp

theorem Descriptor.Spelled.unique {left right : Descriptor} {before after : List Char}
    (leftSpelled : left.Spelled) (rightSpelled : right.Spelled)
    (same : left.text.toList ++ before = right.text.toList ++ after) :
    left = right ∧ before = after := by
  obtain ⟨sameText, rest⟩ := leftSpelled.prefix_unique rightSpelled same
  exact ⟨toList_text_inj.1 sameText, rest⟩

namespace Prototype

structure Spelled (prototype : Prototype) : Prop where
  parameters : ∀ type ∈ prototype.parameters, type.Spelled
  returnType : prototype.returnType.Spelled

theorem parameters_unique {left right : List Descriptor} {before after : List Char}
    (leftSpelled : ∀ type ∈ left, type.Spelled) (rightSpelled : ∀ type ∈ right, type.Spelled)
    (same : (left.flatMap fun type => type.text.toList) ++ ')' :: before =
      (right.flatMap fun type => type.text.toList) ++ ')' :: after) :
    left = right ∧ before = after := by
  -- No parameter begins with the parenthesis, so both lists end at the same place.
  induction left generalizing right with
  | nil =>
      cases right with
      | nil => exact ⟨rfl, (List.cons.inj same).2⟩
      | cons other others =>
          rw [List.flatMap_cons, List.append_assoc] at same
          exact absurd same.symm (rightSpelled other List.mem_cons_self).ne_close
  | cons first rest ih =>
      obtain ⟨firstSpelled, restSpelled⟩ := List.forall_mem_cons.1 leftSpelled
      cases right with
      | nil =>
          rw [List.flatMap_cons, List.append_assoc] at same
          exact absurd same firstSpelled.ne_close
      | cons other others =>
          obtain ⟨otherSpelled, othersSpelled⟩ := List.forall_mem_cons.1 rightSpelled
          rw [List.flatMap_cons, List.append_assoc, List.flatMap_cons, List.append_assoc] at same
          obtain ⟨rfl, sameRest⟩ := firstSpelled.unique otherSpelled same
          obtain ⟨rfl, tail⟩ := ih restSpelled othersSpelled sameRest
          exact ⟨rfl, tail⟩

theorem toList_render (prototype : Prototype) : prototype.render.toList =
    '(' :: ((prototype.parameters.flatMap fun type => type.text.toList) ++
      ')' :: prototype.returnType.text.toList) := by
  simp [render, String.toList_append, String.toList_join, List.flatMap_map]

theorem eq_of_render_eq {left right : Prototype} (leftSpelled : left.Spelled)
    (rightSpelled : right.Spelled) (same : left.render = right.render) : left = right := by
  have written := congrArg String.toList same
  rw [toList_render, toList_render] at written
  obtain ⟨sameParameters, sameReturn⟩ := parameters_unique leftSpelled.parameters
    rightSpelled.parameters (List.cons.inj written).2
  rw [Descriptor.toList_text_inj] at sameReturn
  cases left
  cases right
  cases sameParameters
  cases sameReturn
  rfl

end Prototype

namespace Field

structure Spelled (field : Field) : Prop where
  definingClass : field.definingClass.Spelled
  name : ':' ∉ field.name.toList
  type : field.type.Spelled

theorem toList_render (field : Field) : field.render.toList =
    field.definingClass.text.toList ++
      '-' :: '>' :: (field.name.toList ++ ':' :: field.type.text.toList) := by
  simp [render, String.toList_append]

theorem identity_eq_of_render_eq {left right : Field} (leftSpelled : left.Spelled)
    (rightSpelled : right.Spelled) (same : left.render = right.render) :
    left.identity = right.identity := by
  have written := congrArg String.toList same
  rw [toList_render, toList_render] at written
  obtain ⟨sameClass, rest⟩ := leftSpelled.definingClass.unique rightSpelled.definingClass written
  obtain ⟨sameName, sameType⟩ := split_at_delimiter leftSpelled.name rightSpelled.name
    (List.cons.inj (List.cons.inj rest).2).2
  rw [identity, identity, sameClass, String.toList_inj.1 sameName,
    Descriptor.toList_text_inj.1 sameType]

theorem render_eq_of_identity_eq {left right : Field} (same : left.identity = right.identity) :
    left.render = right.render := by
  simp only [identity, Prod.mk.injEq] at same
  rw [render, render, same.1, same.2.1, same.2.2]

end Field

namespace Method

structure Spelled (method : Method) : Prop where
  definingClass : method.definingClass.Spelled
  name : '(' ∉ method.name.toList
  prototype : method.prototype.Spelled

theorem toList_render (method : Method) : method.render.toList =
    method.definingClass.text.toList ++
      '-' :: '>' :: (method.name.toList ++ method.prototype.render.toList) := by
  simp [render, String.toList_append]

theorem identity_eq_of_render_eq {left right : Method} (leftSpelled : left.Spelled)
    (rightSpelled : right.Spelled) (same : left.render = right.render) :
    left.identity = right.identity := by
  have written := congrArg String.toList same
  rw [toList_render, toList_render] at written
  obtain ⟨sameClass, rest⟩ := leftSpelled.definingClass.unique rightSpelled.definingClass written
  have behind := (List.cons.inj (List.cons.inj rest).2).2
  rw [Prototype.toList_render, Prototype.toList_render] at behind
  obtain ⟨sameName, sameSignature⟩ :=
    split_at_delimiter leftSpelled.name rightSpelled.name behind
  have sameRender : left.prototype.render = right.prototype.render := by
    rw [← String.toList_inj, Prototype.toList_render, Prototype.toList_render, sameSignature]
  rw [identity, identity, sameClass, String.toList_inj.1 sameName,
    Prototype.eq_of_render_eq leftSpelled.prototype rightSpelled.prototype sameRender]

theorem render_eq_of_identity_eq {left right : Method} (same : left.identity = right.identity) :
    left.render = right.render := by
  simp only [identity, Prod.mk.injEq] at same
  rw [render, render, same.1, same.2.1, same.2.2]

end Method

/-- The written form of a field, a method or a prototype whose types are spelled, and whose name does
not hold the character that ends it, tells which one it is. -/
theorem render_faithful :
    (∀ left right : Field, left.Spelled → right.Spelled →
      (left.render = right.render ↔ (left == right) = true)) ∧
    (∀ left right : Method, left.Spelled → right.Spelled →
      (left.render = right.render ↔ (left == right) = true)) ∧
    ∀ left right : Prototype, left.Spelled → right.Spelled →
      (left.render = right.render ↔ left = right) := by
  refine ⟨fun left right leftSpelled rightSpelled => ?_,
    fun left right leftSpelled rightSpelled => ?_, fun left right leftSpelled rightSpelled => ?_⟩
  · rw [Field.beq_iff]
    exact ⟨Field.identity_eq_of_render_eq leftSpelled rightSpelled, Field.render_eq_of_identity_eq⟩
  · rw [Method.beq_iff]
    exact ⟨Method.identity_eq_of_render_eq leftSpelled rightSpelled,
      Method.render_eq_of_identity_eq⟩
  · exact ⟨Prototype.eq_of_render_eq leftSpelled rightSpelled, fun same => by rw [same]⟩

def Prototype.wide : Prototype := ⟨[⟨"[[I"⟩, ⟨"L)V;"⟩], ⟨"V"⟩⟩

def Prototype.narrow : Prototype := ⟨[⟨"[[I"⟩], ⟨"L)V;"⟩⟩

def Method.tangled (prototype : Prototype) (flags : AccessFlags) : Method where
  definingClass := ⟨"L->m(I)V:;"⟩
  name := ")->:"
  prototype := prototype
  flags := flags

theorem Method.tangled_told :
    (tangled .wide .publicBit).Spelled ∧ (tangled .wide .staticBit).Spelled ∧
    (tangled .narrow .publicBit).Spelled ∧
    (tangled .wide .publicBit).render = (tangled .wide .staticBit).render ∧
    (tangled .wide .publicBit).render ≠ (tangled .narrow .publicBit).render := by
  have array : Descriptor.Spelled ⟨"[[I"⟩ := .array (.array (.primitive (by decide)))
  have named : Descriptor.Spelled ⟨"L)V;"⟩ := @Spelling.named ")V".toList (by decide) (by decide)
  have void : Descriptor.Spelled ⟨"V"⟩ := .primitive (by decide)
  have owner : Descriptor.Spelled ⟨"L->m(I)V:;"⟩ :=
    @Spelling.named "->m(I)V:".toList (by decide) (by decide)
  have plain : '(' ∉ ")->:".toList := by decide
  have spelled : ∀ (prototype : Prototype) (flags : AccessFlags), prototype.Spelled →
      (tangled prototype flags).Spelled := fun _ _ inner => ⟨owner, plain, inner⟩
  have wide : Prototype.wide.Spelled := ⟨by simp [Prototype.wide, array, named], void⟩
  have narrow : Prototype.narrow.Spelled := ⟨by simp [Prototype.narrow, array], named⟩
  have first := spelled .wide .publicBit wide
  have second := spelled .wide .staticBit wide
  have third := spelled .narrow .publicBit narrow
  refine ⟨first, second, third, (render_faithful.2.1 _ _ first second).2 (by decide), ?_⟩
  intro same
  exact absurd ((render_faithful.2.1 _ _ first third).1 same) (by decide)

/-- A type that is not spelled can look like the end of a name. -/
example : Field.render { definingClass := ⟨"La;"⟩, name := "f", type := ⟨"g:I"⟩, flags := .none } =
    Field.render { definingClass := ⟨"La;"⟩, name := "f:g", type := ⟨"I"⟩, flags := .none } := rfl

end ClassTable
