import ClassTable.Member
import ClassTable.Proofs.Stability
import Mathlib.Data.String.Basic

/-!
The comparisons of prototypes and members as total orders. Comparison, equality and hashing are
defined apart from each other, and agree: values are equal if they compare as equal, and if they feed
the same to a hash function. A prototype is compared by its return type and then by its parameters,
as in a dictionary.
-/

namespace ClassTable

structure Coherent (α : Type) [Ord α] [BEq α] (hashItems : α → List HashItem) : Prop where
  total : ∀ left right : α,
    (compare left right).isLE = true ∨ (compare right left).isLE = true
  antisymm : ∀ left right : α, (compare left right).isLE = true →
    (compare right left).isLE = true → (left == right) = true
  trans : ∀ first second third : α, (compare first second).isLE = true →
    (compare second third).isLE = true → (compare first third).isLE = true
  equal : ∀ left right : α, compare left right = .eq ↔ (left == right) = true
  hashed : ∀ left right : α, (left == right) = true ↔ hashItems left = hashItems right

theorem coherent_of_hashed {α : Type} [Ord α] [Std.TransOrd α] [BEq α] [Std.LawfulBEqOrd α]
    {hashItems : α → List HashItem}
    (hashed : ∀ left right : α, (left == right) = true ↔ hashItems left = hashItems right) :
    Coherent α hashItems where
  total := by simpa using SortedSet.isLE_total
  antisymm := by
    intro left right below above
    have equal : compare left right = .eq := Std.OrientedCmp.isLE_antisymm below above
    exact Std.LawfulBEqCmp.compare_eq_iff_beq.1 equal
  trans := fun _ _ _ => Std.TransCmp.isLE_trans
  equal := fun _ _ => Std.LawfulBEqCmp.compare_eq_iff_beq
  hashed := hashed

theorem compare_list_eq_lt_iff {α : Type} [Ord α] [Std.LawfulEqOrd α] {left right : List α} :
    compare left right = .lt ↔
      List.Lex (fun first second => compare first second = .lt) left right := by
  rw [List.compare_eq_compareLex]
  induction left generalizing right with
  | nil => cases right <;> simp [List.compareLex_nil_nil, List.compareLex_nil_cons]
  | cons first rest ih =>
      cases right with
      | nil => simp [List.compareLex_cons_nil]
      | cons other others =>
          rw [List.compareLex_cons_cons, Ordering.then_eq_lt, ih, List.cons_lex_cons_iff,
            Std.LawfulEqCmp.compare_eq_iff_eq]

namespace Descriptor

theorem compare_eq_lt_iff {left right : Descriptor} :
    compare left right = .lt ↔ left.text < right.text := by
  change compare left.text right.text = .lt ↔ _
  exact compare_lt_iff_lt

theorem hashItems_append_inj {left right : Descriptor} {before after : List HashItem} :
    left.hashItems ++ before = right.hashItems ++ after ↔ left = right ∧ before = after := by
  cases left
  cases right
  simp [hashItems]

theorem hashItems_inj {left right : Descriptor} :
    left.hashItems = right.hashItems ↔ left = right := by
  cases left
  cases right
  simp [hashItems]

end Descriptor

namespace Prototype

/-- A prototype is below another one by its return type, or with the same return type by the first
parameter that differs, or as the one that ends first. -/
def Below (left right : Prototype) : Prop :=
  left.returnType.text < right.returnType.text ∨ left.returnType = right.returnType ∧
    List.Lex (fun first second => first.text < second.text) left.parameters right.parameters

theorem compare_eq_lt_iff {left right : Prototype} :
    compare left right = .lt ↔ left.Below right := by
  change ((compare left.returnType right.returnType).then
    (compare left.parameters right.parameters)) = .lt ↔ _
  rw [Ordering.then_eq_lt, compare_list_eq_lt_iff]
  simp only [Descriptor.compare_eq_lt_iff, Std.LawfulEqCmp.compare_eq_iff_eq, Below]

theorem hashItems_inj {left right : Prototype} :
    left.hashItems = right.hashItems ↔ left = right := by
  have listed : ∀ prototype : Prototype, prototype.hashItems =
      .length prototype.parameters.length ::
        (prototype.parameters ++ [prototype.returnType]).map fun type => .text type.text := by
    intro prototype
    rw [hashItems, List.map_append, List.map_eq_flatMap, List.cons_append]
    rfl
  have injective : Function.Injective fun type : Descriptor => HashItem.text type.text := by
    rintro ⟨_⟩ ⟨_⟩ same
    cases same
    rfl
  constructor
  · intro same
    rw [listed, listed] at same
    have types := List.map_injective_iff.2 injective (List.cons.inj same).2
    obtain ⟨sameParameters, sameReturn⟩ := List.append_inj' types rfl
    cases left
    cases right
    cases sameParameters
    cases sameReturn
    rfl
  · rintro rfl
    rfl

theorem coherent : Coherent Prototype hashItems :=
  coherent_of_hashed fun _ _ => beq_iff_eq.trans hashItems_inj.symm

end Prototype

theorem Field.hashItems_inj {left right : Field} :
    left.hashItems = right.hashItems ↔ left.identity = right.identity := by
  simp [hashItems, identity, Descriptor.hashItems_append_inj, Descriptor.hashItems_inj]

theorem Field.coherent : Coherent Field hashItems :=
  coherent_of_hashed fun _ _ => beq_iff.trans hashItems_inj.symm

theorem Method.hashItems_inj {left right : Method} :
    left.hashItems = right.hashItems ↔ left.identity = right.identity := by
  simp [hashItems, identity, Descriptor.hashItems_append_inj, Prototype.hashItems_inj]

theorem Method.coherent : Coherent Method hashItems :=
  coherent_of_hashed fun _ _ => beq_iff.trans hashItems_inj.symm

/-- Prototypes, fields and methods are totally ordered, up to equality and in agreement with hashing.
Members are equal by defining class, name and type or prototype, whatever their flags and their
annotations. Prototypes are ordered by return type and then by parameters as in a dictionary. -/
theorem comparisons_coherent :
    Coherent Prototype Prototype.hashItems ∧ Coherent Field Field.hashItems ∧
    Coherent Method Method.hashItems ∧
    (∀ left right : Field, (left == right) = true ↔ left.definingClass = right.definingClass ∧
      left.name = right.name ∧ left.type = right.type) ∧
    (∀ left right : Method, (left == right) = true ↔ left.definingClass = right.definingClass ∧
      left.name = right.name ∧ left.prototype = right.prototype) ∧
    ∀ left right : Prototype, compare left right = .lt ↔ left.Below right := by
  refine ⟨Prototype.coherent, Field.coherent, Method.coherent, fun left right => ?_,
    fun left right => ?_, fun _ _ => Prototype.compare_eq_lt_iff⟩
  · simp only [Field.beq_iff, Field.identity, Prod.mk.injEq]
  · simp only [Method.beq_iff, Method.identity, Prod.mk.injEq]

/-- The return type comes first, and fewer parameters come before more. -/
example : compare (⟨[⟨"J"⟩], ⟨"I"⟩⟩ : Prototype) ⟨[⟨"I"⟩], ⟨"V"⟩⟩ = .lt ∧
    compare (⟨[⟨"I"⟩], ⟨"V"⟩⟩ : Prototype) ⟨[⟨"I"⟩, ⟨"B"⟩], ⟨"V"⟩⟩ = .lt := by decide

end ClassTable
