import ClassTable.Proofs.StaticValues
import Mathlib.Data.String.Basic

/-!
When a description is told that its static values follow another order than its static fields. Only
neighbours are compared, but the order is transitive, so they are in order exactly if all the listed
fields are; of fields that differ these are the ones that sorting leaves as they are.
-/

namespace ClassTable

namespace Field

variable {left right : Field} {fields : List Field}

def Below (left right : Descriptor × String × Descriptor) : Prop :=
  left.1.text < right.1.text ∨ left.1 = right.1 ∧
    (left.2.1 < right.2.1 ∨ left.2.1 = right.2.1 ∧ left.2.2.text < right.2.2.text)

theorem compare_eq_lt_iff : compare left right = .lt ↔ Below left.identity right.identity := by
  change ((compare left.definingClass.text right.definingClass.text).then
    ((compare left.name right.name).then (compare left.type.text right.type.text))) = .lt ↔ _
  have smaller : ∀ first second : String, compare first second = .lt ↔ first < second :=
    fun _ _ => compare_lt_iff_lt
  have sameName : ∀ first second : String, compare first second = .eq ↔ first = second :=
    fun _ _ => compare_eq_iff_eq
  have sameType : ∀ first second : Descriptor, first = second ↔ first.text = second.text := by
    rintro ⟨first⟩ ⟨second⟩
    simp
  simp only [Ordering.then_eq_lt, smaller, sameName, sameType, Below, identity]

def Disordered (identities : List (Descriptor × String × Descriptor)) : Prop :=
  ∃ earlier later : Nat, ∃ left right, earlier < later ∧ identities[earlier]? = some left ∧
    identities[later]? = some right ∧ Below right left

theorem disordered_iff : Disordered (fields.map identity) ↔
    ¬ fields.Pairwise fun left right => (compare left right).isLE = true := by
  have above : ∀ left right : Field,
      ¬ (compare left right).isLE = true ↔ Below right.identity left.identity := by
    intro left right
    rw [← compare_eq_lt_iff, Std.OrientedOrd.eq_swap (a := right)]
    cases compare left right <;> decide
  simp only [List.pairwise_iff_getElem, not_forall, above, Disordered, exists_prop]
  constructor
  · rintro ⟨earlier, later, left, right, before, first, second, below⟩
    obtain ⟨inside, rfl⟩ := List.getElem?_eq_some_iff.1 first
    obtain ⟨within, rfl⟩ := List.getElem?_eq_some_iff.1 second
    rw [List.length_map] at inside within
    rw [List.getElem_map, List.getElem_map] at below
    exact ⟨earlier, later, inside, within, before, below⟩
  · rintro ⟨earlier, later, inside, within, before, below⟩
    refine ⟨earlier, later, _, _, before, ?_, ?_, below⟩
    · rw [List.getElem?_map, List.getElem?_eq_getElem inside, Option.map_some]
    · rw [List.getElem?_map, List.getElem?_eq_getElem within, Option.map_some]

theorem descends_iff_disordered :
    descends fields = true ↔ Disordered (fields.map identity) := by
  rw [disordered_iff, ← descends_eq_false_iff, Bool.not_eq_false]

theorem descends_iff_moved (distinct : (fields.map identity).Nodup) :
    descends fields = true ↔
      (SortedSet.ofList fields).toList.map identity ≠ fields.map identity := by
  rw [← not_iff_not, Bool.not_eq_true, ne_eq, not_not]
  constructor
  · intro ordered
    rw [SortedSet.nodup_key_iff compare_eq_iff] at distinct
    rw [SortedSet.toList_ofList_of_pairwise (descends_eq_false_iff.1 ordered),
      SortedSet.dropRepeats_of_pairwise distinct]
  · -- A set ascends by what identifies its fields, and so does a list of fields like that.
    intro kept
    have ascending : ((SortedSet.ofList fields).toList.map identity).Pairwise Below :=
      List.pairwise_map.2 <| (SortedSet.pairwise_toList _).imp compare_eq_lt_iff.1
    rw [kept, List.pairwise_map] at ascending
    refine descends_eq_false_iff.2 (ascending.imp fun below => ?_)
    rw [compare_eq_lt_iff.2 below]
    rfl

end Field

theorem valuesReordered_mem_iff {type : Descriptor} {declared : List Field}
    {values : List Constant} :
    .valuesReordered type ∈ valueEvents type declared (some values) ↔
      values ≠ [] ∧ descends declared = true := by
  rw [valueEvents, List.mem_append, or_iff_right]
  · cases values <;> cases descends declared <;> simp
  · split <;> simp

namespace ClassDescription

variable {description : ClassDescription} {entry : Entry} {events : List LogEvent}
  {values : List Constant}

/-- A description that gives static values is told that they follow another order exactly if it
gives any and one of its static fields stands before a smaller one. If the static fields all differ,
that is to say that the entry has them in another order. -/
theorem valuesReordered_iff (read : description.toEntry = .ok (entry, events))
    (given : description.staticValues = some values) :
    (.valuesReordered description.type ∈ events ↔
      values ≠ [] ∧ Field.Disordered description.staticIdentities) ∧
    (description.staticIdentities.Nodup → values ≠ [] →
      (.valuesReordered description.type ∈ events ↔
        entry.staticFields.toList.map Field.identity ≠ description.staticIdentities)) := by
  obtain ⟨draft, drafted, rfl, rfl⟩ := toEntry_eq_ok_iff.1 read
  have told : .valuesReordered description.type ∈
      valueEvents draft.type draft.staticFields draft.staticValues ++ [draft.build.buildEvent] ↔
        values ≠ [] ∧ descends draft.staticFields = true := by
    obtain ⟨flags, fields, methods, _, _, _, rfl⟩ := toDraft_eq_ok_iff.1 drafted
    rw [List.mem_append, or_iff_left (by simp [ClassDef.buildEvent]), given]
    exact valuesReordered_mem_iff
  rw [told, ← map_identity_staticFields drafted]
  refine ⟨and_congr_right fun _ => Field.descends_iff_disordered, fun distinct some => ?_⟩
  rw [and_iff_right some]
  exact Field.descends_iff_moved distinct

def shuffled : ClassDescription where
  type := ⟨"La;"⟩
  fields := [{ name := "b", type := ⟨"I"⟩, access := ["static"] },
    { name := "c", type := ⟨"I"⟩, access := ["static"] }, { name := "a", type := ⟨"I"⟩ },
    { name := "a", type := ⟨"J"⟩, access := ["static"] }]
  staticValues := some [.int 1]

theorem shuffled_reordered : ∃ entry events, shuffled.toEntry = .ok (entry, events) ∧
    .valuesReordered ⟨"La;"⟩ ∈ events ∧
    entry.staticFields.toList.map Field.identity ≠ shuffled.staticIdentities := by
  obtain ⟨entry, events, read⟩ : ∃ entry events, shuffled.toEntry = .ok (entry, events) :=
    ⟨_, _, by cbv⟩
  obtain ⟨disorder, moved⟩ := valuesReordered_iff read rfl
  have told : .valuesReordered ⟨"La;"⟩ ∈ events :=
    disorder.2 ⟨by decide, 0, 2, _, _, by decide, rfl, rfl, .inr ⟨rfl, .inl (by decide)⟩⟩
  exact ⟨entry, events, read, told, (moved (by decide) (by decide)).1 told⟩

end ClassDescription

end ClassTable
