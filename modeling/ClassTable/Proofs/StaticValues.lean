import ClassTable.Proofs.FieldGroups
import ClassTable.Proofs.Stability

/-!
Which static field a static value belongs to. Values go with the fields of the class, which are
sorted and have no repeats, while warnings go by the fields that the description lists. Where there
is no warning, the listed fields are sorted, so the two differ only by a field listed twice.
-/

namespace ClassTable

section Descent

variable {α : Type} [Ord α] [Std.TransOrd α] {list : List α}

theorem descends_eq_false_iff : descends list = false ↔
    list.Pairwise fun left right => (compare left right).isLE = true := by
  fun_induction descends list with
  | case1 first second rest ih =>
      rw [Bool.or_eq_false_iff, ih, List.pairwise_cons (a := first)]
      refine and_congr_left fun tail => ?_
      have ahead : (compare first second == .gt) = false ↔ (compare first second).isLE = true := by
        cases compare first second <;> decide
      rw [ahead, List.forall_mem_cons]
      constructor
      · intro atMost
        refine ⟨atMost, fun item later => ?_⟩
        exact Std.TransCmp.isLE_trans atMost ((List.pairwise_cons.1 tail).1 item later)
      · exact And.left
  | case2 list short =>
      rcases list with _ | ⟨first, _ | ⟨second, rest⟩⟩
      · simp
      · simp
      · exact absurd rfl (short first second rest)

omit [Std.TransOrd α] in
theorem take_dropRepeats {count : Nat} (inside : count ≤ list.length)
    (distinct : (list.take count).Pairwise fun left right => compare left right ≠ .eq) :
    (SortedSet.dropRepeats list).take count = list.take count := by
  fun_induction SortedSet.dropRepeats list generalizing count with
  | case1 => rfl
  | case2 => rfl
  | case3 first next rest equal ih =>
      rcases count with _ | _ | count
      · rfl
      · exact ih (by simp) (by simp)
      · exact absurd equal ((List.pairwise_cons.1 distinct).1 next (by simp))
  | case4 first next rest different ih =>
      cases count with
      | zero => rfl
      | succ count =>
          rw [List.take_succ_cons, List.pairwise_cons] at distinct
          rw [List.take_succ_cons, List.take_succ_cons,
            ih (Nat.le_of_succ_le_succ inside) distinct.2]

/-- A set built from a list that does not descend starts like the list, as far as no item there is
repeated, and no further. -/
theorem take_ofList_iff {κ : Type} {key : α → κ}
    (compared : ∀ {left right : α}, compare left right = .eq ↔ key left = key right) {count : Nat}
    (inside : count ≤ list.length) (ordered : count = 0 ∨ descends list = false) :
    count ≤ (SortedSet.ofList list).size ∧
        ((SortedSet.ofList list).toList.map key).take count = (list.map key).take count ↔
      ((list.map key).take count).Nodup := by
  constructor
  · rintro ⟨_, same⟩
    have distinct : ((SortedSet.ofList list).toList.map key).Nodup :=
      (SortedSet.nodup_key_iff compared).2
        ((SortedSet.pairwise_toList _).imp fun below equal => by rw [below] at equal; cases equal)
    rw [← same]
    exact distinct.sublist (List.take_sublist count _)
  · intro distinct
    rcases ordered with rfl | ordered
    · simp
    · rw [← List.map_take, SortedSet.nodup_key_iff compared] at distinct
      have kept := take_dropRepeats inside distinct
      rw [← SortedSet.toList_ofList_of_pairwise (descends_eq_false_iff.1 ordered)] at kept
      refine ⟨?_, by rw [← List.map_take, ← List.map_take, kept]⟩
      have length := congrArg List.length kept
      rw [List.length_take, List.length_take, SortedSet.length_toList] at length
      omega

end Descent

section Warnings

variable {type : Descriptor} {declared : List Field} {values : List Constant}

def Unwarned (events : List LogEvent) : Prop :=
  ∀ event ∈ events, event.level ≠ .warn

instance (events : List LogEvent) : Decidable (Unwarned events) :=
  inferInstanceAs (Decidable (∀ event ∈ events, event.level ≠ .warn))

theorem unwarned_valueEvents_iff : Unwarned (valueEvents type declared (some values)) ↔
    values.length ≤ declared.length ∧ (values = [] ∨ descends declared = false) := by
  rw [valueEvents, Unwarned, List.forall_mem_append]
  refine and_congr ?_ ?_
  · split
    next few => simpa [LogEvent.level] using few
    next enough => simpa using enough
  · cases values with
    | nil => simp
    | cons value rest => cases descends declared <;> simp [LogEvent.level]

end Warnings

namespace ClassDescription

variable {description : ClassDescription} {entry : Entry} {events : List LogEvent}
  {values : List Constant}

def staticIdentities (description : ClassDescription) : List (Descriptor × String × Descriptor) :=
  (description.fields.filter fun field => field.IsStatic).map
    (FieldDescription.identityIn description.type)

theorem map_identity_staticFields {draft : Draft} (drafted : description.toDraft = .ok draft) :
    draft.staticFields.map Field.identity = description.staticIdentities := by
  obtain ⟨flags, fields, methods, _, read, _, rfl⟩ := toDraft_eq_ok_iff.1 drafted
  have alike : ∀ (field : FieldDescription) (built : Field),
      field.toField description.type = .ok built → decide field.IsStatic = built.isStatic := by
    intro field built success
    rw [Bool.eq_iff_iff, decide_eq_true_iff, FieldDescription.isStatic_of_toField success]
  have sorted := Outcome.forall₂_filter (Outcome.mapM_eq_ok_iff.1 read) alike
  exact (Outcome.map_eq_map_of_forall₂ sorted fun field built success =>
    (FieldDescription.identity_of_toField success).symm).symm

/-- There is a static field for every value, and it is the one that is listed at the place of the
value. -/
structure PairedAsListed (description : ClassDescription) (values : List Constant)
    (entry : Entry) : Prop where
  enough : values.length ≤ entry.staticFields.size
  same : ∀ position < values.length,
    entry.staticFields.toList[position]?.map Field.identity =
      description.staticIdentities[position]?

theorem pairedAsListed_iff : description.PairedAsListed values entry ↔
    values.length ≤ entry.staticFields.size ∧
      (entry.staticFields.toList.map Field.identity).take values.length =
        description.staticIdentities.take values.length := by
  constructor
  · rintro ⟨enough, same⟩
    refine ⟨enough, List.ext_getElem? fun position => ?_⟩
    rw [List.getElem?_take, List.getElem?_take, List.getElem?_map]
    split
    next inside => exact same position inside
    next => rfl
  · rintro ⟨enough, same⟩
    refine ⟨enough, fun position inside => ?_⟩
    have there := congrArg (fun identities => identities[position]?) same
    rwa [List.getElem?_take_of_lt inside, List.getElem?_take_of_lt inside,
      List.getElem?_map] at there

/-- Where no warning is given, the values belong to the static fields as they are listed exactly if
no field is listed twice among as many of them as there are values. -/
theorem pairedAsListed_of_unwarned (read : description.toEntry = .ok (entry, events))
    (given : description.staticValues = some values) (unwarned : Unwarned events) :
    description.PairedAsListed values entry ↔
      (description.staticIdentities.take values.length).Nodup := by
  obtain ⟨draft, drafted, rfl, rfl⟩ := toEntry_eq_ok_iff.1 read
  have named := map_identity_staticFields drafted
  have values : draft.staticValues = some values := by
    obtain ⟨flags, fields, methods, _, _, _, rfl⟩ := toDraft_eq_ok_iff.1 drafted
    exact given
  rw [values] at unwarned
  obtain ⟨enough, ordered⟩ := unwarned_valueEvents_iff.1 fun event member =>
    unwarned event (List.mem_append_left _ member)
  rw [pairedAsListed_iff, ← named]
  exact take_ofList_iff Field.compare_eq_iff enough (ordered.imp_left List.length_eq_zero_iff.2)

def valued : ClassDescription where
  type := ⟨"La;"⟩
  fields := [{ name := "a", type := ⟨"I"⟩, access := ["static"] },
    { name := "f", type := ⟨"I"⟩ }, { name := "b", type := ⟨"I"⟩, access := ["static"] }]
  staticValues := some [.int 1, .int 2]

theorem valued_paired : ∃ entry events, valued.toEntry = .ok (entry, events) ∧ Unwarned events ∧
    valued.PairedAsListed [.int 1, .int 2] entry := by
  obtain ⟨entry, events, read, unwarned⟩ :
      ∃ entry events, valued.toEntry = .ok (entry, events) ∧ Unwarned events :=
    ⟨_, _, by cbv, by decide⟩
  exact ⟨entry, events, read, unwarned,
    (pairedAsListed_of_unwarned read rfl unwarned).2 (by decide)⟩

def doubled : ClassDescription where
  type := ⟨"La;"⟩
  fields := [{ name := "f", type := ⟨"I"⟩, access := ["static"] },
    { name := "f", type := ⟨"I"⟩, access := ["static"] }]
  staticValues := some [.int 1, .int 2]

/-- A static field that is listed twice gives no warning, and the second value has no field. -/
theorem doubled_unpaired : ∃ entry events, doubled.toEntry = .ok (entry, events) ∧
    Unwarned events ∧ entry.staticFields.size = 1 ∧
    ¬ doubled.PairedAsListed [.int 1, .int 2] entry := by
  refine ⟨_, _, by cbv, by decide, by cbv, fun paired => ?_⟩
  exact absurd paired.enough (by decide)

end ClassDescription

end ClassTable
