import ClassTable.Proofs.Describing

/-!
The groups that the fields of a described class are split into. A field is static if one of its
keywords says so, and keywords are no part of what identifies a field: one that is listed more than
once may come to stand in both groups. Nothing else makes the groups overlap.
-/

namespace ClassTable

namespace FieldDescription

def IsStatic (field : FieldDescription) : Prop :=
  ∃ keyword ∈ field.access, AccessFlags.Spells keyword "static"

instance (field : FieldDescription) : Decidable field.IsStatic :=
  inferInstanceAs (Decidable (∃ keyword ∈ field.access, AccessFlags.Spells keyword "static"))

def identityIn (type : Descriptor) (field : FieldDescription) : Descriptor × String × Descriptor :=
  (type, field.name, field.type)

theorem toField_eq_ok_iff {type : Descriptor} {field : FieldDescription} {built : Field} :
    field.toField type = .ok built ↔
      ∃ flags, AccessFlags.ofKeywords field.access = .ok flags ∧
        { definingClass := type
          name := field.name
          type := field.type
          flags
          annotations := field.annotations : Field } = built := by
  simp only [toField, Outcome.bind_eq_ok_iff, pure, Except.pure, Except.ok.injEq]
  simp only [flagsOf, Outcome.mapError_eq_ok_iff]

theorem identity_of_toField {type : Descriptor} {field : FieldDescription} {built : Field}
    (success : field.toField type = .ok built) : built.identity = field.identityIn type := by
  obtain ⟨flags, _, rfl⟩ := toField_eq_ok_iff.1 success
  rfl

theorem isStatic_of_toField {type : Descriptor} {field : FieldDescription} {built : Field}
    (success : field.toField type = .ok built) : built.isStatic = true ↔ field.IsStatic := by
  obtain ⟨flags, read, rfl⟩ := toField_eq_ok_iff.1 success
  exact AccessFlags.contains_staticBit_iff read

end FieldDescription

namespace ClassDef

def HasStaticField (definition : ClassDef) (identity : Descriptor × String × Descriptor) : Prop :=
  ∃ field ∈ definition.staticFields.toList, field.identity = identity

def HasInstanceField (definition : ClassDef) (identity : Descriptor × String × Descriptor) :
    Prop :=
  ∃ field ∈ definition.instanceFields.toList, field.identity = identity

theorem size_allFields_eq_add_iff (definition : ClassDef) :
    definition.allFields.size = definition.staticFields.size + definition.instanceFields.size ↔
      ∀ identity, ¬ (definition.HasStaticField identity ∧ definition.HasInstanceField identity) :=
  SortedSet.size_merged_eq_add_iff_key Field.compare_eq_iff _ _

end ClassDef

namespace ClassDescription

variable {description : ClassDescription} {entry : Entry}

theorem exists_listed_iff {type : Descriptor} {listed : List FieldDescription}
    {fields : List Field} {group : Field → Bool} {inGroup : FieldDescription → Prop}
    (read : List.Forall₂ (fun field built => field.toField type = .ok built) listed fields)
    (sorted : ∀ field built, field.toField type = .ok built →
      (group built = true ↔ inGroup field)) (identity : Descriptor × String × Descriptor) :
    (∃ built ∈ fields.filter group, built.identity = identity) ↔
      ∃ field ∈ listed, field.identityIn type = identity ∧ inGroup field := by
  constructor
  · rintro ⟨built, member, rfl⟩
    obtain ⟨kept, grouped⟩ := List.mem_filter.1 member
    obtain ⟨field, given, success⟩ := Outcome.exists_of_mem_right read kept
    exact ⟨field, given, (FieldDescription.identity_of_toField success).symm,
      (sorted field built success).1 grouped⟩
  · rintro ⟨field, given, rfl, grouped⟩
    obtain ⟨built, kept, success⟩ := Outcome.exists_of_mem_left read given
    exact ⟨built, List.mem_filter.2 ⟨kept, (sorted field built success).2 grouped⟩,
      FieldDescription.identity_of_toField success⟩

theorem hasStaticField_iff (described : description.Describes entry)
    (identity : Descriptor × String × Descriptor) : entry.HasStaticField identity ↔
      ∃ field ∈ description.fields,
        field.identityIn description.type = identity ∧ field.IsStatic := by
  obtain ⟨draft, drafted, rfl⟩ := describes_iff.1 described
  obtain ⟨flags, fields, methods, _, read, _, rfl⟩ := toDraft_eq_ok_iff.1 drafted
  refine (SortedSet.exists_key_ofList_iff Field.compare_eq_iff).trans ?_
  refine exists_listed_iff (Outcome.mapM_eq_ok_iff.1 read) (fun field built success => ?_) identity
  exact FieldDescription.isStatic_of_toField success

theorem hasInstanceField_iff (described : description.Describes entry)
    (identity : Descriptor × String × Descriptor) : entry.HasInstanceField identity ↔
      ∃ field ∈ description.fields,
        field.identityIn description.type = identity ∧ ¬ field.IsStatic := by
  obtain ⟨draft, drafted, rfl⟩ := describes_iff.1 described
  obtain ⟨flags, fields, methods, _, read, _, rfl⟩ := toDraft_eq_ok_iff.1 drafted
  refine (SortedSet.exists_key_ofList_iff Field.compare_eq_iff).trans ?_
  refine exists_listed_iff (Outcome.mapM_eq_ok_iff.1 read) (fun field built success => ?_) identity
  rw [← FieldDescription.isStatic_of_toField success, Bool.not_eq_true', Bool.not_eq_true]

/-- Each group of a described class has what identifies the listed fields of the group. A class has
as many fields as its groups together exactly when no field is listed both as a static one and as
one that is not. -/
theorem fields_of_describes (described : description.Describes entry) :
    (∀ identity, entry.HasStaticField identity ↔
      ∃ field ∈ description.fields,
        field.identityIn description.type = identity ∧ field.IsStatic) ∧
    (∀ identity, entry.HasInstanceField identity ↔
      ∃ field ∈ description.fields,
        field.identityIn description.type = identity ∧ ¬ field.IsStatic) ∧
    (entry.allFields.size = entry.staticFields.size + entry.instanceFields.size ↔
      ∀ left ∈ description.fields, ∀ right ∈ description.fields,
        left.identityIn description.type = right.identityIn description.type →
          (left.IsStatic ↔ right.IsStatic)) := by
  refine ⟨hasStaticField_iff described, hasInstanceField_iff described, ?_⟩
  rw [ClassDef.size_allFields_eq_add_iff]
  simp only [hasStaticField_iff described, hasInstanceField_iff described]
  constructor
  · intro apart left leftGiven right rightGiven same
    constructor
    · intro isStatic
      by_contra isInstance
      exact apart _ ⟨⟨left, leftGiven, same, isStatic⟩, right, rightGiven, rfl, isInstance⟩
    · intro isStatic
      by_contra isInstance
      exact apart _ ⟨⟨right, rightGiven, rfl, isStatic⟩, left, leftGiven, same, isInstance⟩
  · rintro agreed identity ⟨⟨left, leftGiven, leftNamed, isStatic⟩,
      right, rightGiven, rightNamed, isInstance⟩
    exact isInstance
      ((agreed left leftGiven right rightGiven (leftNamed.trans rightNamed.symm)).1 isStatic)

def grouped : ClassDescription where
  type := ⟨"La;"⟩
  fields := [{ name := "count", type := ⟨"I"⟩, access := ["private"] },
    { name := "LIMIT", type := ⟨"I"⟩, access := ["final", " Static "] },
    { name := "count", type := ⟨"J"⟩ }]

theorem grouped_described : ∃ entry, grouped.Describes entry ∧
    entry.HasStaticField (⟨"La;"⟩, "LIMIT", ⟨"I"⟩) ∧
    ¬ entry.HasInstanceField (⟨"La;"⟩, "LIMIT", ⟨"I"⟩) ∧
    entry.allFields.size = entry.staticFields.size + entry.instanceFields.size := by
  obtain ⟨entry, described⟩ : ∃ entry, grouped.Describes entry := ⟨_, _, by cbv⟩
  obtain ⟨statics, instances, sizes⟩ := fields_of_describes described
  refine ⟨entry, described, (statics _).2 (by decide), fun found => ?_, sizes.2 (by decide)⟩
  exact absurd ((instances _).1 found) (by decide)

def repeated : ClassDescription where
  type := ⟨"La;"⟩
  fields := [{ name := "f", type := ⟨"I"⟩, access := ["static"] }, { name := "f", type := ⟨"I"⟩ }]

/-- A field that is listed with and without `static` is a static and an instance field of its class,
and counts once among all fields. -/
theorem repeated_in_both_groups : ∃ entry, repeated.Describes entry ∧
    entry.HasStaticField (⟨"La;"⟩, "f", ⟨"I"⟩) ∧ entry.HasInstanceField (⟨"La;"⟩, "f", ⟨"I"⟩) ∧
    entry.staticFields.size = 1 ∧ entry.instanceFields.size = 1 ∧ entry.allFields.size = 1 := by
  have described : repeated.Describes _ := ⟨_, by cbv⟩
  refine ⟨_, described, (hasStaticField_iff described _).2 (by decide),
    (hasInstanceField_iff described _).2 (by decide), ?_, ?_, ?_⟩
  · cbv
  · cbv
  · cbv

end ClassDescription

end ClassTable
