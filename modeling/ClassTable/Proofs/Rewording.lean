import ClassTable.Proofs.FieldGroups
import ClassTable.Report

/-!
Descriptions that say the same in other words: members are listed in another order, and keywords in
another order or more often. As long as no member is listed twice, both describe the same entry.
-/

namespace ClassTable

def SameKeywords (left right : List String) : Prop :=
  ∀ keyword, keyword ∈ left ↔ keyword ∈ right

instance (left right : List String) : Decidable (SameKeywords left right) :=
  decidable_of_iff (left ⊆ right ∧ right ⊆ left)
    ⟨fun both _ => ⟨fun member => both.1 member, fun member => both.2 member⟩,
      fun same => ⟨fun keyword => (same keyword).1, fun keyword => (same keyword).2⟩⟩

namespace AccessFlags

variable {left right : List String} {flags : AccessFlags}

theorem known_iff_of_same (same : SameKeywords left right) : Known left ↔ Known right := by
  simp only [Known, same _]

theorem ofKeywords_of_same (same : SameKeywords left right) (read : ofKeywords left = .ok flags) :
    ofKeywords right = .ok flags := by
  have known : Known right := (known_iff_of_same same).1 (exists_ofKeywords_iff.1 ⟨flags, read⟩)
  obtain ⟨others, othersRead⟩ := exists_ofKeywords_iff.2 known
  have equal : others = flags := by
    apply eq_of_has_iff
    intro bit
    rw [isUnion_of_ofKeywords read, isUnion_of_ofKeywords othersRead]
    simp only [same _]
  rw [othersRead, equal]

end AccessFlags

theorem flagsOf_of_same {owner : FlagOwner} {left right : List String} {flags : AccessFlags}
    (same : SameKeywords left right) (read : flagsOf owner left = .ok flags) :
    flagsOf owner right = .ok flags := by
  rw [flagsOf, Outcome.mapError_eq_ok_iff] at read ⊢
  exact AccessFlags.ofKeywords_of_same same read

structure FieldDescription.Reworded (left right : FieldDescription) : Prop where
  access : SameKeywords left.access right.access
  rest : { left with access := right.access } = right

structure MethodDescription.Reworded (left right : MethodDescription) : Prop where
  access : SameKeywords left.access right.access
  rest : { left with access := right.access } = right

theorem FieldDescription.Reworded.toField {left right : FieldDescription} {type : Descriptor}
    {built : Field} (reworded : left.Reworded right) (success : left.toField type = .ok built) :
    right.toField type = .ok built := by
  obtain ⟨flags, read, rfl⟩ := toField_eq_ok_iff.1 success
  refine toField_eq_ok_iff.2 ⟨flags, AccessFlags.ofKeywords_of_same reworded.access read, ?_⟩
  rw [← reworded.rest]

namespace MethodDescription

def identityIn (type : Descriptor) (method : MethodDescription) :
    Descriptor × String × Prototype :=
  (type, method.name, ⟨method.parameters, method.returnType⟩)

theorem toMethod_eq_ok_iff {type : Descriptor} {method : MethodDescription} {built : Method} :
    method.toMethod type = .ok built ↔
      ∃ flags, AccessFlags.ofKeywords method.access = .ok flags ∧
        { definingClass := type
          name := method.name
          prototype := ⟨method.parameters, method.returnType⟩
          flags
          annotations := method.annotations : Method } = built := by
  simp only [toMethod, Outcome.bind_eq_ok_iff, pure, Except.pure, Except.ok.injEq]
  simp only [flagsOf, Outcome.mapError_eq_ok_iff]

theorem identity_of_toMethod {type : Descriptor} {method : MethodDescription} {built : Method}
    (success : method.toMethod type = .ok built) : built.identity = method.identityIn type := by
  obtain ⟨flags, _, rfl⟩ := toMethod_eq_ok_iff.1 success
  rfl

theorem Reworded.toMethod {left right : MethodDescription} {type : Descriptor} {built : Method}
    (reworded : left.Reworded right) (success : left.toMethod type = .ok built) :
    right.toMethod type = .ok built := by
  obtain ⟨flags, read, rfl⟩ := toMethod_eq_ok_iff.1 success
  refine toMethod_eq_ok_iff.2 ⟨flags, AccessFlags.ofKeywords_of_same reworded.access read, ?_⟩
  rw [← reworded.rest]

end MethodDescription

namespace Draft

structure Reordered (left right : Draft) : Prop where
  staticFields : left.staticFields.Perm right.staticFields
  instanceFields : left.instanceFields.Perm right.instanceFields
  methods : left.methods.Perm right.methods
  rest : { left with
    staticFields := right.staticFields
    instanceFields := right.instanceFields
    methods := right.methods } = right

structure Distinct (draft : Draft) : Prop where
  staticFields : (draft.staticFields.map Field.identity).Nodup
  instanceFields : (draft.instanceFields.map Field.identity).Nodup
  methods : (draft.methods.map Method.identity).Nodup

/-- A draft that lists no member twice is built into the same entry in whatever order it lists
them. -/
theorem buildWith_of_reordered {left right : Draft} (reordered : left.Reordered right)
    (distinct : left.Distinct) (direct : Method → Bool) :
    left.buildWith direct = right.buildWith direct := by
  have statics := SortedSet.ofList_eq_of_perm reordered.staticFields
    ((SortedSet.nodup_key_iff Field.compare_eq_iff).1 distinct.staticFields)
  have instances := SortedSet.ofList_eq_of_perm reordered.instanceFields
    ((SortedSet.nodup_key_iff Field.compare_eq_iff).1 distinct.instanceFields)
  have methods : ∀ group : Method → Bool, SortedSet.ofList (left.methods.filter group) =
      SortedSet.ofList (right.methods.filter group) := fun group =>
    SortedSet.ofList_eq_of_perm (reordered.methods.filter group)
      (((SortedSet.nodup_key_iff Method.compare_eq_iff).1 distinct.methods).filter group)
  rw [← reordered.rest, buildWith, buildWith]
  simp only [statics, instances, methods]

end Draft

namespace ClassDescription

variable {left right : ClassDescription} {entry : Entry}

structure Reworded (left right : ClassDescription) : Prop where
  access : SameKeywords left.access right.access
  fields : ∃ listed, left.fields.Perm listed ∧
    List.Forall₂ FieldDescription.Reworded listed right.fields
  methods : ∃ listed, left.methods.Perm listed ∧
    List.Forall₂ MethodDescription.Reworded listed right.methods
  rest : { left with
    access := right.access
    fields := right.fields
    methods := right.methods } = right

structure Distinct (description : ClassDescription) : Prop where
  fields : (description.fields.map (FieldDescription.identityIn description.type)).Nodup
  methods : (description.methods.map (MethodDescription.identityIn description.type)).Nodup

theorem Distinct.toDraft {draft : Draft} (distinct : left.Distinct)
    (drafted : left.toDraft = .ok draft) : draft.Distinct := by
  obtain ⟨flags, fields, methods, _, fieldsRead, methodsRead, rfl⟩ := toDraft_eq_ok_iff.1 drafted
  have fieldIdentities := Outcome.map_eq_map_of_forall₂ (Outcome.mapM_eq_ok_iff.1 fieldsRead)
    fun field built success => (FieldDescription.identity_of_toField success).symm
  have methodIdentities := Outcome.map_eq_map_of_forall₂ (Outcome.mapM_eq_ok_iff.1 methodsRead)
    fun method built success => (MethodDescription.identity_of_toMethod success).symm
  have distinctFields := fieldIdentities ▸ distinct.fields
  refine ⟨?_, ?_, methodIdentities ▸ distinct.methods⟩
  · exact distinctFields.sublist (List.filter_sublist.map Field.identity)
  · exact distinctFields.sublist (List.filter_sublist.map Field.identity)

theorem Reworded.toDraft {draft : Draft} (reworded : left.Reworded right)
    (drafted : left.toDraft = .ok draft) :
    ∃ other, right.toDraft = .ok other ∧ draft.Reordered other := by
  obtain ⟨flags, fields, methods, own, fieldsRead, methodsRead, rfl⟩ := toDraft_eq_ok_iff.1 drafted
  obtain ⟨listedFields, fieldOrder, fieldWords⟩ := reworded.fields
  obtain ⟨listedMethods, methodOrder, methodWords⟩ := reworded.methods
  obtain ⟨otherFields, otherFieldsRead, fieldsPermuted⟩ :=
    Outcome.mapM_of_perm fieldsRead fieldOrder fieldWords
      fun field other built same => same.toField
  obtain ⟨otherMethods, otherMethodsRead, methodsPermuted⟩ :=
    Outcome.mapM_of_perm methodsRead methodOrder methodWords
      fun method other built same => same.toMethod
  have type : right.type = left.type := by rw [← reworded.rest]
  refine ⟨_, toDraft_eq_ok_iff.2 ⟨flags, otherFields, otherMethods, ?_, ?_, ?_, rfl⟩, ?_⟩
  · rw [type]
    exact flagsOf_of_same reworded.access own
  · rw [type]
    exact otherFieldsRead
  · rw [type]
    exact otherMethodsRead
  · exact ⟨fieldsPermuted.filter _, fieldsPermuted.filter _, methodsPermuted,
      by rw [← reworded.rest]⟩

theorem Describes.of_reworded (reworded : left.Reworded right) (distinct : left.Distinct)
    (described : left.Describes entry) : right.Describes entry := by
  obtain ⟨draft, drafted, rfl⟩ := describes_iff.1 described
  obtain ⟨other, otherDrafted, reordered⟩ := reworded.toDraft drafted
  refine describes_iff.2 ⟨other, otherDrafted, ?_⟩
  exact (Draft.buildWith_of_reordered reordered (distinct.toDraft drafted) _).symm

theorem Describes.unique {other : Entry} (described : left.Describes entry)
    (otherDescribed : left.Describes other) : entry = other := by
  obtain ⟨events, read⟩ := described
  obtain ⟨otherEvents, otherRead⟩ := otherDescribed
  rw [read] at otherRead
  cases otherRead
  rfl

theorem Reworded.keywordsKnown_iff (reworded : left.Reworded right) :
    left.KeywordsKnown ↔ right.KeywordsKnown := by
  obtain ⟨listedFields, fieldOrder, fieldWords⟩ := reworded.fields
  obtain ⟨listedMethods, methodOrder, methodWords⟩ := reworded.methods
  constructor
  · intro known
    refine ⟨(AccessFlags.known_iff_of_same reworded.access).1 known.own, ?_, ?_⟩
    · intro field member
      obtain ⟨old, listed, same⟩ := Outcome.exists_of_mem_right fieldWords member
      exact (AccessFlags.known_iff_of_same same.access).1
        (known.fields old (fieldOrder.symm.subset listed))
    · intro method member
      obtain ⟨old, listed, same⟩ := Outcome.exists_of_mem_right methodWords member
      exact (AccessFlags.known_iff_of_same same.access).1
        (known.methods old (methodOrder.symm.subset listed))
  · intro known
    refine ⟨(AccessFlags.known_iff_of_same reworded.access).2 known.own, ?_, ?_⟩
    · intro field member
      obtain ⟨new, listed, same⟩ :=
        Outcome.exists_of_mem_left fieldWords (fieldOrder.subset member)
      exact (AccessFlags.known_iff_of_same same.access).2 (known.fields new listed)
    · intro method member
      obtain ⟨new, listed, same⟩ :=
        Outcome.exists_of_mem_left methodWords (methodOrder.subset member)
      exact (AccessFlags.known_iff_of_same same.access).2 (known.methods new listed)

/-- Of two descriptions in other words, both describe an entry or neither does, and it is the same
one, with the same directory and the same report. -/
theorem describes_of_reworded (reworded : left.Reworded right) (distinct : left.Distinct) :
    ((∃ entry, left.Describes entry) ↔ ∃ entry, right.Describes entry) ∧
    ∀ leftEntry rightEntry, left.Describes leftEntry → right.Describes rightEntry →
      leftEntry = rightEntry ∧ leftEntry.directorySize = rightEntry.directorySize ∧
        leftEntry.report = rightEntry.report := by
  constructor
  · rw [exists_describes_iff, exists_describes_iff]
    exact reworded.keywordsKnown_iff
  · intro leftEntry rightEntry leftDescribed rightDescribed
    have same : leftEntry = rightEntry :=
      (leftDescribed.of_reworded reworded distinct).unique rightDescribed
    exact ⟨same, by rw [same], by rw [same]⟩

def tidy : ClassDescription where
  type := ⟨"La;"⟩
  access := ["public", "final"]
  fields := [{ name := "zeta", type := ⟨"I"⟩, access := ["static", "final"],
               annotations := [⟨"LTag;"⟩] },
    { name := "alpha", type := ⟨"I"⟩ }]
  methods := [{ name := "get", returnType := ⟨"I"⟩, access := ["private"] }, { name := "get" }]
  staticValues := some [.int 1]

def untidy : ClassDescription :=
  { tidy with
    access := ["final", "public", "final"]
    fields := [{ name := "alpha", type := ⟨"I"⟩ },
      { name := "zeta", type := ⟨"I"⟩, access := ["final", "static", "static"],
        annotations := [⟨"LTag;"⟩] }]
    methods := [{ name := "get" },
      { name := "get", returnType := ⟨"I"⟩, access := ["private", "private"] }] }

theorem tidy_reworded : tidy.Reworded untidy ∧ tidy.Distinct ∧
    ∃ entry, tidy.Describes entry ∧ untidy.Describes entry := by
  have reworded : tidy.Reworded untidy := by
    refine ⟨by decide, ⟨_, .swap _ _ [], ?_⟩, ⟨_, .swap _ _ [], ?_⟩, rfl⟩
    · exact .cons ⟨by decide, rfl⟩ (.cons ⟨by decide, rfl⟩ .nil)
    · exact .cons ⟨by decide, rfl⟩ (.cons ⟨by decide, rfl⟩ .nil)
  have distinct : tidy.Distinct := ⟨by decide, by decide⟩
  obtain ⟨both, same⟩ := describes_of_reworded reworded distinct
  obtain ⟨entry, described⟩ : ∃ entry, tidy.Describes entry := ⟨_, _, by cbv⟩
  obtain ⟨other, otherDescribed⟩ := both.1 ⟨entry, described⟩
  have equal : entry = other := (same entry other described otherDescribed).1
  exact ⟨reworded, distinct, entry, described, equal ▸ otherDescribed⟩

end ClassDescription

end ClassTable
