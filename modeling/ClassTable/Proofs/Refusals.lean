import ClassTable.Proofs.Rewording

/-!
Which descriptions are refused, and for what. A keyword that names no modifier is refused, the first
one of the first element that has one: the class, then its fields and its methods as listed. Of a
description that is not refused, every flag is set by a keyword on its own element.
-/

namespace ClassTable

section Failing

variable {α : Type} {passes : α → Prop} {list left right : List α} {first item : α}

def FirstFailing (passes : α → Prop) (list : List α) (item : α) : Prop :=
  ∃ before after, list = before ++ item :: after ∧ (∀ earlier ∈ before, passes earlier) ∧
    ¬ passes item

theorem not_firstFailing_nil : ¬ FirstFailing passes [] item := by
  rintro ⟨before, after, split, _⟩
  simp at split

theorem firstFailing_cons_iff : FirstFailing passes (first :: right) item ↔
    first = item ∧ ¬ passes item ∨ passes first ∧ FirstFailing passes right item := by
  constructor
  · rintro ⟨_ | ⟨head, before⟩, after, split, passed, failed⟩
    · cases split
      exact .inl ⟨rfl, failed⟩
    · cases split
      obtain ⟨headPassed, others⟩ := List.forall_mem_cons.1 passed
      exact .inr ⟨headPassed, before, after, rfl, others, failed⟩
  · rintro (⟨rfl, failed⟩ | ⟨headPassed, before, after, rfl, passed, failed⟩)
    · exact ⟨[], right, rfl, by simp, failed⟩
    · exact ⟨first :: before, after, rfl, List.forall_mem_cons.2 ⟨headPassed, passed⟩, failed⟩

theorem firstFailing_append_iff : FirstFailing passes (left ++ right) item ↔
    FirstFailing passes left item ∨
      (∀ earlier ∈ left, passes earlier) ∧ FirstFailing passes right item := by
  induction left with
  | nil => simp [not_firstFailing_nil]
  | cons first rest ih =>
      rw [List.cons_append, firstFailing_cons_iff, firstFailing_cons_iff, ih,
        List.forall_mem_cons, and_or_left, or_assoc, and_assoc]

theorem exists_firstFailing_iff :
    (∃ item, FirstFailing passes list item) ↔ ∃ item ∈ list, ¬ passes item := by
  induction list with
  | nil => simp [not_firstFailing_nil]
  | cons first rest ih =>
      simp only [firstFailing_cons_iff, exists_or, exists_and_left, ih, List.exists_mem_cons_iff]
      by_cases passed : passes first <;> simp [passed]

end Failing

namespace AccessFlags

variable {keyword : String} {keywords : List String} {refusal : UnknownKeyword}

theorem ofKeyword_eq_error_iff :
    ofKeyword keyword = .error refusal ↔ keyword = refusal.keyword ∧ ¬ IsModifier keyword := by
  rw [← exists_ofKeyword_iff, ofKeyword]
  cases refusal
  cases named? keyword <;> simp

theorem ofKeywords_eq_error_iff :
    ofKeywords keywords = .error refusal ↔ FirstFailing IsModifier keywords refusal.keyword := by
  rw [ofKeywords]
  -- The flags that are collected on the way do not matter to what is refused.
  generalize none = start
  induction keywords generalizing start with
  | nil => simp [not_firstFailing_nil, pure, Except.pure]
  | cons keyword rest ih =>
      have named : (∃ next, start.union <$> ofKeyword keyword = .ok next) ↔ IsModifier keyword := by
        simp only [Outcome.map_eq_ok_iff, ← exists_ofKeyword_iff]
        constructor
        · rintro ⟨_, flag, known, _⟩
          exact ⟨flag, known⟩
        · rintro ⟨flag, known⟩
          exact ⟨_, flag, known, rfl⟩
      rw [List.foldlM_cons, Outcome.bind_eq_error_iff, Outcome.map_eq_error_iff,
        ofKeyword_eq_error_iff, firstFailing_cons_iff]
      simp only [ih, exists_and_right, named]
      exact or_congr_left (and_congr_right fun same => same ▸ Iff.rfl)

end AccessFlags

def WellFlagged (element : FlagOwner × List String) : Prop :=
  AccessFlags.Known element.2

instance (element : FlagOwner × List String) : Decidable (WellFlagged element) :=
  inferInstanceAs (Decidable (AccessFlags.Known element.2))

def Refused (elements : List (FlagOwner × List String)) (refusal : InvalidFlags) : Prop :=
  ∃ access, FirstFailing WellFlagged elements (refusal.owner, access) ∧
    FirstFailing AccessFlags.IsModifier access refusal.cause.keyword

section Elements

variable {owner : FlagOwner} {access : List String} {refusal : InvalidFlags}
  {element : FlagOwner × List String} {left right rest elements : List (FlagOwner × List String)}

theorem flagsOf_eq_error_iff : flagsOf owner access = .error refusal ↔
    owner = refusal.owner ∧ FirstFailing AccessFlags.IsModifier access refusal.cause.keyword := by
  simp only [flagsOf, Outcome.mapError_eq_error_iff, AccessFlags.ofKeywords_eq_error_iff]
  constructor
  · rintro ⟨cause, first, rfl⟩
    exact ⟨rfl, first⟩
  · rintro ⟨rfl, first⟩
    exact ⟨refusal.cause, first, rfl⟩

theorem not_wellFlagged {keyword : String}
    (first : FirstFailing AccessFlags.IsModifier access keyword) :
    ¬ WellFlagged (owner, access) := by
  obtain ⟨keyword, listed, unknown⟩ := exists_firstFailing_iff.1 ⟨keyword, first⟩
  exact fun known => unknown (known keyword listed)

theorem refused_append_iff : Refused (left ++ right) refusal ↔
    Refused left refusal ∨ (∀ earlier ∈ left, WellFlagged earlier) ∧ Refused right refusal := by
  simp only [Refused, firstFailing_append_iff, or_and_right, exists_or, and_assoc, exists_and_left]

theorem refused_singleton_iff : Refused [(owner, access)] refusal ↔
    flagsOf owner access = .error refusal := by
  simp only [Refused, flagsOf_eq_error_iff, firstFailing_cons_iff, not_firstFailing_nil, and_false,
    or_false, Prod.mk.injEq]
  constructor
  · rintro ⟨_, ⟨⟨rfl, rfl⟩, _⟩, first⟩
    exact ⟨rfl, first⟩
  · rintro ⟨rfl, first⟩
    exact ⟨access, ⟨⟨rfl, rfl⟩, not_wellFlagged first⟩, first⟩

theorem exists_refused_iff :
    (∃ refusal, Refused elements refusal) ↔ ∃ element ∈ elements, ¬ WellFlagged element := by
  rw [← exists_firstFailing_iff]
  constructor
  · rintro ⟨refusal, access, first, _⟩
    exact ⟨_, first⟩
  · rintro ⟨⟨owner, access⟩, first⟩
    have failed : ¬ WellFlagged (owner, access) := first.choose_spec.choose_spec.2.2
    simp only [WellFlagged, AccessFlags.Known, not_forall, exists_prop] at failed
    obtain ⟨keyword, unknown⟩ := exists_firstFailing_iff.2 failed
    exact ⟨⟨owner, ⟨keyword⟩⟩, access, first, unknown⟩

theorem mapM_eq_error_iff_refused {α β : Type} {step : α → Except InvalidFlags β}
    {element : α → FlagOwner × List String}
    (reads : ∀ item, (∃ result, step item = .ok result) ↔ WellFlagged (element item))
    (refuses : ∀ item, step item = .error refusal ↔
      flagsOf (element item).1 (element item).2 = .error refusal)
    {items : List α} :
    items.mapM step = .error refusal ↔ Refused (items.map element) refusal := by
  simp only [Outcome.mapM_eq_error_iff, reads, refuses, flagsOf_eq_error_iff]
  constructor
  · rintro ⟨before, item, after, rfl, passed, named, first⟩
    refine ⟨(element item).2, ⟨before.map element, after.map element, ?_, ?_, ?_⟩, first⟩
    · rw [List.map_append, List.map_cons, ← named]
    · exact List.forall_mem_map.2 passed
    · exact not_wellFlagged first
  · rintro ⟨access, ⟨before, after, split, passed, _⟩, first⟩
    obtain ⟨heads, tail, rfl, rfl, behind⟩ := List.map_eq_append_iff.1 split
    obtain ⟨item, rest, rfl, named, rfl⟩ := List.map_eq_cons_iff.1 behind
    exact ⟨heads, item, rest, rfl, List.forall_mem_map.1 passed, by rw [named],
      by rw [named]; exact first⟩

end Elements

def FieldDescription.element (type : Descriptor) (field : FieldDescription) :
    FlagOwner × List String :=
  (.field type field.name, field.access)

def MethodDescription.element (type : Descriptor) (method : MethodDescription) :
    FlagOwner × List String :=
  (.method type method.name, method.access)

theorem FieldDescription.exists_toField_iff_wellFlagged {type : Descriptor}
    (field : FieldDescription) :
    (∃ built, field.toField type = .ok built) ↔ WellFlagged (field.element type) := by
  rw [exists_toField_iff, WellFlagged, element]

theorem MethodDescription.exists_toMethod_iff_wellFlagged {type : Descriptor}
    (method : MethodDescription) :
    (∃ built, method.toMethod type = .ok built) ↔ WellFlagged (method.element type) := by
  rw [exists_toMethod_iff, WellFlagged, element]

theorem FieldDescription.mapM_toField_eq_error_iff {type : Descriptor}
    {fields : List FieldDescription} {refusal : InvalidFlags} :
    fields.mapM (toField type) = .error refusal ↔ Refused (fields.map (element type)) refusal := by
  refine mapM_eq_error_iff_refused exists_toField_iff_wellFlagged fun field => ?_
  simp [toField, Outcome.bind_eq_error_iff, element, pure, Except.pure]

theorem MethodDescription.mapM_toMethod_eq_error_iff {type : Descriptor}
    {methods : List MethodDescription} {refusal : InvalidFlags} :
    methods.mapM (toMethod type) = .error refusal ↔
      Refused (methods.map (element type)) refusal := by
  refine mapM_eq_error_iff_refused exists_toMethod_iff_wellFlagged fun method => ?_
  simp [toMethod, Outcome.bind_eq_error_iff, element, pure, Except.pure]

namespace ClassDescription

variable {description : ClassDescription} {entry : Entry} {refusal : InvalidFlags}

def elements (description : ClassDescription) : List (FlagOwner × List String) :=
  [(.classItself description.type, description.access)] ++
    (description.fields.map (FieldDescription.element description.type) ++
      description.methods.map (MethodDescription.element description.type))

theorem toDraft_eq_error_iff :
    description.toDraft = .error refusal ↔ Refused description.elements refusal := by
  have fields : (∃ fields, description.fields.mapM (FieldDescription.toField description.type) =
      .ok fields) ↔ ∀ element ∈ description.fields.map (FieldDescription.element description.type),
        WellFlagged element := by
    simp only [Outcome.exists_mapM_eq_ok_iff, List.forall_mem_map,
      FieldDescription.exists_toField_iff_wellFlagged]
  rw [elements, refused_append_iff, refused_append_iff, refused_singleton_iff,
    ← FieldDescription.mapM_toField_eq_error_iff, ← MethodDescription.mapM_toMethod_eq_error_iff,
    ← fields, List.forall_mem_singleton, WellFlagged,
    ← exists_flagsOf_iff (.classItself description.type)]
  simp only [toDraft, Outcome.bind_eq_error_iff, pure, Except.pure, reduceCtorEq, and_false,
    exists_false, or_false, exists_and_right]

theorem toEntry_eq_error_iff :
    description.toEntry = .error refusal ↔ Refused description.elements refusal := by
  rw [toEntry_eq_error_iff_canonicalize, ← toDraft_eq_error_iff]
  constructor
  · intro refused
    cases drafted : description.toDraft with
    | error cause =>
        rw [canonicalize_of_refused drafted] at refused
        cases refused
        rfl
    | ok draft =>
        rw [canonicalize_of_draft drafted] at refused
        cases refused
  · exact canonicalize_of_refused

structure FlaggedField (type : Descriptor) (listed : FieldDescription) (built : Field) : Prop where
  identity : built.identity = listed.identityIn type
  annotations : built.annotations = listed.annotations
  flags : AccessFlags.IsUnion listed.access built.flags

structure FlaggedMethod (type : Descriptor) (listed : MethodDescription) (built : Method) :
    Prop where
  identity : built.identity = listed.identityIn type
  annotations : built.annotations = listed.annotations
  flags : AccessFlags.IsUnion listed.access built.flags

/-- The flags of a class are the union of its keywords, and its groups are collected from its
members as they are listed, each with the union of its own keywords. -/
structure Flagged (description : ClassDescription) (entry : Entry) : Prop where
  own : AccessFlags.IsUnion description.access entry.flags
  fields : ∃ fields, List.Forall₂ (FlaggedField description.type) description.fields fields ∧
    entry.staticFields = .ofList (fields.filter Field.isStatic) ∧
    entry.instanceFields = .ofList (fields.filter fun field => !field.isStatic)
  methods : ∃ methods, List.Forall₂ (FlaggedMethod description.type) description.methods methods ∧
    entry.directMethods = .ofList (methods.filter Method.isDirect) ∧
    entry.virtualMethods = .ofList (methods.filter fun method => !method.isDirect)

theorem Describes.flagged (described : description.Describes entry) :
    description.Flagged entry := by
  obtain ⟨draft, drafted, rfl⟩ := describes_iff.1 described
  obtain ⟨flags, fields, methods, own, fieldsRead, methodsRead, rfl⟩ := toDraft_eq_ok_iff.1 drafted
  refine ⟨?_, ⟨fields, ?_, rfl, rfl⟩, ⟨methods, ?_, rfl, rfl⟩⟩
  · exact AccessFlags.isUnion_of_ofKeywords (Outcome.mapError_eq_ok_iff.1 own)
  · refine (Outcome.mapM_eq_ok_iff.1 fieldsRead).imp fun listed built success => ?_
    obtain ⟨flags, read, rfl⟩ := FieldDescription.toField_eq_ok_iff.1 success
    exact ⟨rfl, rfl, AccessFlags.isUnion_of_ofKeywords read⟩
  · refine (Outcome.mapM_eq_ok_iff.1 methodsRead).imp fun listed built success => ?_
    obtain ⟨flags, read, rfl⟩ := MethodDescription.toMethod_eq_ok_iff.1 success
    exact ⟨rfl, rfl, AccessFlags.isUnion_of_ofKeywords read⟩

def spelt : ClassDescription where
  type := ⟨"La;"⟩
  access := ["public", " FINAL "]
  fields := [{ name := "f", type := ⟨"I"⟩, access := ["Static", "public", "static"] }]

def misspelt : ClassDescription :=
  { spelt with
    fields := spelt.fields ++
      [{ name := "g", type := ⟨"I"⟩, access := ["public", " Statik", "finel"] }]
    methods := [{ name := "m", access := ["privat"] }] }

end ClassDescription

end ClassTable
