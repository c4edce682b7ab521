import ClassTable.Layout
import ClassTable.Proofs.Keywords
import ClassTable.Proofs.Lookup
import ClassTable.Proofs.Outcome
import Mathlib.Data.List.Perm.Basic

/-!
The pool that a list of descriptions makes. A description is turned into an entry by itself, and the
entries go into one pool exactly when their types are distinct, so the pool does not depend on the
order of the descriptions.
-/

namespace ClassTable

theorem exists_flagsOf_iff (owner : FlagOwner) {access : List String} :
    (∃ flags, flagsOf owner access = .ok flags) ↔ AccessFlags.Known access := by
  rw [flagsOf, ← AccessFlags.exists_ofKeywords_iff]
  cases AccessFlags.ofKeywords access <;> simp [Except.mapError]

theorem FieldDescription.exists_toField_iff {type : Descriptor} {field : FieldDescription} :
    (∃ built, field.toField type = .ok built) ↔ AccessFlags.Known field.access := by
  rw [toField, Outcome.exists_bind_eq_ok_iff, ← exists_flagsOf_iff (.field type field.name)]
  simp [pure, Except.pure]

theorem MethodDescription.exists_toMethod_iff {type : Descriptor} {method : MethodDescription} :
    (∃ built, method.toMethod type = .ok built) ↔ AccessFlags.Known method.access := by
  rw [toMethod, Outcome.exists_bind_eq_ok_iff, ← exists_flagsOf_iff (.method type method.name)]
  simp [pure, Except.pure]

namespace ClassDescription

variable {description : ClassDescription} {draft : Draft} {entry : Entry} {events : List LogEvent}
  {refusal : InvalidFlags}

structure KeywordsKnown (description : ClassDescription) : Prop where
  own : AccessFlags.Known description.access
  fields : ∀ field ∈ description.fields, AccessFlags.Known field.access
  methods : ∀ method ∈ description.methods, AccessFlags.Known method.access

theorem toDraft_eq_ok_iff : description.toDraft = .ok draft ↔ ∃ flags fields methods,
    flagsOf (.classItself description.type) description.access = .ok flags ∧
      description.fields.mapM (FieldDescription.toField description.type) = .ok fields ∧
      description.methods.mapM (MethodDescription.toMethod description.type) = .ok methods ∧
      { type := description.type
        flags
        superclass := description.superclass
        interfaces := description.interfaces
        sourceFile := description.sourceFile
        annotations := description.annotations
        staticFields := fields.filter Field.isStatic
        instanceFields := fields.filter fun field => !field.isStatic
        methods
        staticValues := description.staticValues : Draft } = draft := by
  simp only [toDraft, Outcome.bind_eq_ok_iff, pure, Except.pure, Except.ok.injEq, exists_and_left]

theorem exists_toDraft_iff : (∃ draft, description.toDraft = .ok draft) ↔
    description.KeywordsKnown := by
  simp only [toDraft_eq_ok_iff]
  constructor
  · rintro ⟨_, flags, fields, methods, own, fieldsRead, methodsRead, rfl⟩
    have readFields := Outcome.exists_mapM_eq_ok_iff.1 ⟨fields, fieldsRead⟩
    have readMethods := Outcome.exists_mapM_eq_ok_iff.1 ⟨methods, methodsRead⟩
    exact ⟨(exists_flagsOf_iff _).1 ⟨flags, own⟩,
      fun field member => FieldDescription.exists_toField_iff.1 (readFields field member),
      fun method member => MethodDescription.exists_toMethod_iff.1 (readMethods method member)⟩
  · intro known
    obtain ⟨flags, own⟩ := (exists_flagsOf_iff (.classItself description.type)).2 known.own
    obtain ⟨fields, fieldsRead⟩ := Outcome.exists_mapM_eq_ok_iff.2 fun field member =>
      FieldDescription.exists_toField_iff.2 (known.fields field member)
    obtain ⟨methods, methodsRead⟩ := Outcome.exists_mapM_eq_ok_iff.2 fun method member =>
      MethodDescription.exists_toMethod_iff.2 (known.methods method member)
    exact ⟨_, flags, fields, methods, own, fieldsRead, methodsRead, rfl⟩

theorem canonicalize_of_refused (refused : description.toDraft = .error refusal) :
    description.canonicalize = (.error refusal, []) := by
  rw [canonicalize, refused]

theorem canonicalize_of_draft (drafted : description.toDraft = .ok draft) :
    description.canonicalize = (.ok draft.build,
      valueEvents draft.type draft.staticFields draft.staticValues ++ [draft.build.buildEvent]) := by
  rw [canonicalize, drafted]

theorem toEntry_eq_ok_iff_canonicalize : description.toEntry = .ok (entry, events) ↔
    description.canonicalize = (.ok entry, events) := by
  rw [toEntry]
  split
  next reported done => simp [done]
  next built reported done => simp [done]

/-- Nothing is reported of a description that is refused. -/
theorem toEntry_eq_error_iff_canonicalize : description.toEntry = .error refusal ↔
    description.canonicalize = (.error refusal, []) := by
  cases drafted : description.toDraft with
  | error cause => simp [toEntry, canonicalize_of_refused drafted]
  | ok draft => simp [toEntry, canonicalize_of_draft drafted]

theorem toEntry_eq_ok_iff : description.toEntry = .ok (entry, events) ↔
    ∃ draft, description.toDraft = .ok draft ∧ draft.build = entry ∧
      valueEvents draft.type draft.staticFields draft.staticValues ++ [draft.build.buildEvent] =
        events := by
  rw [toEntry_eq_ok_iff_canonicalize]
  cases drafted : description.toDraft with
  | error cause => simp [canonicalize_of_refused drafted]
  | ok draft => simp [canonicalize_of_draft drafted]

def Describes (description : ClassDescription) (entry : Entry) : Prop :=
  ∃ events, description.toEntry = .ok (entry, events)

theorem describes_iff : description.Describes entry ↔
    ∃ draft, description.toDraft = .ok draft ∧ draft.build = entry := by
  simp only [Describes, toEntry_eq_ok_iff]
  constructor
  · rintro ⟨events, draft, read, built, _⟩
    exact ⟨draft, read, built⟩
  · rintro ⟨draft, read, built⟩
    exact ⟨_, draft, read, built, rfl⟩

theorem exists_describes_iff : (∃ entry, description.Describes entry) ↔
    description.KeywordsKnown := by
  simp only [describes_iff, ← exists_toDraft_iff]
  constructor
  · rintro ⟨_, draft, read, _⟩
    exact ⟨draft, read⟩
  · rintro ⟨draft, read⟩
    exact ⟨draft.build, draft, read, rfl⟩

structure Outlines (description : ClassDescription) (entry : Entry) : Prop where
  type : entry.type = description.type
  superclass : entry.superclass = description.superclass
  interfaces : entry.interfaces = description.interfaces
  unindexed : entry.index.get? = none
  unplaced : entry.offset.get? = none

theorem Describes.outlines (described : description.Describes entry) :
    description.Outlines entry := by
  obtain ⟨draft, read, rfl⟩ := describes_iff.1 described
  obtain ⟨flags, fields, methods, _, _, _, rfl⟩ := toDraft_eq_ok_iff.1 read
  exact ⟨rfl, rfl, rfl, rfl, rfl⟩

theorem types_of_describes {descriptions : List ClassDescription} {entries : List Entry}
    (listed : List.Forall₂ Describes descriptions entries) :
    (entries.map fun entry => entry.type) =
      descriptions.map fun description => description.type := by
  refine (Outcome.map_eq_map_of_forall₂ listed ?_).symm
  intro description entry described
  exact described.outlines.type.symm

end ClassDescription

namespace Pool

variable {pool after : Pool} {description : ClassDescription}
  {descriptions rest : List ClassDescription}

theorem addAll_cons_eq_ok_iff : (pool.addAll (description :: rest)).1 = .ok after ↔
    ∃ entry, description.Describes entry ∧ pool.get? entry.type = none ∧
      ((pool.intern entry).pool.addAll rest).1 = .ok after := by
  rw [addAll]
  constructor
  · intro added
    split at added
    next => cases added
    next entry built canonicalized =>
      have read := ClassDescription.toEntry_eq_ok_iff_canonicalize.2 canonicalized
      rcases pool.intern_cases entry with ⟨_, _, failed⟩ | ⟨absent, interned, _⟩
      · simp only [failed] at added
        cases added
      · simp only [interned] at added
        exact ⟨entry, ⟨built, read⟩, absent, added⟩
  · rintro ⟨entry, ⟨built, read⟩, absent, added⟩
    have canonicalized := ClassDescription.toEntry_eq_ok_iff_canonicalize.1 read
    have interned : (pool.intern entry).result = .ok entry := by rw [intern, absent]
    simp only [canonicalized, interned, added]

/-- Adding succeeds exactly where a pool of what there was and of all that is described exists, and
gives that pool: its types are distinct. -/
theorem addAll_eq_ok_iff : (pool.addAll descriptions).1 = .ok after ↔
    ∃ entries, List.Forall₂ ClassDescription.Describes descriptions entries ∧
      after.toList.Perm (entries ++ pool.toList) := by
  induction descriptions generalizing pool with
  | nil =>
      simp only [addAll, Except.ok.injEq, List.forall₂_nil_left_iff, exists_eq_left,
        List.nil_append]
      exact ⟨fun same => same ▸ .refl _, fun same => (eq_of_perm same).symm⟩
  | cons description rest ih =>
      simp only [addAll_cons_eq_ok_iff, ih, List.forall₂_cons_left_iff]
      constructor
      · rintro ⟨entry, described, absent, entries, listed, permuted⟩
        refine ⟨entry :: entries, ⟨entry, entries, described, listed, rfl⟩, ?_⟩
        exact (permuted.trans ((perm_intern absent).append_left entries)).trans List.perm_middle
      · rintro ⟨_, ⟨entry, entries, described, listed, rfl⟩, permuted⟩
        have unique : (entry.type :: (entries ++ pool.toList).map fun entry => entry.type).Nodup :=
          (permuted.map _).nodup_iff.1 after.nodup_types
        obtain ⟨fresh, _⟩ := List.nodup_cons.1 unique
        rw [List.map_append, List.mem_append, not_or] at fresh
        have absent : pool.get? entry.type = none := get?_eq_none_iff.2 fresh.2
        refine ⟨entry, described, absent, entries, listed, ?_⟩
        exact (permuted.trans List.perm_middle.symm).trans
          ((perm_intern absent).symm.append_left entries)

theorem addAll_eq_error {failure : Failure}
    (failed : (pool.addAll descriptions).1 = .error failure) :
    (∃ refusal, failure = .flags refusal) ∨
      ∃ type, failure = .interning type (.duplicateClass type) := by
  induction descriptions generalizing pool with
  | nil => cases failed
  | cons description rest ih =>
      rw [addAll] at failed
      split at failed
      next refusal _ _ => exact .inl ⟨refusal, (Except.error.inj failed).symm⟩
      next entry built canonicalized =>
        have read := ClassDescription.toEntry_eq_ok_iff_canonicalize.2 canonicalized
        have outlined := ClassDescription.Describes.outlines ⟨built, read⟩
        rcases pool.intern_cases entry with ⟨_, _, refused⟩ | ⟨_, interned, _⟩
        · simp only [refused, outlined.type] at failed
          exact .inr ⟨description.type, (Except.error.inj failed).symm⟩
        · simp only [interned] at failed
          exact ih failed

theorem exists_of_nodup {entries : List Entry}
    (distinct : (entries.map fun entry => entry.type).Nodup) :
    ∃ pool : Pool, pool.toList.Perm entries := by
  induction entries with
  | nil => exact ⟨{}, .refl _⟩
  | cons entry rest ih =>
      obtain ⟨fresh, others⟩ := List.nodup_cons.1 distinct
      obtain ⟨pool, permuted⟩ := ih others
      have absent : pool.get? entry.type = none :=
        get?_eq_none_iff.2 fun pooled => fresh ((permuted.map _).subset pooled)
      exact ⟨(pool.intern entry).pool, (perm_intern absent).trans (permuted.cons entry)⟩

end Pool

namespace FileDescription

variable {file left right : FileDescription} {pool : Pool}

def Pooled (file : FileDescription) (pool : Pool) : Prop :=
  ∃ entries, List.Forall₂ ClassDescription.Describes file.classes entries ∧
    pool.toList.Perm entries

theorem addAll_eq_ok_iff_pooled :
    (Pool.addAll {} file.classes).1 = .ok pool ↔ file.Pooled pool := by
  rw [Pool.addAll_eq_ok_iff, Pooled]
  have nothing : (({} : Pool).toList : List Entry) = [] := rfl
  simp only [nothing, List.append_nil]

theorem Pooled.perm_types (pooled : file.Pooled pool) :
    pool.types.Perm (file.classes.map fun description => description.type) := by
  obtain ⟨entries, listed, permuted⟩ := pooled
  rw [← ClassDescription.types_of_describes listed]
  exact permuted.map _

theorem Pooled.exists_description (pooled : file.Pooled pool) {entry : Entry}
    (member : entry ∈ pool.toList) :
    ∃ description ∈ file.classes, description.Describes entry := by
  obtain ⟨entries, listed, permuted⟩ := pooled
  exact Outcome.exists_of_mem_right listed (permuted.subset member)

theorem Pooled.exists_entry (pooled : file.Pooled pool) {description : ClassDescription}
    (member : description ∈ file.classes) :
    ∃ entry ∈ pool.toList, description.Describes entry := by
  obtain ⟨entries, listed, permuted⟩ := pooled
  obtain ⟨entry, held, described⟩ := Outcome.exists_of_mem_left listed member
  exact ⟨entry, permuted.symm.subset held, described⟩

theorem exists_pooled_iff : (∃ pool, file.Pooled pool) ↔
    (∀ description ∈ file.classes, description.KeywordsKnown) ∧
      (file.classes.map fun description => description.type).Nodup := by
  constructor
  · rintro ⟨pool, pooled⟩
    refine ⟨fun description member => ?_, pooled.perm_types.nodup_iff.1 pool.nodup_types⟩
    obtain ⟨entry, _, described⟩ := pooled.exists_entry member
    exact ClassDescription.exists_describes_iff.1 ⟨entry, described⟩
  · rintro ⟨known, distinct⟩
    obtain ⟨entries, listed⟩ := Outcome.exists_forall₂_iff.2 fun description member =>
      ClassDescription.exists_describes_iff.2 (known description member)
    rw [← ClassDescription.types_of_describes listed] at distinct
    obtain ⟨pool, permuted⟩ := Pool.exists_of_nodup distinct
    exact ⟨pool, entries, listed, permuted⟩

theorem Pooled.perm (permuted : left.classes.Perm right.classes) (pooled : left.Pooled pool) :
    right.Pooled pool := by
  obtain ⟨entries, listed, held⟩ := pooled
  obtain ⟨others, othersListed, reordered⟩ := List.perm_comp_forall₂ permuted.symm listed
  exact ⟨others, othersListed, held.trans reordered.symm⟩

end FileDescription

end ClassTable
