import ClassTable.Proofs.History

/-!
What a run keeps of the entries that it is given. A pool accepts one entry of each type. It holds
that entry from then on, and never changes anything in it but an address that is not resolved yet.
-/

namespace ClassTable

structure Entry.Becomes (entry later : Entry) : Prop where
  definition : later.toClassDef = entry.toClassDef
  index : ∀ value, entry.index.get? = some value → later.index.get? = some value
  offset : ∀ value, entry.offset.get? = some value → later.offset.get? = some value

namespace Entry.Becomes

variable {entry later last : Entry}

theorem refl (entry : Entry) : entry.Becomes entry :=
  ⟨rfl, fun _ => id, fun _ => id⟩

theorem trans (first : entry.Becomes later) (second : later.Becomes last) :
    entry.Becomes last where
  definition := second.definition.trans first.definition
  index value known := second.index value (first.index value known)
  offset value known := second.offset value (first.offset value known)

theorem type (becomes : entry.Becomes later) : later.type = entry.type :=
  congrArg ClassDef.type becomes.definition

theorem resolve {kind : SlotKind} (free : entry.address? kind = none) (value : UInt32) :
    entry.Becomes (entry.resolve value kind) := by
  cases kind with
  | classDefIndex =>
      refine ⟨rfl, fun known found => ?_, fun _ => id⟩
      rw [address?, found] at free
      cases free
  | annotationDirectoryOffset =>
      refine ⟨rfl, fun _ => id, fun known found => ?_⟩
      rw [address?, found] at free
      cases free

end Entry.Becomes

namespace Pool

variable {pool : Pool} {entries : List Entry}

def Becomes (pool later : Pool) : Prop :=
  ∀ type entry, pool.get? type = some entry →
    ∃ held, later.get? type = some held ∧ entry.Becomes held

theorem Becomes.refl (pool : Pool) : pool.Becomes pool :=
  fun _ entry found => ⟨entry, found, .refl entry⟩

theorem Becomes.trans {later last : Pool} (first : pool.Becomes later)
    (second : later.Becomes last) : pool.Becomes last := by
  intro type entry found
  obtain ⟨held, stillFound, becomes⟩ := first type entry found
  obtain ⟨final, finallyFound, finally_⟩ := second type held stillFound
  exact ⟨final, finallyFound, becomes.trans finally_⟩

theorem becomes_placeAll {kind : SlotKind} {plan : List (Descriptor × UInt32)}
    (writable : Writable kind plan pool) : pool.Becomes (placeAll kind plan pool) := by
  intro type entry found
  by_cases planned : type ∈ plan.map Prod.fst
  · obtain ⟨⟨_, value⟩, member, rfl⟩ := List.mem_map.1 planned
    refine ⟨entry.resolve value kind, ?_, .resolve (writable.free _ member entry found) value⟩
    rw [get?_placeAll_of_mem writable.distinct member, found, Option.map_some]
  · refine ⟨entry, ?_, .refl entry⟩
    rw [get?_placeAll_of_not_mem planned, found]

def addedBy : Except PoolError Answer → Option Entry
  | .ok (.interned entry) => some entry
  | _ => none

structure Preserves (pool : Pool) (pass : Pass Answer) : Prop where
  added : addedBy pass.result = none
  types : pass.pool.types = pool.types
  becomes : pool.Becomes pass.pool

theorem preserves_of_error {α : Type} {pass : Pass α} {failure : PoolError}
    (failed : pass = ⟨.error failure, pool, []⟩) (view : α → Answer) :
    pool.Preserves (pass.map view) := by
  rw [failed]
  exact ⟨rfl, rfl, .refl pool⟩

theorem preserves_of_written {α : Type} {pass : Pass α} {value : α} {kind : SlotKind}
    {plan : List (Descriptor × UInt32)} (success : pass.result = .ok value)
    (written : pass.pool = placeAll kind plan pool) (writable : Writable kind plan pool)
    {view : α → Answer} (silent : addedBy (.ok (view value)) = none) :
    pool.Preserves (pass.map view) where
  added := by rw [Pass.map, success]; exact silent
  types := by rw [Pass.map, written, types_placeAll]
  becomes := by rw [Pass.map, written]; exact becomes_placeAll writable

theorem perform_cases (pool : Pool) (call : Call) :
    (∃ entry, addedBy (call.perform pool).result = some entry ∧ pool.get? entry.type = none ∧
        (call.perform pool).pool.toList.Perm (entry :: pool.toList)) ∨
      pool.Preserves (call.perform pool) := by
  cases call with
  | intern entry =>
      rcases pool.intern_cases entry with ⟨_, _, failed⟩ | ⟨absent, success, added⟩
      · exact .inr (preserves_of_error failed _)
      · refine .inl ⟨entry, ?_, absent, added⟩
        rw [Call.perform, Pass.map, success]
        rfl
  | assignIndices =>
      rcases pool.assignIndices_cases with
        ⟨failure, failed⟩ | ⟨order, plan, sorted, planned, success, written⟩
      · exact .inr (preserves_of_error failed _)
      · have unique := (topological_of_precedence sorted).unique
        exact .inr (preserves_of_written success written (writable_of_planIndices unique planned) rfl)
  | assignOffsets start sizeOf =>
      rcases pool.assignOffsets_cases start sizeOf with
        ⟨failure, failed⟩ | ⟨entries, plan, stop, sorted, planned, success, written⟩
      · exact .inr (preserves_of_error failed _)
      · exact .inr (preserves_of_written success written (writable_of_planOffsets sorted planned) rfl)

theorem becomes_of_added {after : Pool} {entry : Entry} (absent : pool.get? entry.type = none)
    (added : after.toList.Perm (entry :: pool.toList)) : pool.Becomes after := by
  intro type old found
  refine ⟨old, ?_, .refl old⟩
  rw [get?_of_perm added, if_neg, found]
  rintro rfl
  rw [absent] at found
  cases found

theorem becomes_perform (pool : Pool) (call : Call) :
    pool.Becomes (call.perform pool).pool := by
  rcases pool.perform_cases call with ⟨entry, _, absent, added⟩ | preserved
  · exact becomes_of_added absent added
  · exact preserved.becomes

theorem becomes_run (pool : Pool) (calls : List Call) : pool.Becomes (pool.run calls).pool :=
  run_keeps (fun current call _ becomes => becomes.trans (current.becomes_perform call))
    (fun _ _ => trivial) (Becomes.refl pool)

theorem run_append (pool : Pool) (calls later : List Call) :
    (pool.run (calls ++ later)).pool = ((pool.run calls).pool.run later).pool := by
  induction calls generalizing pool with
  | nil => rfl
  | cons call rest ih => exact ih (call.perform pool).pool

def accepted (pool : Pool) (calls : List Call) : List Entry :=
  (pool.run calls).answers.filterMap addedBy

theorem accepted_cons (pool : Pool) (call : Call) (rest : List Call) :
    pool.accepted (call :: rest) =
      (addedBy (call.perform pool).result).toList ++ (call.perform pool).pool.accepted rest := by
  rw [Pool.accepted, run, List.filterMap_cons]
  cases addedBy (call.perform pool).result <;> rfl

structure Holds (pool : Pool) (entries : List Entry) : Prop where
  once : (entries.map fun entry => entry.type).Nodup
  held : ∀ entry ∈ entries, ∃ later, pool.get? entry.type = some later ∧ entry.Becomes later
  only : ∀ type later, pool.get? type = some later → ∃ entry ∈ entries, entry.type = type

theorem holds_empty : Holds {} [] where
  once := .nil
  held := by
    intro entry member
    cases member
  only := by
    intro type later found
    cases found

theorem Holds.mem_types_iff (holds : pool.Holds entries) {type : Descriptor} :
    type ∈ pool.types ↔ ∃ entry ∈ entries, entry.type = type := by
  rw [Pool.mem_types_iff]
  constructor
  · rintro ⟨later, found⟩
    exact holds.only type later found
  · rintro ⟨entry, member, rfl⟩
    obtain ⟨later, found, _⟩ := holds.held entry member
    exact ⟨later, found⟩

theorem Holds.of_becomes {after : Pool} (holds : pool.Holds entries)
    (becomes : pool.Becomes after) (types : after.types = pool.types) : after.Holds entries where
  once := holds.once
  held := by
    intro entry member
    obtain ⟨later, found, earlier⟩ := holds.held entry member
    obtain ⟨last, stillFound, lately⟩ := becomes entry.type later found
    exact ⟨last, stillFound, earlier.trans lately⟩
  only := by
    intro type later found
    have member := Pool.mem_types_iff.2 ⟨later, found⟩
    rw [types] at member
    exact holds.mem_types_iff.1 member

theorem Holds.add {after : Pool} {entry : Entry} (holds : pool.Holds entries)
    (absent : pool.get? entry.type = none) (added : after.toList.Perm (entry :: pool.toList)) :
    after.Holds (entries ++ [entry]) where
  once := by
    have fresh : entry.type ∉ entries.map fun entry => entry.type := by
      intro member
      obtain ⟨other, listed, same⟩ := List.mem_map.1 member
      exact Pool.get?_eq_none_iff.1 absent (holds.mem_types_iff.2 ⟨other, listed, same⟩)
    rw [List.map_append, List.map_singleton, List.nodup_append]
    refine ⟨holds.once, List.nodup_singleton _, fun type member other single => ?_⟩
    rw [List.mem_singleton.1 single]
    exact fun same => fresh (same ▸ member)
  held := by
    intro other member
    rcases List.mem_append.1 member with old | new
    · obtain ⟨later, found, earlier⟩ := holds.held other old
      obtain ⟨last, stillFound, lately⟩ := becomes_of_added absent added _ _ found
      exact ⟨last, stillFound, earlier.trans lately⟩
    · obtain rfl := List.mem_singleton.1 new
      exact ⟨other, by rw [get?_of_perm added, if_pos rfl], .refl other⟩
  only := by
    intro type later found
    rw [get?_of_perm added] at found
    split at found
    · exact ⟨entry, List.mem_append_right _ List.mem_cons_self, ‹_›⟩
    · obtain ⟨other, listed, named⟩ := holds.only type later found
      exact ⟨other, List.mem_append_left _ listed, named⟩

theorem Holds.perform (holds : pool.Holds entries) (call : Call) :
    (call.perform pool).pool.Holds
      (entries ++ (addedBy (call.perform pool).result).toList) := by
  rcases pool.perform_cases call with ⟨entry, answered, absent, added⟩ | preserved
  · rw [answered]
    exact holds.add absent added
  · rw [preserved.added, Option.toList_none, List.append_nil]
    exact holds.of_becomes preserved.becomes preserved.types

theorem Holds.run (holds : pool.Holds entries) (calls : List Call) :
    (pool.run calls).pool.Holds (entries ++ pool.accepted calls) := by
  induction calls generalizing pool entries with
  | nil => simpa [Pool.accepted, Pool.run] using holds
  | cons call rest ih =>
      rw [accepted_cons, ← List.append_assoc]
      exact ih (holds.perform call)

theorem Holds.duplicate_iff (holds : pool.Holds entries) (entry : Entry) :
    (pool.intern entry).result = .error (.duplicateClass entry.type) ↔
      ∃ earlier ∈ entries, earlier.type = entry.type := by
  rw [← holds.mem_types_iff]
  rcases pool.intern_cases entry with ⟨found, known, failed⟩ | ⟨absent, success, _⟩
  · have pooled : entry.type ∈ pool.types := Pool.mem_types_iff.2 ⟨found, known⟩
    rw [failed]
    exact iff_of_true rfl pooled
  · have fresh : entry.type ∉ pool.types := get?_eq_none_iff.1 absent
    rw [success]
    refine iff_of_false ?_ fresh
    intro same
    cases same

/-- What adding an entry changes: a failure, which can only be that of a duplicate, changes nothing,
and a success changes what is found for the type of the entry. -/
theorem intern_frame (pool : Pool) (entry : Entry) :
    (∀ failure, (pool.intern entry).result = .error failure →
      failure = .duplicateClass entry.type ∧ (pool.intern entry).pool = pool) ∧
    ∀ added, (pool.intern entry).result = .ok added → added = entry ∧
      ∀ type, (pool.intern entry).pool.get? type =
        if entry.type = type then some entry else pool.get? type := by
  rcases pool.intern_cases entry with ⟨_, _, failed⟩ | ⟨_, success, added⟩
  · rw [failed]
    constructor
    · intro failure same
      cases same
      exact ⟨rfl, rfl⟩
    · intro _ same
      cases same
  · rw [success]
    constructor
    · intro _ same
      cases same
    · intro other same
      cases same
      exact ⟨rfl, get?_of_perm added⟩

/-- After any run from the empty pool, the pool holds the entries that the run has accepted, one of
each type; an entry is refused exactly as a duplicate of one of these, without a change; and
whatever runs later, every class stays what it is, and so do its addresses once they are given. -/
theorem entries_of_run (calls : List Call) :
    (run {} calls).pool.Holds (accepted {} calls) ∧
    (run {} calls).pool.types.Pairwise (fun left right => compare left right = .lt) ∧
    (∀ entry, entry ∈ (run {} calls).pool.toList ↔
      (run {} calls).pool.get? entry.type = some entry) ∧
    (∀ entry, ((run {} calls).pool.intern entry).result = .error (.duplicateClass entry.type) ↔
      ∃ earlier ∈ accepted {} calls, earlier.type = entry.type) ∧
    (∀ entry failure, ((run {} calls).pool.intern entry).result = .error failure →
      failure = .duplicateClass entry.type ∧
        ((run {} calls).pool.intern entry).pool = (run {} calls).pool) ∧
    (∀ entry added, ((run {} calls).pool.intern entry).result = .ok added → added = entry ∧
      ∀ type, ((run {} calls).pool.intern entry).pool.get? type =
        if entry.type = type then some entry else (run {} calls).pool.get? type) ∧
    ∀ later, (run {} calls).pool.Becomes (run {} (calls ++ later)).pool := by
  have holds : (run {} calls).pool.Holds (accepted {} calls) := by
    simpa using holds_empty.run calls
  refine ⟨holds, ?_, ?_, holds.duplicate_iff, ?_, ?_, ?_⟩
  · rw [types, List.pairwise_map]
    exact (run {} calls).pool.entries.pairwise_toList
  · intro entry
    rw [get?_eq_some_iff, and_iff_left rfl]
  · exact fun entry => (intern_frame _ entry).1
  · exact fun entry => (intern_frame _ entry).2
  · intro later
    rw [run_append]
    exact becomes_run _ later

def interrupted : List Call :=
  let first : Entry := Draft.build { type := ⟨"La;"⟩, flags := .none, annotations := [⟨"LTag;"⟩] }
  let again : Entry := Draft.build { type := ⟨"La;"⟩, flags := .none }
  let brought : Entry := Draft.build { type := ⟨"Lb;"⟩, flags := .none }
  [.intern first, .intern { brought with offset := ⟨.resolved 8⟩ }, .intern again, .assignIndices,
    .assignIndices, .assignOffsets 0x101 fun _ => 10]

theorem interrupted_retained :
    (accepted {} interrupted).map (fun entry => entry.type) = [⟨"La;"⟩, ⟨"Lb;"⟩] ∧
    (run {} interrupted).answers.map (fun answer => answer.isOk) =
      [true, true, false, true, false, true] ∧
    (run {} interrupted).pool.Holds (accepted {} interrupted) ∧
    (∀ entry, entry.type = ⟨"La;"⟩ →
      ((run {} interrupted).pool.intern entry).result = .error (.duplicateClass ⟨"La;"⟩)) ∧
    ∀ later, ∃ held, (run {} (interrupted ++ later)).pool.get? ⟨"Lb;"⟩ = some held ∧
      held.index.get? = some 1 ∧ held.offset.get? = some 8 := by
  obtain ⟨holds, _, _, refused, _, _, becomes⟩ := entries_of_run interrupted
  have types : (accepted {} interrupted).map (fun entry => entry.type) =
      [⟨"La;"⟩, ⟨"Lb;"⟩] := by cbv
  refine ⟨types, by cbv, holds, ?_, ?_⟩
  · intro entry same
    rw [← same, refused, same]
    have listed : (⟨"La;"⟩ : Descriptor) ∈ (accepted {} interrupted).map fun entry => entry.type :=
      types ▸ List.mem_cons_self
    exact List.mem_map.1 listed
  · intro later
    have addressed : ((run {} interrupted).pool.get? ⟨"Lb;"⟩).map
        (fun entry => (entry.index.get?, entry.offset.get?)) = some (some 1, some 8) := by cbv
    obtain ⟨entry, found, addresses⟩ := Option.map_eq_some_iff.1 addressed
    obtain ⟨index, offset⟩ := Prod.mk.inj addresses
    obtain ⟨held, stillFound, kept⟩ := becomes later _ entry found
    exact ⟨held, stillFound, kept.index 1 index, kept.offset 8 offset⟩

end Pool

end ClassTable
