import ClassTable.Proofs.Ordering
import ClassTable.Proofs.Retention

/-!
The enumeration of a pool by index. It lists every class once, by index and then by type, unless a
class has no index. Once a pool is numbered, it lists the classes in the order of the numbering until
a class is added, whatever passes run or fail in between.
-/

namespace ClassTable.Pool

variable {pool : Pool} {order : List Descriptor} {calls : List Call}

def Closed (pool : Pool) (calls : List Call) : Prop :=
  ∀ entry, .ok (.interned entry) ∉ (pool.run calls).answers

theorem addedBy_eq_none_iff {answer : Except PoolError Answer} :
    addedBy answer = none ↔ ∀ entry, answer ≠ .ok (.interned entry) := by
  rcases answer with failure | entry | types | offset <;> simp [addedBy]

theorem Closed.split {call : Call} (closed : pool.Closed (call :: calls)) :
    addedBy (call.perform pool).result = none ∧ (call.perform pool).pool.Closed calls := by
  constructor
  · exact addedBy_eq_none_iff.2 fun entry added =>
      closed entry (added ▸ List.mem_cons_self)
  · exact fun entry member => closed entry (List.mem_cons_of_mem _ member)

theorem preserves_of_not_added {call : Call} (closed : addedBy (call.perform pool).result = none) :
    pool.Preserves (call.perform pool) := by
  rcases pool.perform_cases call with ⟨entry, added, _⟩ | preserved
  · rw [closed] at added
    cases added
  · exact preserved

theorem Becomes.index? {later : Pool} (becomes : pool.Becomes later) {type : Descriptor}
    {index : UInt32} (indexed : pool.index? type = some index) : later.index? type = some index := by
  obtain ⟨entry, found, known⟩ := Option.bind_eq_some_iff.1 indexed
  obtain ⟨held, stillFound, kept⟩ := becomes type entry found
  exact Option.bind_eq_some_iff.2 ⟨held, stillFound, kept.index index known⟩

theorem Ranked.of_preserves {pass : Pass Answer} (ranked : Ranked pool order)
    (preserved : pool.Preserves pass) : Ranked pass.pool order where
  perm := preserved.types ▸ ranked.perm
  place := by
    intro position type found
    obtain ⟨index, indexed, place⟩ := ranked.place position type found
    exact ⟨index, preserved.becomes.index? indexed, place⟩

theorem Ranked.run (ranked : Ranked pool order) (closed : pool.Closed calls) :
    Ranked (pool.run calls).pool order := by
  induction calls generalizing pool with
  | nil => exact ranked
  | cons call rest ih =>
      obtain ⟨refused, later⟩ := closed.split
      exact ih (ranked.of_preserves (preserves_of_not_added refused)) later

/-- The enumeration fails where classes lack an index, and names the lowest type of these. Otherwise
it lists every class once, by index and among equal indices by type. After a numbering it lists the
types in the order that the numbering gave, in every state until an entry is added. -/
theorem byIndex_enumerates (pool : Pool) :
    ((∃ entry ∈ pool.toList, entry.index.get? = none) →
      ∃ type, pool.byIndex = .error (.indexUnassigned type) ∧ pool.FirstUnindexed type) ∧
    ((∀ entry ∈ pool.toList, ∃ index, entry.index.get? = some index) →
      ∃ entries, pool.byIndex = .ok entries ∧ entries.Perm pool.toList ∧
        entries.Pairwise Precedes) ∧
    ∀ order, pool.assignIndices.result = .ok order →
      ∀ calls, pool.assignIndices.pool.Closed calls →
        ∃ entries, (pool.assignIndices.pool.run calls).pool.byIndex = .ok entries ∧
          entries.map (fun entry => entry.type) = order := by
  refine ⟨?_, ?_, ?_⟩
  · rintro ⟨entry, pooled, unindexed⟩
    exact byIndex_of_unindexed pooled unindexed
  · intro indexed
    obtain ⟨entries, sorted⟩ := exists_byIndex indexed
    exact ⟨entries, sorted, perm_of_byIndex sorted, pairwise_precedes_byIndex sorted⟩
  · intro order success calls closed
    rcases pool.assignIndices_cases with
      ⟨failure, failed⟩ | ⟨found, plan, sorted, planned, result, placed⟩
    · rw [failed] at success
      cases success
    · cases result.symm.trans success
      have ranked : Ranked pool.assignIndices.pool order :=
        placed ▸ (numbered_of_plan sorted planned).ranked
      exact (ranked.run closed).types_byIndex

def handNumbered : Pool :=
  let numbered (type : Descriptor) (index : UInt32) : Entry :=
    { Draft.build { type, flags := .none } with index := ⟨.resolved index⟩ }
  ⟨.ofList [numbered ⟨"La;"⟩ 7, numbered ⟨"Lb;"⟩ 2, numbered ⟨"Lc;"⟩ 2]⟩

def afterwards : List Call :=
  [.assignIndices, .assignOffsets 0x100 fun _ => 10,
    .intern (Draft.build { type := ⟨"Lb;"⟩, flags := .none }), .assignOffsets 0 fun _ => 0]

theorem handNumbered_and_diamond_enumerated :
    handNumbered.byIndex.map (fun entries => entries.map fun entry => entry.type) =
      .ok [⟨"Lb;"⟩, ⟨"Lc;"⟩, ⟨"La;"⟩] ∧
    (∃ entries, handNumbered.byIndex = .ok entries ∧ entries.Perm handNumbered.toList ∧
      entries.Pairwise Precedes) ∧
    diamond.assignIndices.result = .ok [⟨"Ld;"⟩, ⟨"Lc;"⟩, ⟨"Lb;"⟩, ⟨"La;"⟩] ∧
    diamond.assignIndices.pool.Closed afterwards ∧
    ∃ entries, (diamond.assignIndices.pool.run afterwards).pool.byIndex = .ok entries ∧
      entries.map (fun entry => entry.type) = [⟨"Ld;"⟩, ⟨"Lc;"⟩, ⟨"Lb;"⟩, ⟨"La;"⟩] := by
  have resolved : handNumbered.toList.all (fun entry => entry.index.isResolved) = true := by cbv
  have indexed : ∀ entry ∈ handNumbered.toList, ∃ index, entry.index.get? = some index :=
    fun entry pooled => Option.isSome_iff_exists.1 (List.all_eq_true.1 resolved entry pooled)
  have refused : (diamond.assignIndices.pool.run afterwards).answers.map addedBy =
      [none, none, none, none] := by cbv
  have closed : diamond.assignIndices.pool.Closed afterwards := by
    intro entry member
    have added : some entry ∈ (diamond.assignIndices.pool.run afterwards).answers.map addedBy :=
      List.mem_map.2 ⟨_, member, rfl⟩
    simp [refused] at added
  have success : diamond.assignIndices.result = .ok [⟨"Ld;"⟩, ⟨"Lc;"⟩, ⟨"Lb;"⟩, ⟨"La;"⟩] := by cbv
  exact ⟨by cbv, (byIndex_enumerates handNumbered).2.1 indexed, success, closed,
    (byIndex_enumerates diamond).2.2 _ success afterwards closed⟩

end ClassTable.Pool
