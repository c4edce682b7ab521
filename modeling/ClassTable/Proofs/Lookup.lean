import ClassTable.Pool.Basic
import ClassTable.Proofs.Sets
import Mathlib.Data.List.Nodup

/-!
A pool seen as a map from types to entries: the types are distinct, and looking up a type finds the
one entry that bears it. Replacing an entry and adding one change what is found for its type alone.
-/

namespace ClassTable.Pool

variable {pool : Pool} {type : Descriptor} {entry : Entry}

theorem pairwise_types (pool : Pool) :
    pool.types.Pairwise fun left right => compare left right = .lt := by
  rw [types, List.pairwise_map]
  exact pool.entries.pairwise_toList

theorem nodup_types (pool : Pool) : pool.types.Nodup :=
  SortedSet.nodup_of_ascending pool.pairwise_types

theorem types_eq_of_mem_iff {left right : Pool}
    (same : ∀ type, type ∈ left.types ↔ type ∈ right.types) : left.types = right.types :=
  SortedSet.eq_of_perm_of_ascending left.pairwise_types right.pairwise_types
    ((List.perm_ext_iff_of_nodup left.nodup_types right.nodup_types).2 same)

theorem eq_of_type_eq {left right : Entry} (leftPooled : left ∈ pool.toList)
    (rightPooled : right ∈ pool.toList) (same : left.type = right.type) : left = right :=
  List.inj_on_of_nodup_map pool.nodup_types leftPooled rightPooled same

theorem get?_eq_some_iff :
    pool.get? type = some entry ↔ entry ∈ pool.toList ∧ entry.type = type := by
  constructor
  · intro found
    exact ⟨List.mem_of_find?_eq_some found, by simpa using List.find?_some found⟩
  · rintro ⟨pooled, rfl⟩
    cases outcome : pool.get? entry.type with
    | none =>
        have absent := List.find?_eq_none.1 outcome entry pooled
        simp at absent
    | some found =>
        have same : found.type = entry.type := by simpa using List.find?_some outcome
        rw [eq_of_type_eq (List.mem_of_find?_eq_some outcome) pooled same]

theorem get?_type (pooled : entry ∈ pool.toList) : pool.get? entry.type = some entry :=
  get?_eq_some_iff.2 ⟨pooled, rfl⟩

theorem mem_types_iff : type ∈ pool.types ↔ ∃ entry, pool.get? type = some entry := by
  simp only [types, List.mem_map, get?_eq_some_iff]

theorem get?_eq_none_iff : pool.get? type = none ↔ type ∉ pool.types := by
  rw [mem_types_iff, not_exists]
  exact Option.eq_none_iff_forall_ne_some

theorem length_types (pool : Pool) : pool.types.length = pool.size := by
  simp [types, toList, size, SortedSet.toList, SortedSet.size]

theorem toList_replace (pool : Pool) (assigned : Entry) : (pool.replace assigned).toList =
    pool.toList.map fun old => if old.type = assigned.type then assigned else old := by
  rw [replace, toList, SortedSet.toList_mapKeeping, toList]

@[simp] theorem types_replace (pool : Pool) (assigned : Entry) :
    (pool.replace assigned).types = pool.types := by
  rw [types, toList_replace, types, List.map_map]
  apply List.map_congr_left
  intro old _
  simp only [Function.comp_apply]
  split
  · next same => exact same.symm
  · rfl

theorem get?_replace (pool : Pool) (assigned : Entry) (type : Descriptor) :
    (pool.replace assigned).get? type =
      if type = assigned.type then (pool.get? type).map fun _ => assigned else pool.get? type := by
  rw [get?, toList_replace, get?]
  induction pool.toList with
  | nil => simp
  | cons first rest ih =>
      rw [List.map_cons, List.find?_cons, List.find?_cons, ih]
      by_cases wanted : type = assigned.type
      · by_cases replaced : first.type = assigned.type
        · simp [replaced, wanted]
        · simp [replaced, wanted, beq_eq_false_iff_ne.2 replaced]
      · by_cases replaced : first.type = assigned.type
        · simp [replaced, wanted, beq_eq_false_iff_ne.2 (Ne.symm wanted)]
        · simp only [replaced, wanted, ↓reduceIte]

theorem eq_of_perm {left right : Pool} (same : left.toList.Perm right.toList) : left = right := by
  have entries : left.entries = right.entries := SortedSet.eq_of_perm same
  cases left
  cases right
  cases entries
  rfl

theorem perm_intern (absent : pool.get? entry.type = none) :
    (pool.intern entry).pool.toList.Perm (entry :: pool.toList) := by
  have lacking : ¬ SortedSet.Listed pool.entries.toList entry := by
    rintro ⟨other, pooled, equal⟩
    have same : other.type = entry.type := Std.LawfulEqOrd.eq_of_compare equal
    have found : pool.get? other.type = some other := get?_type pooled
    rw [same, absent] at found
    cases found
  have merged := SortedSet.perm_merged pool.entries (.singleton entry)
  rw [SortedSet.singleton, SortedSet.toList_ofAscending,
    List.filter_cons_of_pos (by simpa using lacking), List.filter_nil] at merged
  rw [intern, absent]
  exact merged.trans (List.perm_append_singleton entry _)

theorem intern_cases (pool : Pool) (entry : Entry) :
    (∃ found, pool.get? entry.type = some found ∧
        pool.intern entry = ⟨.error (.duplicateClass entry.type), pool, []⟩) ∨
      pool.get? entry.type = none ∧ (pool.intern entry).result = .ok entry ∧
        (pool.intern entry).pool.toList.Perm (entry :: pool.toList) := by
  cases outcome : pool.get? entry.type with
  | some found => exact .inl ⟨found, rfl, by rw [intern, outcome]⟩
  | none => exact .inr ⟨rfl, by rw [intern, outcome], perm_intern outcome⟩

theorem get?_of_perm {after : Pool} (added : after.toList.Perm (entry :: pool.toList))
    (type : Descriptor) :
    after.get? type = if entry.type = type then some entry else pool.get? type := by
  apply Option.ext
  intro found
  split
  next named =>
    have pooled : entry ∈ after.toList := added.symm.subset List.mem_cons_self
    rw [← named, get?_type pooled]
  next other =>
    rw [get?_eq_some_iff, get?_eq_some_iff, added.mem_iff, List.mem_cons]
    constructor
    · rintro ⟨rfl | old, named⟩
      · exact absurd named other
      · exact ⟨old, named⟩
    · rintro ⟨old, named⟩
      exact ⟨.inr old, named⟩

end ClassTable.Pool
