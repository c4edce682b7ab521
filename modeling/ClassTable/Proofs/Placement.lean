import ClassTable.ClassDef.Draft
import ClassTable.Pool.Directories
import ClassTable.Pool.Indexing
import ClassTable.Proofs.Writing
import Mathlib.Tactic

/-!
The placing of the annotation directories, compared with a layout in natural numbers: directories
one behind another, each at the least multiple of four that is free.
-/

namespace ClassTable.Pool

variable {pool : Pool} {entries : List Entry} {sizeOf : Entry → UInt32} {start stop : UInt32}
  {plan : List (Descriptor × UInt32)}

/-- Directories of given sizes lie one behind another from a start on. The arithmetic is that of the
natural numbers, and no sum reaches the number of words. -/
inductive Packed (sizeOf : Entry → UInt32) : Nat → List (Entry × UInt32) → Nat → Prop
  | done (start : Nat) : Packed sizeOf start [] start
  | next {start stop : Nat} {entry : Entry} {offset : UInt32} {rest : List (Entry × UInt32)}
      (least : IsLeast {multiple | 4 ∣ multiple ∧ start ≤ multiple} offset.toNat)
      (positive : 0 < offset.toNat) (fits : offset.toNat + (sizeOf entry).toNat < Word.size)
      (later : Packed sizeOf (offset.toNat + (sizeOf entry).toNat) rest stop) :
      Packed sizeOf start ((entry, offset) :: rest) stop

theorem isLeast_alignUp (value : Nat) :
    IsLeast {multiple | 4 ∣ multiple ∧ value ≤ multiple} (Word.alignUp value) :=
  ⟨⟨Word.alignment_dvd_alignUp value, Word.le_alignUp value⟩,
    fun _ bound => Word.alignUp_le bound.2 bound.1⟩

theorem lt_of_isLeast {value offset : Nat}
    (least : IsLeast {multiple | 4 ∣ multiple ∧ value ≤ multiple} offset) : offset < value + 4 := by
  rw [least.unique (isLeast_alignUp value)]
  exact Word.alignUp_lt value

theorem Packed.aligned {start stop : Nat} {placed : List (Entry × UInt32)}
    (packed : Packed sizeOf start placed stop) :
    ∀ address ∈ placed, 4 ∣ address.2.toNat ∧ address.2 ≠ 0 := by
  induction packed with
  | done => simp
  | next least positive _ _ ih =>
      refine List.forall_mem_cons.2 ⟨⟨least.1.1, ?_⟩, ih⟩
      intro zero
      exact Nat.ne_of_gt positive (congrArg UInt32.toNat zero)

theorem Packed.start_le {start stop : Nat} {placed : List (Entry × UInt32)}
    (packed : Packed sizeOf start placed stop) : ∀ address ∈ placed, start ≤ address.2.toNat := by
  induction packed with
  | done => simp
  | next least _ _ _ ih =>
      intro address member
      have above := least.1.2
      rcases List.mem_cons.1 member with rfl | later
      · exact above
      · have := ih address later
        omega

theorem Packed.disjoint {start stop : Nat} {placed : List (Entry × UInt32)}
    (packed : Packed sizeOf start placed stop) :
    placed.Pairwise fun left right => left.2.toNat + (sizeOf left.1).toNat ≤ right.2.toNat := by
  induction packed with
  | done => exact .nil
  | next _ _ _ later ih => exact List.pairwise_cons.2 ⟨later.start_le, ih⟩

theorem Packed.tight {start stop : Nat} {placed : List (Entry × UInt32)}
    (packed : Packed sizeOf start placed stop) :
    placed.IsChain fun left right =>
      right.2.toNat < left.2.toNat + (sizeOf left.1).toNat + 4 := by
  induction packed with
  | done => exact .nil
  | next _ _ _ later ih =>
      cases later with
      | done => exact .singleton _
      | next least _ _ _ => exact .cons_cons (lt_of_isLeast least) ih

theorem perm_of_byIndex (sorted : pool.byIndex = .ok entries) : entries.Perm pool.toList := by
  obtain ⟨indexed, read, listed⟩ := Outcome.bind_eq_ok_iff.1 sorted
  have kept : List.Forall₂ (fun entry pair => entry = pair.2) pool.toList indexed := by
    refine (Outcome.mapM_eq_ok_iff.1 read).imp ?_
    intro entry pair found
    split at found
    · cases found
      rfl
    · cases found
  have same : pool.toList = indexed.map Prod.snd := by
    rw [← List.forall₂_eq_eq_eq, List.forall₂_map_right_iff]
    exact kept
  rw [← Except.ok.inj listed, same]
  exact (List.mergeSort_perm indexed _).map Prod.snd

/-- A plan of offsets is a layout of the directories of the entries that need one, none of which has
an offset yet. -/
theorem packed_of_planOffsets (planned : planOffsets sizeOf start entries = .ok (plan, stop)) :
    ∃ placed : List (Entry × UInt32),
      placed.map Prod.fst = entries.filter (fun entry => entry.hasDirectory) ∧
      plan = placed.map (fun address => (address.1.type, address.2)) ∧
      Packed sizeOf start.toNat placed stop.toNat ∧
      ∀ address ∈ placed, address.1.offset.get? = none := by
  fun_induction planOffsets sizeOf start entries generalizing plan stop with
  | case1 start =>
      cases planned
      exact ⟨[], rfl, rfl, .done _, by simp⟩
  | case2 => cases planned
  | case3 => cases planned
  | case4 => cases planned
  | case5 => cases planned
  | case6 start entry rest needed aligned rounded free nonzero next sum ih =>
      obtain ⟨⟨later, last⟩, restPlanned, listed⟩ := Outcome.bind_eq_ok_iff.1 planned
      cases listed
      obtain ⟨placed, holders, rfl, packed, fresh⟩ := ih restPlanned
      have exactly := Word.checkedAlign_eq_some_iff.1 rounded
      have total := Word.checkedAdd_eq_some_iff.1 sum
      refine ⟨(entry, aligned) :: placed, by simp [needed, holders], rfl, ?_, ?_⟩
      · refine .next (exactly ▸ isLeast_alignUp _) ?_ ?_ (total ▸ packed)
        · exact Nat.pos_of_ne_zero fun zero => nonzero (UInt32.toNat_inj.1 zero)
        · rw [← total]
          exact next.toNat_lt
      · exact List.forall_mem_cons.2 ⟨free, fresh⟩
  | case7 start entry rest spared ih =>
      obtain ⟨placed, holders, listed, packed, fresh⟩ := ih planned
      exact ⟨placed, by simpa [spared] using holders, listed, packed, fresh⟩

theorem pooled_of_placed {placed : List (Entry × UInt32)} (sorted : pool.byIndex = .ok entries)
    (holders : placed.map Prod.fst = entries.filter fun entry => entry.hasDirectory) :
    ∀ address ∈ placed, address.1 ∈ pool.toList ∧ address.1.hasDirectory = true := by
  intro address member
  have holder : address.1 ∈ entries.filter (fun entry => entry.hasDirectory) :=
    holders ▸ List.mem_map_of_mem member
  obtain ⟨listed, needed⟩ := List.mem_filter.1 holder
  exact ⟨(perm_of_byIndex sorted).subset listed, needed⟩

theorem writable_of_planOffsets (sorted : pool.byIndex = .ok entries)
    (planned : planOffsets sizeOf start entries = .ok (plan, stop)) :
    Writable .annotationDirectoryOffset plan pool := by
  obtain ⟨placed, holders, rfl, packed, fresh⟩ := packed_of_planOffsets planned
  have pooled := pooled_of_placed sorted holders
  refine ⟨?_, ?_, ?_⟩
  · have types : (placed.map fun address => (address.1.type, address.2)).map Prod.fst =
        (entries.filter fun entry => entry.hasDirectory).map fun entry => entry.type := by
      rw [← holders]
      simp
    have unique : (entries.map fun entry => entry.type).Nodup :=
      ((perm_of_byIndex sorted).map _).nodup_iff.2 pool.nodup_types
    rw [types]
    exact (List.filter_sublist.map _).nodup unique
  · intro address member entry found
    obtain ⟨source, placedHere, rfl⟩ := List.mem_map.1 member
    rw [get?_type (pooled source placedHere).1] at found
    cases found
    exact fresh source placedHere
  · intro address member
    obtain ⟨source, placedHere, rfl⟩ := List.mem_map.1 member
    simpa [SlotKind.admits, noOffset] using (packed.aligned source placedHere).2

theorem assignOffsets_of_unindexed {failure : PoolError} (missing : pool.byIndex = .error failure) :
    pool.assignOffsets start sizeOf = ⟨.error failure, pool, []⟩ := by
  rw [assignOffsets, missing]

theorem assignOffsets_of_unplanned {failure : PoolError} (sorted : pool.byIndex = .ok entries)
    (unplanned : planOffsets sizeOf start entries = .error failure) :
    pool.assignOffsets start sizeOf = ⟨.error failure, pool, []⟩ := by
  rw [assignOffsets, sorted]
  simp only [unplanned]

theorem assignOffsets_of_plan (sorted : pool.byIndex = .ok entries)
    (planned : planOffsets sizeOf start entries = .ok (plan, stop)) :
    (pool.assignOffsets start sizeOf).result = .ok stop ∧
      (pool.assignOffsets start sizeOf).pool = placeAll .annotationDirectoryOffset plan pool := by
  obtain ⟨written, placed⟩ := write_of_writable (writable_of_planOffsets sorted planned)
  simp only [assignOffsets, sorted, planned, written, placed, and_self]

theorem assignOffsets_cases (pool : Pool) (start : UInt32) (sizeOf : Entry → UInt32) :
    (∃ failure, pool.assignOffsets start sizeOf = ⟨.error failure, pool, []⟩) ∨
      ∃ entries plan stop, pool.byIndex = .ok entries ∧
        planOffsets sizeOf start entries = .ok (plan, stop) ∧
        (pool.assignOffsets start sizeOf).result = .ok stop ∧
        (pool.assignOffsets start sizeOf).pool = placeAll .annotationDirectoryOffset plan pool := by
  cases sorted : pool.byIndex with
  | error failure => exact .inl ⟨failure, assignOffsets_of_unindexed sorted⟩
  | ok entries =>
      cases planned : planOffsets sizeOf start entries with
      | error failure => exact .inl ⟨failure, assignOffsets_of_unplanned sorted planned⟩
      | ok found =>
          obtain ⟨plan, stop⟩ := found
          exact .inr ⟨entries, plan, stop, rfl, planned, assignOffsets_of_plan sorted planned⟩

structure Placed (sizeOf : Entry → UInt32) (start stop : Nat) (pool : Pool)
    (placed : List (Entry × UInt32)) (after : Pool) : Prop where
  holders : ∃ entries, pool.byIndex = .ok entries ∧ entries.Perm pool.toList ∧
    placed.map Prod.fst = entries.filter fun entry => entry.hasDirectory
  packed : Packed sizeOf start placed stop
  aligned : ∀ address ∈ placed, 4 ∣ address.2.toNat ∧ address.2 ≠ 0
  disjoint : placed.Pairwise fun left right =>
    left.2.toNat + (sizeOf left.1).toNat ≤ right.2.toNat
  tight : placed.IsChain fun left right =>
    right.2.toNat < left.2.toNat + (sizeOf left.1).toNat + 4
  resolved : ∀ address ∈ placed, address.1.offset.get? = none ∧
    after.get? address.1.type = some { address.1 with offset := ⟨.resolved address.2⟩ }
  spared : ∀ entry ∈ pool.toList, entry.hasDirectory = false →
    after.get? entry.type = some entry
  sameTypes : after.types = pool.types
  sameIndices : ∀ type, after.index? type = pool.index? type

theorem Placed.entry {start stop : Nat} {placed : List (Entry × UInt32)} {after : Pool}
    (done : Placed sizeOf start stop pool placed after) {type : Descriptor} {entry : Entry}
    (found : after.get? type = some entry) : ∃ old, pool.get? type = some old ∧
      ((∃ offset, (old, offset) ∈ placed ∧ entry = { old with offset := ⟨.resolved offset⟩ }) ∨
        old.hasDirectory = false ∧ entry = old) := by
  obtain ⟨old, known⟩ := mem_types_iff.1
    (done.sameTypes ▸ mem_types_iff.2 ⟨entry, found⟩ : type ∈ pool.types)
  obtain ⟨pooled, rfl⟩ := get?_eq_some_iff.1 known
  obtain ⟨entries, _, permuted, holders⟩ := done.holders
  refine ⟨old, known, ?_⟩
  cases needed : old.hasDirectory with
  | true =>
      have listed : old ∈ placed.map Prod.fst := by
        rw [holders]
        exact List.mem_filter.2 ⟨permuted.symm.subset pooled, needed⟩
      obtain ⟨⟨_, offset⟩, member, rfl⟩ := List.mem_map.1 listed
      have kept := (done.resolved _ member).2
      rw [found] at kept
      exact .inl ⟨offset, member, Option.some.inj kept⟩
  | false =>
      have kept := done.spared old pooled needed
      rw [found] at kept
      exact .inr ⟨rfl, Option.some.inj kept⟩

theorem index?_placeAll_offset (plan : List (Descriptor × UInt32)) (pool : Pool)
    (type : Descriptor) :
    (placeAll .annotationDirectoryOffset plan pool).index? type = pool.index? type := by
  induction plan generalizing pool with
  | nil => rfl
  | cons address rest ih =>
      rw [placeAll, List.foldl_cons, ← placeAll, ih, index?, index?, get?_place]
      by_cases same : type = address.1
      · cases found : pool.get? type <;> simp [same, Entry.resolve]
      · simp [same]

theorem placed_of_plan (sorted : pool.byIndex = .ok entries)
    (planned : planOffsets sizeOf start entries = .ok (plan, stop)) :
    ∃ placed, Placed sizeOf start.toNat stop.toNat pool placed
      (placeAll .annotationDirectoryOffset plan pool) := by
  have writable := writable_of_planOffsets sorted planned
  obtain ⟨placed, holders, rfl, packed, fresh⟩ := packed_of_planOffsets planned
  have pooled := pooled_of_placed sorted holders
  refine ⟨placed, ⟨entries, sorted, perm_of_byIndex sorted, holders⟩, packed, packed.aligned,
    packed.disjoint, packed.tight, ?_, ?_, types_placeAll _ _, index?_placeAll_offset _ _⟩
  · intro address member
    refine ⟨fresh address member, ?_⟩
    rw [get?_placeAll_of_mem writable.distinct (List.mem_map_of_mem member),
      get?_type (pooled address member).1]
    rfl
  · intro entry known plain
    rw [get?_placeAll_of_not_mem ?_, get?_type known]
    intro listed
    simp only [List.map_map, List.mem_map, Function.comp_apply] at listed
    obtain ⟨address, member, same⟩ := listed
    obtain ⟨holder, needed⟩ := pooled address member
    rw [eq_of_type_eq holder known same, plain] at needed
    cases needed

/-- A placing that succeeds packs the directories from the start on, up to the offset that it
gives. -/
theorem assignOffsets_placed (success : (pool.assignOffsets start sizeOf).result = .ok stop) :
    ∃ placed, Placed sizeOf start.toNat stop.toNat pool placed
      (pool.assignOffsets start sizeOf).pool := by
  rcases pool.assignOffsets_cases start sizeOf with
    ⟨failure, failed⟩ | ⟨entries, plan, last, sorted, planned, result, written⟩
  · rw [failed] at success
    cases success
  · rw [result] at success
    cases success
    obtain ⟨placed, placedAll⟩ := placed_of_plan sorted planned
    rw [written]
    exact ⟨placed, placedAll⟩

def tagged : Pool :=
  let first : Draft := { type := ⟨"La;"⟩, flags := .none, annotations := [⟨"LTag;"⟩] }
  let plain : Draft := { type := ⟨"Lb;"⟩, flags := .none }
  let last : Draft := { type := ⟨"Lc;"⟩, flags := .none, annotations := [⟨"LTag;"⟩] }
  (⟨.ofList ([first, plain, last].map Draft.build)⟩ : Pool).assignIndices.pool

theorem tagged_placed : (tagged.assignOffsets 0x101 fun _ => 10).result = .ok 0x11A ∧
    ∃ placed, Placed (fun _ => 10) 0x101 0x11A tagged placed
      (tagged.assignOffsets 0x101 fun _ => 10).pool := by
  have success : (tagged.assignOffsets 0x101 fun _ => 10).result = .ok 0x11A := by cbv
  exact ⟨success, assignOffsets_placed success⟩

end ClassTable.Pool
