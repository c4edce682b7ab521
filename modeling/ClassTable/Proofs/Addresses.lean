import ClassTable.Proofs.History
import ClassTable.Proofs.Ordering

/-!
The addresses in a pool after any run of calls. Each kind of address is given out by one successful
pass at most: a pass over indices finds none in use, and one over offsets finds every class indexed.
-/

namespace ClassTable

def Call.Unaddressed : Call → Prop
  | .intern entry => entry.index.get? = none ∧ entry.offset.get? = none
  | _ => True

def Call.Sized : Call → Prop
  | .assignOffsets _ sizeOf => ∀ entry, entry.hasDirectory = true → sizeOf entry ≠ 0
  | _ => True

namespace Pool

variable {pool : Pool} {entry : Entry}

structure Addressed (pool : Pool) : Prop where
  /-- The indices in use are the first numbers, each that of one class. -/
  initial : ∃ count : Nat,
    (∀ position < count, ∃! type, ∃ index, pool.index? type = some index ∧ index.toNat = position) ∧
    ∀ type index, pool.index? type = some index → index.toNat < count
  above : ∀ type supertype higher lower, pool.Extends type supertype →
    pool.index? type = some higher → pool.index? supertype = some lower → lower < higher
  directories : ∀ entry ∈ pool.toList, ∀ offset, entry.offset.get? = some offset →
    entry.index.isResolved = true ∧ entry.hasDirectory = true ∧ 4 ∣ offset.toNat ∧ offset ≠ 0

structure Ascending (pool : Pool) : Prop where
  ascending : ∀ left ∈ pool.toList, ∀ right ∈ pool.toList, ∀ low high first second,
    left.index.get? = some low → right.index.get? = some high →
    left.offset.get? = some first → right.offset.get? = some second → low < high → first < second
  distinct : ∀ left ∈ pool.toList, ∀ right ∈ pool.toList, ∀ offset,
    left.offset.get? = some offset → right.offset.get? = some offset → left = right

theorem mem_types_of_index? {type : Descriptor} {index : UInt32}
    (indexed : pool.index? type = some index) : type ∈ pool.types := by
  obtain ⟨entry, found, _⟩ := Option.bind_eq_some_iff.1 indexed
  exact mem_types_iff.2 ⟨entry, found⟩

theorem Addressed.eq_of_index_eq (addressed : pool.Addressed) {left right : Descriptor}
    {index : UInt32} (leftIndex : pool.index? left = some index)
    (rightIndex : pool.index? right = some index) : left = right := by
  obtain ⟨count, unique, below⟩ := addressed.initial
  exact (unique index.toNat (below left index leftIndex)).unique
    ⟨index, leftIndex, rfl⟩ ⟨index, rightIndex, rfl⟩

theorem Addressed.ascending (addressed : pool.Addressed)
    (rising : ∀ left ∈ pool.toList, ∀ right ∈ pool.toList, ∀ low high first second,
      left.index.get? = some low → right.index.get? = some high →
      left.offset.get? = some first → right.offset.get? = some second → low < high →
      first < second) : pool.Ascending where
  ascending := rising
  distinct := by
    intro left leftPooled right rightPooled offset leftOffset rightOffset
    obtain ⟨low, lowKnown⟩ := Option.isSome_iff_exists.1
      (addressed.directories left leftPooled offset leftOffset).1
    obtain ⟨high, highKnown⟩ := Option.isSome_iff_exists.1
      (addressed.directories right rightPooled offset rightOffset).1
    -- Both have an index; if these differed, the one offset would be below itself.
    have leftIndex : pool.index? left.type = some low := (index?_type leftPooled).trans lowKnown
    have rightIndex : pool.index? right.type = some high :=
      (index?_type rightPooled).trans highKnown
    by_cases same : low = high
    · rw [← same] at rightIndex
      exact eq_of_type_eq leftPooled rightPooled (addressed.eq_of_index_eq leftIndex rightIndex)
    · rcases UInt32.lt_or_lt_of_ne same with below | above
      · exact absurd (rising left leftPooled right rightPooled low high offset offset lowKnown
          highKnown leftOffset rightOffset below) (UInt32.lt_irrefl offset)
      · exact absurd (rising right rightPooled left leftPooled high low offset offset highKnown
          lowKnown rightOffset leftOffset above) (UInt32.lt_irrefl offset)

theorem addressed_empty : Addressed {} where
  initial := ⟨0, by simp, by intro type index found; cases found⟩
  above := by
    intro type supertype higher lower _ found
    cases found
  directories := by
    intro entry member
    cases member

/-! An added entry has no address, and changes none. -/

theorem index?_of_perm {after : Pool} (added : after.toList.Perm (entry :: pool.toList))
    (absent : pool.get? entry.type = none) (unindexed : entry.index.get? = none) :
    after.index? = pool.index? := by
  funext type
  rw [index?, get?_of_perm added, index?]
  split
  next named =>
    rw [← named, absent]
    exact unindexed
  next => rfl

theorem Addressed.add {after : Pool} (addressed : pool.Addressed)
    (added : after.toList.Perm (entry :: pool.toList)) (absent : pool.get? entry.type = none)
    (unindexed : entry.index.get? = none) (unplaced : entry.offset.get? = none) :
    after.Addressed where
  initial := by
    rw [index?_of_perm added absent unindexed]
    exact addressed.initial
  above := by
    rw [index?_of_perm added absent unindexed]
    rintro type supertype higher lower ⟨_, other, pooled, rfl, named⟩ high low
    have old : other ∈ pool.toList := by
      rcases List.mem_cons.1 (added.subset pooled) with rfl | old
      · rw [index?, absent] at high
        cases high
      · exact old
    exact addressed.above other.type supertype higher lower
      ⟨mem_types_of_index? low, other, old, rfl, named⟩ high low
  directories := by
    intro other pooled offset found
    rcases List.mem_cons.1 (added.subset pooled) with rfl | old
    · rw [unplaced] at found
      cases found
    · exact addressed.directories other old offset found

theorem Ascending.add {after : Pool} (ascending : pool.Ascending)
    (added : after.toList.Perm (entry :: pool.toList)) (unplaced : entry.offset.get? = none) :
    after.Ascending := by
  have old : ∀ other ∈ after.toList, ∀ offset, other.offset.get? = some offset →
      other ∈ pool.toList := by
    intro other pooled offset found
    rcases List.mem_cons.1 (added.subset pooled) with rfl | old
    · rw [unplaced] at found
      cases found
    · exact old
  constructor
  · intro left leftPooled right rightPooled low high first second lowKnown highKnown leftOffset
      rightOffset
    exact ascending.ascending left (old left leftPooled first leftOffset) right
      (old right rightPooled second rightOffset) low high first second lowKnown highKnown
      leftOffset rightOffset
  · intro left leftPooled right rightPooled offset leftOffset rightOffset
    exact ascending.distinct left (old left leftPooled offset leftOffset) right
      (old right rightPooled offset rightOffset) offset leftOffset rightOffset

/-! A numbering that succeeds finds no index, and so no offset, in use. -/

theorem Addressed.unplaced (addressed : pool.Addressed) (pooled : entry ∈ pool.toList)
    (unindexed : entry.index.get? = none) : entry.offset.get? = none := by
  cases placed : entry.offset.get? with
  | none => rfl
  | some offset =>
      have resolved := (addressed.directories entry pooled offset placed).1
      rw [Slot.isResolved, unindexed] at resolved
      cases resolved

theorem addressed_of_numbered {order : List Descriptor} {numbered : Pool}
    (done : Numbered pool order numbered) (definitions : numbered.definition? = pool.definition?)
    (unplaced : ∀ entry ∈ numbered.toList, entry.offset.get? = none) : numbered.Addressed where
  initial := by
    refine ⟨pool.size, done.onto, ?_⟩
    intro type index indexed
    obtain ⟨found, known, small⟩ := done.total type (done.sameTypes ▸ mem_types_of_index? indexed)
    rw [indexed, Option.some.injEq] at known
    rw [known]
    exact small
  above := by
    intro type supertype higher lower extended high low
    rw [extends_of_definition? done.sameTypes definitions] at extended
    obtain ⟨foundHigh, foundLow, highKnown, lowKnown, below⟩ := done.above type supertype extended
    rw [high, Option.some.injEq] at highKnown
    rw [low, Option.some.injEq] at lowKnown
    rw [highKnown, lowKnown]
    exact below
  directories := by
    intro entry pooled offset placed
    rw [unplaced entry pooled] at placed
    cases placed

theorem ascending_of_unplaced (unplaced : ∀ entry ∈ pool.toList, entry.offset.get? = none) :
    pool.Ascending where
  ascending := by
    intro left leftPooled _ _ _ _ _ _ _ _ placed
    rw [unplaced left leftPooled] at placed
    cases placed
  distinct := by
    intro left leftPooled _ _ _ placed
    rw [unplaced left leftPooled] at placed
    cases placed

theorem Addressed.assignIndices (addressed : pool.Addressed) :
    pool.assignIndices.pool.Addressed ∧ (pool.Ascending → pool.assignIndices.pool.Ascending) := by
  rcases pool.assignIndices_cases with
    ⟨failure, failed⟩ | ⟨order, plan, sorted, planned, _, written⟩
  · rw [failed]
    exact ⟨addressed, id⟩
  · have done := numbered_of_plan sorted planned
    have free : ∀ entry ∈ pool.toList, entry.index.get? = none := by
      intro entry pooled
      have member := (perm_of_precedence sorted).symm.subset (List.mem_map_of_mem pooled)
      have unindexed := (planIndices_eq_ok_iff.1 planned).2.2 entry.type member
      rwa [index?_type pooled] at unindexed
    have unplaced := done.unplaced fun entry pooled => addressed.unplaced pooled (free entry pooled)
    rw [written]
    exact ⟨addressed_of_numbered done (definition?_placeAll plan pool) unplaced,
      fun _ => ascending_of_unplaced unplaced⟩

/-! A placing that succeeds finds no offset in use. -/

variable {sizeOf : Entry → UInt32} {start stop : Nat} {placed : List (Entry × UInt32)}
  {after : Pool}

theorem Addressed.mem_placed (addressed : pool.Addressed)
    (done : Placed sizeOf start stop pool placed after) {entry : Entry}
    (pooled : entry ∈ after.toList) {offset : UInt32} (found : entry.offset.get? = some offset) :
    ∃ old ∈ pool.toList, (old, offset) ∈ placed ∧
      entry = { old with offset := ⟨.resolved offset⟩ } := by
  obtain ⟨old, known, ⟨given, member, rfl⟩ | ⟨spared, rfl⟩⟩ := done.entry (get?_type pooled)
  · cases found
    exact ⟨old, (get?_eq_some_iff.1 known).1, member, rfl⟩
  · -- A class with an offset needs a directory, and such a class is not spared.
    have needed := (addressed.directories entry (get?_eq_some_iff.1 known).1 offset found).2.1
    rw [spared] at needed
    cases needed

theorem Addressed.place (addressed : pool.Addressed)
    (done : Placed sizeOf start stop pool placed after)
    (definitions : after.definition? = pool.definition?) : after.Addressed where
  initial := by
    rw [show after.index? = pool.index? from funext done.sameIndices]
    exact addressed.initial
  above := by
    rw [show after.index? = pool.index? from funext done.sameIndices,
      extends_of_definition? done.sameTypes definitions]
    exact addressed.above
  directories := by
    intro entry pooled offset found
    obtain ⟨old, _, member, rfl⟩ := addressed.mem_placed done pooled found
    obtain ⟨needed, index, indexed⟩ := done.holder member
    have resolved : old.index.isResolved = true := Option.isSome_iff_exists.2 ⟨index, indexed⟩
    exact ⟨resolved, needed, done.aligned _ member⟩

theorem rel_or_rel_of_mem {α : Type} {relation : α → α → Prop} {list : List α}
    (related : list.Pairwise relation) {left right : α} (leftMember : left ∈ list)
    (rightMember : right ∈ list) (differ : left ≠ right) :
    relation left right ∨ relation right left := by
  have symmetric : Std.Symm fun first second => relation first second ∨ relation second first :=
    ⟨fun _ _ => Or.symm⟩
  have either : list.Pairwise fun first second => relation first second ∨ relation second first :=
    related.imp Or.inl
  exact either.forall leftMember rightMember differ

theorem Placed.rising (done : Placed sizeOf start stop pool placed after)
    (sized : ∀ entry, entry.hasDirectory = true → sizeOf entry ≠ 0) {left right : Entry × UInt32}
    (leftMember : left ∈ placed) (rightMember : right ∈ placed) {low high : UInt32}
    (lowKnown : left.1.index.get? = some low) (highKnown : right.1.index.get? = some high)
    (below : low < high) : left.2 < right.2 := by
  obtain ⟨entries, sorted, _, holders⟩ := done.holders
  have indices : placed.Pairwise fun left right => ∀ low high, left.1.index.get? = some low →
      right.1.index.get? = some high → low ≤ high := by
    have holding := (pairwise_byIndex sorted).filter fun entry => entry.hasDirectory
    rw [← holders, List.pairwise_map] at holding
    exact holding
  have differ : left ≠ right := by
    rintro rfl
    rw [lowKnown, Option.some.injEq] at highKnown
    exact UInt32.lt_irrefl low (highKnown ▸ below)
  have size : 0 < (sizeOf left.1).toNat := by
    refine Nat.pos_of_ne_zero fun zero => ?_
    exact sized left.1 (done.holder leftMember).1 (UInt32.toNat_inj.1 zero)
  rcases rel_or_rel_of_mem (indices.and done.disjoint) leftMember rightMember differ with
    ⟨_, apart⟩ | ⟨backward, _⟩
  · rw [UInt32.lt_iff_toNat_lt]
    omega
  · exact absurd below (UInt32.not_lt.2 (backward high low highKnown lowKnown))

theorem Addressed.ascending_place (addressed : pool.Addressed)
    (done : Placed sizeOf start stop pool placed after)
    (definitions : after.definition? = pool.definition?)
    (sized : ∀ entry, entry.hasDirectory = true → sizeOf entry ≠ 0) : after.Ascending := by
  apply (addressed.place done definitions).ascending
  intro left leftPooled right rightPooled low high first second lowKnown highKnown leftOffset
    rightOffset below
  obtain ⟨_, _, leftMember, rfl⟩ := addressed.mem_placed done leftPooled leftOffset
  obtain ⟨_, _, rightMember, rfl⟩ := addressed.mem_placed done rightPooled rightOffset
  exact done.rising sized leftMember rightMember lowKnown highKnown below

theorem Addressed.assignOffsets (addressed : pool.Addressed) (start : UInt32)
    (sizeOf : Entry → UInt32) :
    (pool.assignOffsets start sizeOf).pool.Addressed ∧
      ((∀ entry, entry.hasDirectory = true → sizeOf entry ≠ 0) → pool.Ascending →
        (pool.assignOffsets start sizeOf).pool.Ascending) := by
  rcases pool.assignOffsets_cases start sizeOf with
    ⟨failure, failed⟩ | ⟨entries, plan, stop, sorted, planned, _, written⟩
  · rw [failed]
    exact ⟨addressed, fun _ => id⟩
  · obtain ⟨placed, done⟩ := placed_of_plan sorted planned
    have definitions : (placeAll .annotationDirectoryOffset plan pool).definition? =
        pool.definition? := definition?_placeAll plan pool
    rw [written]
    exact ⟨addressed.place done definitions,
      fun sized _ => addressed.ascending_place done definitions sized⟩

theorem Addressed.intern (addressed : pool.Addressed) (unindexed : entry.index.get? = none)
    (unplaced : entry.offset.get? = none) : (pool.intern entry).pool.Addressed ∧
      (pool.Ascending → (pool.intern entry).pool.Ascending) := by
  rcases pool.intern_cases entry with ⟨_, _, failed⟩ | ⟨absent, _, added⟩
  · rw [failed]
    exact ⟨addressed, id⟩
  · exact ⟨addressed.add added absent unindexed unplaced,
      fun ascending => ascending.add added unplaced⟩

theorem Addressed.perform (addressed : pool.Addressed) {call : Call} (fresh : call.Unaddressed) :
    (call.perform pool).pool.Addressed ∧
      (call.Sized → pool.Ascending → (call.perform pool).pool.Ascending) := by
  cases call with
  | intern entry =>
      obtain ⟨kept, keptAscending⟩ := addressed.intern fresh.1 fresh.2
      exact ⟨kept, fun _ => keptAscending⟩
  | assignIndices =>
      obtain ⟨kept, keptAscending⟩ := addressed.assignIndices
      exact ⟨kept, fun _ => keptAscending⟩
  | assignOffsets start sizeOf => exact addressed.assignOffsets start sizeOf

/-- After any run of calls the addresses of an initially empty pool are in order, and where no size
was zero, the offsets ascend with the indices. -/
theorem addressed_of_run (calls : List Call) (fresh : ∀ call ∈ calls, call.Unaddressed) :
    (run {} calls).pool.Addressed ∧
      ((∀ call ∈ calls, call.Sized) → (run {} calls).pool.Ascending) := by
  constructor
  · exact run_keeps (fun _ _ allowed kept => (kept.perform allowed).1) fresh addressed_empty
  · intro sized
    have both : ∀ call ∈ calls, call.Unaddressed ∧ call.Sized :=
      fun call member => ⟨fresh call member, sized call member⟩
    have step : ∀ (pool : Pool) (call : Call), call.Unaddressed ∧ call.Sized →
        pool.Addressed ∧ pool.Ascending →
          (call.perform pool).pool.Addressed ∧ (call.perform pool).pool.Ascending := by
      rintro pool call ⟨allowed, positive⟩ ⟨addressed, ascending⟩
      obtain ⟨kept, keptAscending⟩ := addressed.perform allowed
      exact ⟨kept, keptAscending positive ascending⟩
    have start : Ascending {} := ascending_of_unplaced (by intro entry member; cases member)
    exact (run_keeps step both ⟨addressed_empty, start⟩).2

def scattered : List Call :=
  let first : Draft := { type := ⟨"La;"⟩, flags := .none, superclass := some ⟨"Lb;"⟩,
                         annotations := [⟨"LTag;"⟩] }
  let second : Draft := { type := ⟨"Lb;"⟩, flags := .none, annotations := [⟨"LTag;"⟩] }
  let late : Draft := { type := ⟨"Lc;"⟩, flags := .none, interfaces := [⟨"La;"⟩] }
  [.assignIndices, .intern first.build, .assignOffsets 0x100 fun _ => 10, .intern second.build,
    .intern first.build, .assignIndices, .assignOffsets 0 fun _ => 10,
    .assignOffsets 0x101 fun _ => 10, .assignOffsets 0x200 fun _ => 20, .intern late.build,
    .assignIndices]

theorem scattered_addressed :
    (∀ call ∈ scattered, call.Unaddressed) ∧ (∀ call ∈ scattered, call.Sized) ∧
      (run {} scattered).pool.Addressed ∧ (run {} scattered).pool.Ascending ∧
      ((run {} scattered).pool.toList.map fun entry => (entry.index.get?, entry.offset.get?)) =
        [(some 1, some 0x110), (some 0, some 0x104), (none, none)] := by
  have fresh : ∀ call ∈ scattered, call.Unaddressed := by
    simp [scattered, Call.Unaddressed, Draft.build, Draft.buildWith, Slot.get?]
  have sized : ∀ call ∈ scattered, call.Sized := by
    simp [scattered, Call.Sized]
  obtain ⟨addressed, ascending⟩ := addressed_of_run scattered fresh
  exact ⟨fresh, sized, addressed, ascending sized, by cbv⟩

end Pool

end ClassTable
