import ClassTable.Proofs.Numbering
import ClassTable.Proofs.Placement
import ClassTable.Proofs.Stability

/-!
The entries of a pool in the order of their indices, and among equal indices of their types. There
is no such order while a class has no index. Where the classes are numbered by an order, they are
sorted into it.
-/

namespace ClassTable.Pool

variable {pool : Pool} {order : List Descriptor} {entries : List Entry}

theorem index_of_byIndex (sorted : pool.byIndex = .ok entries) :
    ∀ entry ∈ entries, ∃ index, entry.index.get? = some index := by
  obtain ⟨pairs, read, _⟩ := Outcome.bind_eq_ok_iff.1 sorted
  intro entry member
  have pooled := (perm_of_byIndex sorted).subset member
  obtain ⟨pair, found⟩ := Outcome.exists_mapM_eq_ok_iff.1 ⟨pairs, read⟩ entry pooled
  split at found
  next index indexed => exact ⟨index, indexed⟩
  next => cases found

theorem Placed.holder {sizeOf : Entry → UInt32} {start stop : Nat}
    {placed : List (Entry × UInt32)} {after : Pool} {address : Entry × UInt32}
    (done : Placed sizeOf start stop pool placed after)
    (member : address ∈ placed) : address.1.hasDirectory = true ∧
      ∃ index, address.1.index.get? = some index := by
  obtain ⟨entries, sorted, _, holders⟩ := done.holders
  have holder : address.1 ∈ entries.filter fun entry => entry.hasDirectory :=
    holders ▸ List.mem_map_of_mem member
  obtain ⟨listed, needed⟩ := List.mem_filter.1 holder
  exact ⟨needed, index_of_byIndex sorted address.1 listed⟩

theorem exists_byIndex (indexed : ∀ entry ∈ pool.toList, ∃ index, entry.index.get? = some index) :
    ∃ entries, pool.byIndex = .ok entries := by
  rw [byIndex, Outcome.exists_bind_eq_ok_iff]
  refine (Outcome.exists_mapM_eq_ok_iff.2 fun entry pooled => ?_).imp
    fun pairs read => ⟨read, _, rfl⟩
  obtain ⟨index, found⟩ := indexed entry pooled
  exact ⟨(index, entry), by rw [found]⟩

def Precedes (left right : Entry) : Prop :=
  ∃ low high, left.index.get? = some low ∧ right.index.get? = some high ∧
    (low < high ∨ low = high ∧ compare left.type right.type = .lt)

theorem Precedes.asymm {left right : Entry} (forward : Precedes left right) :
    ¬ Precedes right left := by
  rintro ⟨high, low, highKnown, lowKnown, backward⟩
  obtain ⟨_, _, leftKnown, rightKnown, forward⟩ := forward
  cases leftKnown.symm.trans lowKnown
  cases rightKnown.symm.trans highKnown
  rcases forward with below | ⟨rfl, below⟩
  · rcases backward with above | ⟨rfl, _⟩
    · exact UInt32.lt_asymm below above
    · exact UInt32.lt_irrefl _ below
  · rcases backward with above | ⟨_, above⟩
    · exact UInt32.lt_irrefl _ above
    · rw [Std.OrientedCmp.gt_of_lt below] at above
      cases above

theorem pairwise_precedes_byIndex (sorted : pool.byIndex = .ok entries) :
    entries.Pairwise Precedes := by
  obtain ⟨pairs, read, listed⟩ := Outcome.bind_eq_ok_iff.1 sorted
  -- The sorting key is the index that is read off the entry.
  have kept : List.Forall₂ (fun entry pair => entry.index.get? = some pair.1 ∧ entry = pair.2)
      pool.toList pairs := by
    refine (Outcome.mapM_eq_ok_iff.1 read).imp fun entry pair found => ?_
    split at found
    next index indexed =>
      cases found
      exact ⟨indexed, rfl⟩
    next => cases found
  have keyed : ∀ pair ∈ pairs, pair.2.index.get? = some pair.1 := by
    intro pair member
    obtain ⟨_, _, indexed, rfl⟩ := Outcome.exists_of_mem_right kept member
    exact indexed
  have typed : pairs.Pairwise fun left right => compare left.2.type right.2.type = .lt := by
    have same : pool.toList.map id = pairs.map Prod.snd :=
      Outcome.map_eq_map_of_forall₂ kept fun entry pair found => found.2
    have ascending := pool.entries.pairwise_toList
    rw [← toList, ← List.map_id pool.toList, same, List.pairwise_map] at ascending
    exact ascending
  have trans : ∀ first second third : UInt32 × Entry, decide (first.1 ≤ second.1) = true →
      decide (second.1 ≤ third.1) = true → decide (first.1 ≤ third.1) = true := by grind
  have total : ∀ first second : UInt32 × Entry,
      (decide (first.1 ≤ second.1) || decide (second.1 ≤ first.1)) = true := by grind
  have ordered := (List.pairwise_mergeSort trans total pairs).and
    (StableSort.pairwise_mergeSort trans total typed)
  rw [← Except.ok.inj listed, List.pairwise_map]
  refine ordered.imp_of_mem fun {left right} leftMember rightMember related => ?_
  obtain ⟨below, tied⟩ := related
  refine ⟨left.1, right.1, keyed left ((List.mergeSort_perm pairs _).subset leftMember),
    keyed right ((List.mergeSort_perm pairs _).subset rightMember), ?_⟩
  rw [decide_eq_true_iff] at below tied
  rcases UInt32.lt_or_eq_of_le below with lower | same
  · exact .inl lower
  · exact .inr ⟨same, tied (UInt32.le_of_eq same.symm)⟩

theorem pairwise_byIndex (sorted : pool.byIndex = .ok entries) :
    entries.Pairwise fun left right => ∀ low high, left.index.get? = some low →
      right.index.get? = some high → low ≤ high := by
  refine (pairwise_precedes_byIndex sorted).imp ?_
  rintro left right ⟨low, high, lowKnown, highKnown, before⟩ _ _ leftIndex rightIndex
  cases lowKnown.symm.trans leftIndex
  cases highKnown.symm.trans rightIndex
  rcases before with lower | ⟨same, _⟩
  · exact UInt32.le_of_lt lower
  · exact UInt32.le_of_eq same

def FirstUnindexed (pool : Pool) (type : Descriptor) : Prop :=
  ∃ entry ∈ pool.toList, entry.type = type ∧ entry.index.get? = none ∧
    ∀ other ∈ pool.toList, other.index.get? = none → (compare type other.type).isLE = true

theorem byIndex_eq_error {failure : PoolError} (missing : pool.byIndex = .error failure) :
    ∃ type, failure = .indexUnassigned type ∧ pool.FirstUnindexed type := by
  rw [byIndex, Outcome.bind_eq_error_iff] at missing
  obtain read | ⟨_, _, made⟩ := missing
  · obtain ⟨before, entry, after, split, indexed, failed⟩ := Outcome.mapM_eq_error_iff.1 read
    split at failed
    next => cases failed
    next unindexed =>
      refine ⟨entry.type, (Except.error.inj failed).symm, entry, by simp [split], rfl,
        unindexed, ?_⟩
      intro other pooled lacking
      have ascending : pool.toList.Pairwise fun left right => compare left right = .lt :=
        pool.entries.pairwise_toList
      rw [split, List.mem_append, List.mem_cons] at pooled
      rcases pooled with earlier | rfl | later
      · obtain ⟨result, found⟩ := indexed other earlier
        rw [lacking] at found
        cases found
      · have same : compare other.type other.type = .eq := Std.ReflCmp.compare_self
        rw [same]
        rfl
      · rw [split, List.pairwise_append, List.pairwise_cons] at ascending
        have below : compare entry.type other.type = .lt := ascending.2.1.1 other later
        rw [below]
        rfl
  · cases made

theorem byIndex_of_unindexed {entry : Entry} (pooled : entry ∈ pool.toList)
    (unindexed : entry.index.get? = none) :
    ∃ type, pool.byIndex = .error (.indexUnassigned type) ∧ pool.FirstUnindexed type := by
  cases sorted : pool.byIndex with
  | error failure =>
      obtain ⟨type, rfl, lowest⟩ := byIndex_eq_error sorted
      exact ⟨type, rfl, lowest⟩
  | ok entries =>
      obtain ⟨index, indexed⟩ :=
        index_of_byIndex sorted entry ((perm_of_byIndex sorted).symm.subset pooled)
      cases unindexed.symm.trans indexed

structure Ranked (pool : Pool) (order : List Descriptor) : Prop where
  perm : order.Perm pool.types
  place : ∀ (position : Nat) (type : Descriptor), order[position]? = some type →
    ∃ index, pool.index? type = some index ∧ index.toNat = position

theorem Numbered.ranked {numbered : Pool} (done : Numbered pool order numbered) :
    Ranked numbered order where
  perm := (List.perm_ext_iff_of_nodup done.unique numbered.nodup_types).2 fun type => by
    rw [done.sameTypes, done.complete]
  place := by
    intro position type found
    obtain ⟨entry, index, _, place, kept⟩ := done.placed position type found
    exact ⟨index, by rw [index?, kept]; rfl, place⟩

theorem Ranked.exists_index (ranked : Ranked pool order) {type : Descriptor}
    (listed : type ∈ order) : ∃ index, pool.index? type = some index := by
  obtain ⟨position, inside, found⟩ := List.mem_iff_getElem.1 listed
  obtain ⟨index, known, _⟩ :=
    ranked.place position type (List.getElem?_eq_some_iff.2 ⟨inside, found⟩)
  exact ⟨index, known⟩

theorem Ranked.pairwise (ranked : Ranked pool order) :
    order.Pairwise fun left right => ∀ low high, pool.index? left = some low →
      pool.index? right = some high → low ≤ high := by
  rw [List.pairwise_iff_getElem]
  intro first second firstInside secondInside before low high leftIndex rightIndex
  obtain ⟨index, known, place⟩ :=
    ranked.place first _ (List.getElem?_eq_getElem firstInside)
  obtain ⟨other, otherKnown, otherPlace⟩ :=
    ranked.place second _ (List.getElem?_eq_getElem secondInside)
  rw [known, Option.some.injEq] at leftIndex
  rw [otherKnown, Option.some.injEq] at rightIndex
  rw [← leftIndex, ← rightIndex, UInt32.le_iff_toNat_le, place, otherPlace]
  omega

theorem Ranked.eq_of_index_eq (ranked : Ranked pool order) {left right : Descriptor}
    (leftListed : left ∈ order) (rightListed : right ∈ order)
    (same : pool.index? left = pool.index? right) : left = right := by
  obtain ⟨first, firstInside, leftFound⟩ := List.mem_iff_getElem.1 leftListed
  obtain ⟨second, secondInside, rightFound⟩ := List.mem_iff_getElem.1 rightListed
  have leftPlace := List.getElem?_eq_some_iff.2 ⟨firstInside, leftFound⟩
  have rightPlace := List.getElem?_eq_some_iff.2 ⟨secondInside, rightFound⟩
  obtain ⟨index, known, place⟩ := ranked.place first left leftPlace
  obtain ⟨other, otherKnown, otherPlace⟩ := ranked.place second right rightPlace
  rw [known, otherKnown, Option.some.injEq] at same
  have samePlace : first = second := by rw [← place, ← otherPlace, same]
  rw [samePlace, rightPlace] at leftPlace
  exact (Option.some.inj leftPlace).symm

theorem Ranked.types_byIndex (ranked : Ranked pool order) :
    ∃ entries, pool.byIndex = .ok entries ∧ entries.map (fun entry => entry.type) = order := by
  have indexed : ∀ entry ∈ pool.toList, ∃ index, entry.index.get? = some index := by
    intro entry pooled
    have known := ranked.exists_index (ranked.perm.symm.subset (List.mem_map_of_mem pooled))
    rwa [index?_type pooled] at known
  obtain ⟨entries, sorted⟩ := exists_byIndex indexed
  have pooled := perm_of_byIndex sorted
  have listed : (entries.map fun entry => entry.type).Perm order :=
    (pooled.map _).trans ranked.perm.symm
  refine ⟨entries, sorted, ?_⟩
  -- Both ascend by index, and no index occurs twice.
  refine listed.eq_of_pairwise ?_ ?_ ranked.pairwise
  · intro left right leftMember rightListed forward backward
    have leftListed := listed.subset leftMember
    obtain ⟨low, lowKnown⟩ := ranked.exists_index leftListed
    obtain ⟨high, highKnown⟩ := ranked.exists_index rightListed
    have same : low = high := UInt32.le_antisymm (forward low high lowKnown highKnown)
      (backward high low highKnown lowKnown)
    exact ranked.eq_of_index_eq leftListed rightListed (by rw [lowKnown, highKnown, same])
  · rw [List.pairwise_map]
    refine (pairwise_byIndex sorted).imp_of_mem fun {left right} leftMember rightMember below => ?_
    rw [index?_type (pooled.subset leftMember), index?_type (pooled.subset rightMember)]
    exact below

end ClassTable.Pool
