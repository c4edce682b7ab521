import ClassTable.Proofs.DirectorySize
import ClassTable.Proofs.Faults

/-!
Directories whose number of bytes no word can say. Their size is given as the largest word. A
directory starts at four or later, so with that size there is no end for it: a pool with such a
class is never laid out.
-/

namespace ClassTable

theorem ClassDef.toNat_directorySize_eq_ite (definition : ClassDef) :
    definition.directorySize.toNat =
      if 16 + 8 * definition.mergedAnnotations < 2 ^ 32 then 16 + 8 * definition.mergedAnnotations
      else 2 ^ 32 - 1 := by
  rw [toNat_directorySize]
  simp only [Word.size, UInt32.size]
  split <;> omega

namespace Pool

variable {holders : List Entry} {entry : Entry} {sizeOf : Entry → UInt32} {failure : PoolError}

theorem blocked_of_oversized (free : Nat) (large : 2 ^ 32 ≤ 16 + 8 * entry.mergedAnnotations) :
    Blocked (fun entry => entry.directorySize) free entry := by
  have saturated : entry.directorySize.toNat = 2 ^ 32 - 1 := by
    rw [ClassDef.toNat_directorySize_eq_ite, if_neg (Nat.not_lt.2 large)]
  rcases Nat.eq_zero_or_pos (Word.alignUp free) with zero | positive
  · exact .inr (.inr (.inl zero))
  · -- The largest word is no size behind an offset in use, which is at least four.
    have four : Word.alignment ≤ Word.alignUp free :=
      Nat.le_of_dvd positive (Word.alignment_dvd_alignUp free)
    refine .inr (.inr (.inr ?_))
    simp only [Word.size, UInt32.size, saturated]
    omega

theorem FirstFault.overflow {start position : Nat}
    (first : FirstFault sizeOf start holders position failure) (positive : 0 < start)
    (unplaced : ∀ entry ∈ holders, entry.offset.get? = none) :
    ∃ entry, holders[position]? = some entry ∧ failure = .offsetOverflow entry.type := by
  obtain ⟨⟨entry, listed, fault⟩, _⟩ := first
  refine ⟨entry, listed, ?_⟩
  cases fault with
  | beyond => rfl
  | taken _ held => cases (unplaced entry (List.mem_of_getElem? listed)).symm.trans held
  | reserved _ zero => exact absurd (start_eq_zero_of_alignUp zero) (Nat.ne_of_gt positive)
  | overrun => rfl

theorem FirstFault.le_of_blocked {start position other : Nat}
    (first : FirstFault sizeOf start holders position failure)
    (listed : holders[other]? = some entry)
    (blocked : Blocked sizeOf (freeAt sizeOf start holders other) entry) : position ≤ other :=
  Nat.le_of_not_lt fun before => first.clear other before entry listed blocked

theorem Queued.eq_or_precedes {pool : Pool} (queued : Queued pool holders) {left right : Nat}
    {first second : Entry} (before : left ≤ right) (leftListed : holders[left]? = some first)
    (rightListed : holders[right]? = some second) : first = second ∨ Precedes first second := by
  obtain ⟨leftInside, rfl⟩ := List.getElem?_eq_some_iff.1 leftListed
  obtain ⟨rightInside, rfl⟩ := List.getElem?_eq_some_iff.1 rightListed
  rcases Nat.eq_or_lt_of_le before with rfl | below
  · exact .inl rfl
  · exact .inr (List.pairwise_iff_getElem.1 queued.ordered left right leftInside rightInside below)

/-- The size of a directory is its number of bytes, or the largest word if no word says that
number. A pool with a class for which no word does is never laid out. If its classes are all
numbered, none has an offset yet and the start is not zero, the fault is a want of room, and that
class or one in front of it is reported. -/
theorem oversized_unplaced (pool : Pool) (start : UInt32) :
    (∀ definition : ClassDef, definition.directorySize.toNat =
      if 16 + 8 * definition.mergedAnnotations < 2 ^ 32 then 16 + 8 * definition.mergedAnnotations
      else 2 ^ 32 - 1) ∧
    ∀ entry ∈ pool.toList, entry.hasDirectory = true →
      2 ^ 32 ≤ 16 + 8 * entry.mergedAnnotations →
        let result := (pool.assignOffsets start fun entry => entry.directorySize).result
        (∃ failure, result = .error failure) ∧
        ((∀ other ∈ pool.toList, ∃ index, other.index.get? = some index) →
          (∀ other ∈ pool.toList, other.offset.get? = none) → start ≠ 0 →
            ∃ holder ∈ pool.toList, holder.hasDirectory = true ∧
              (holder = entry ∨ Precedes holder entry) ∧
              result = .error (.offsetOverflow holder.type)) := by
  refine ⟨ClassDef.toNat_directorySize_eq_ite, fun entry pooled needed large => ?_⟩
  intro result
  cases sorted : pool.byIndex with
  | error failure =>
      refine ⟨⟨failure, congrArg Pass.result (assignOffsets_of_unindexed sorted)⟩, ?_⟩
      intro indexed
      obtain ⟨entries, found⟩ := exists_byIndex indexed
      cases sorted.symm.trans found
  | ok entries =>
      have queued := queued_of_byIndex sorted
      generalize waiting : (entries.filter fun entry => entry.hasDirectory) = holders at queued
      have reported : ∀ failure, result = .error failure ↔ ∃ position,
          FirstFault (fun entry => entry.directorySize) start.toNat holders position failure :=
        fun failure => waiting ▸ assignOffsets_eq_error_iff sorted
      obtain ⟨place, listed⟩ := List.mem_iff_getElem?.1
        (queued.perm.symm.subset (List.mem_filter.2 ⟨pooled, needed⟩))
      have blocked := blocked_of_oversized
        (freeAt (fun entry => entry.directorySize) start.toNat holders place) large
      obtain ⟨failure, position, first⟩ := exists_firstFault_iff.2 ⟨place, entry, listed, blocked⟩
      refine ⟨⟨failure, (reported failure).2 ⟨position, first⟩⟩, fun _ unplaced nonzero => ?_⟩
      have within : ∀ holder ∈ holders, holder ∈ pool.toList ∧ holder.hasDirectory = true :=
        fun holder member => List.mem_filter.1 (queued.perm.subset member)
      have positive : 0 < start.toNat :=
        Nat.pos_of_ne_zero fun zero => nonzero (UInt32.toNat_inj.1 zero)
      obtain ⟨holder, held, rfl⟩ := first.overflow positive fun holder member =>
        unplaced holder (within holder member).1
      obtain ⟨inPool, needs⟩ := within holder (List.mem_of_getElem? held)
      exact ⟨holder, inPool, needs,
        queued.eq_or_precedes (first.le_of_blocked listed blocked) held listed,
        (reported _).2 ⟨position, first⟩⟩

def crowded (fields : Nat) : Draft where
  type := ⟨"La;"⟩
  flags := .none
  staticFields := (List.range fields).map fun number =>
    { definingClass := ⟨"La;"⟩, name := Numeral.decimal number, type := ⟨"I"⟩,
      flags := .staticBit, annotations := [⟨"LTag;"⟩] }

theorem countP_crowded (fields : Nat) :
    (crowded fields).build.staticFields.toList.countP (fun field => field.annotations ≠ []) =
      fields := by
  have distinct : (crowded fields).staticFields.Pairwise fun left right =>
      compare left right ≠ .eq := by
    refine List.pairwise_map.2 (List.nodup_range.imp fun {first second} differ equal => ?_)
    exact differ (Numeral.decimal_injective (congrArg (·.2.1) (Field.compare_eq_iff.1 equal)))
  have each : ∀ field ∈ (crowded fields).staticFields,
      decide (field.annotations ≠ []) = true := by
    intro field member
    obtain ⟨number, _, rfl⟩ := List.mem_map.1 member
    rfl
  refine ((SortedSet.perm_ofList distinct).countP_eq _).trans ?_
  rw [List.countP_eq_length.2 each, crowded, List.length_map, List.length_range]

/-- The other groups of the class are empty, so none of its annotations is hidden. -/
theorem annotations_crowded (fields : Nat) :
    (crowded fields).build.groupedAnnotations = fields ∧
      (crowded fields).build.mergedAnnotations = fields := by
  have instances : (crowded fields).build.instanceFields.toList = [] :=
    (SortedSet.perm_ofList .nil).eq_nil
  have direct : (crowded fields).build.directMethods.toList = [] :=
    (SortedSet.perm_ofList .nil).eq_nil
  have virtual : (crowded fields).build.virtualMethods.toList = [] :=
    (SortedSet.perm_ofList .nil).eq_nil
  have parts := (crowded fields).build.mergedAnnotations_add_hidden
  have grouped : (crowded fields).build.groupedAnnotations = fields := by
    rw [ClassDef.groupedAnnotations, instances, direct, virtual, countP_crowded]
    rfl
  rw [grouped, ClassDef.hiddenAnnotations, instances, virtual] at parts
  exact ⟨grouped, parts⟩

def crowdedEntry (fields : Nat) : Entry :=
  { (crowded fields).build with index := ⟨.resolved 0⟩ }

theorem hasDirectory_crowdedEntry {fields : Nat} (positive : 0 < fields) :
    (crowdedEntry fields).hasDirectory = true :=
  ClassDef.hasDirectory_iff.2 (.inr (positive.trans_eq (annotations_crowded fields).1.symm))

/-- The fewest records whose bytes no word says are too many, even in a pool of one class. -/
theorem crowded_unplaced :
    let entry := crowdedEntry 536870910
    let pool : Pool := ⟨.singleton entry⟩
    entry ∈ pool.toList ∧ entry.hasDirectory = true ∧ 2 ^ 32 ≤ 16 + 8 * entry.mergedAnnotations ∧
      (∀ other ∈ pool.toList, ∃ index, other.index.get? = some index) ∧
      (∀ other ∈ pool.toList, other.offset.get? = none) ∧
      entry.directorySize.toNat = 2 ^ 32 - 1 ∧
      (pool.assignOffsets 1 fun entry => entry.directorySize).result =
        .error (.offsetOverflow ⟨"La;"⟩) := by
  intro entry pool
  have only : ∀ other ∈ pool.toList, other = entry := fun other => List.mem_singleton.1
  have pooled : entry ∈ pool.toList := List.mem_singleton_self entry
  have needed : entry.hasDirectory = true := hasDirectory_crowdedEntry (by omega)
  have count : entry.mergedAnnotations = 536870910 := (annotations_crowded _).2
  have large : 2 ^ 32 ≤ 16 + 8 * entry.mergedAnnotations := by omega
  have indexed : ∀ other ∈ pool.toList, ∃ index, other.index.get? = some index :=
    fun other member => ⟨0, only other member ▸ rfl⟩
  have fresh : ∀ other ∈ pool.toList, other.offset.get? = none :=
    fun other member => only other member ▸ rfl
  obtain ⟨size, unplaced⟩ := oversized_unplaced pool 1
  obtain ⟨holder, member, _, _, overflow⟩ :=
    (unplaced entry pooled needed large).2 indexed fresh (by decide)
  refine ⟨pooled, needed, large, indexed, fresh, ?_, ?_⟩
  · rw [size, if_neg (Nat.not_lt.2 large)]
  · rw [overflow, only holder member]
    rfl

end Pool

end ClassTable
