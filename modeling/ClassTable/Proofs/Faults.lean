import ClassTable.Proofs.Ordering
import Mathlib.Tactic

/-!
Why the annotation directories cannot be placed. The directories are laid out in natural numbers,
where nothing overflows, and the first one that no word can place there is the one that is reported.
-/

namespace ClassTable.Pool

variable {pool : Pool} {entries holders rest : List Entry} {entry : Entry}
  {sizeOf : Entry → UInt32} {cause failure : PoolError}

/-- Where directories of given sizes end, one behind another from a start on, each at the first
multiple of the alignment that is free. The arithmetic is that of the natural numbers. -/
def layoutEnd (start : Nat) : List Nat → Nat
  | [] => start
  | size :: rest => layoutEnd (Word.alignUp start + size) rest

theorem le_layoutEnd (start : Nat) (sizes : List Nat) : start ≤ layoutEnd start sizes := by
  induction sizes generalizing start with
  | nil => exact Nat.le_refl start
  | cons size rest ih =>
      have rounded := Word.le_alignUp start
      have later := ih (Word.alignUp start + size)
      rw [layoutEnd]
      omega

theorem layoutEnd_append (start : Nat) (sizes others : List Nat) :
    layoutEnd start (sizes ++ others) = layoutEnd (layoutEnd start sizes) others := by
  induction sizes generalizing start with
  | nil => rfl
  | cons size rest ih => exact ih _

theorem Packed.layoutEnd_eq {start stop : Nat} {placed : List (Entry × UInt32)}
    (packed : Packed sizeOf start placed stop) :
    layoutEnd start (placed.map fun address => (sizeOf address.1).toNat) = stop := by
  induction packed with
  | done => rfl
  | next least _ _ _ ih =>
      rw [List.map_cons, layoutEnd, ← least.unique (isLeast_alignUp _)]
      exact ih

def sizesOf (sizeOf : Entry → UInt32) (entries : List Entry) : List Nat :=
  (entries.filter fun entry => entry.hasDirectory).map fun entry => (sizeOf entry).toNat

theorem sizesOf_cons : sizesOf sizeOf (entry :: entries) =
    if entry.hasDirectory then (sizeOf entry).toNat :: sizesOf sizeOf entries
    else sizesOf sizeOf entries := by
  rw [sizesOf, List.filter_cons]
  split <;> rfl

theorem layoutEnd_of_planOffsets {start stop : UInt32} {plan : List (Descriptor × UInt32)}
    (planned : planOffsets sizeOf start entries = .ok (plan, stop)) :
    layoutEnd start.toNat (sizesOf sizeOf entries) = stop.toNat := by
  obtain ⟨placed, holders, _, packed, _⟩ := packed_of_planOffsets planned
  rw [sizesOf, ← holders, List.map_map]
  exact packed.layoutEnd_eq

def freeAt (sizeOf : Entry → UInt32) (start : Nat) (holders : List Entry) (position : Nat) : Nat :=
  layoutEnd start ((holders.take position).map fun entry => (sizeOf entry).toNat)

theorem freeAt_succ (sizeOf : Entry → UInt32) (start : Nat) {position : Nat}
    (found : holders[position]? = some entry) : freeAt sizeOf start holders (position + 1) =
      Word.alignUp (freeAt sizeOf start holders position) + (sizeOf entry).toNat := by
  rw [freeAt, List.take_add_one, found, List.map_append, layoutEnd_append]
  rfl

theorem freeAt_le_layoutEnd (sizeOf : Entry → UInt32) (start : Nat) (holders : List Entry)
    (position : Nat) : freeAt sizeOf start holders position ≤
      layoutEnd start (holders.map fun entry => (sizeOf entry).toNat) := by
  conv_rhs => rw [← List.take_append_drop position holders, List.map_append, layoutEnd_append]
  exact le_layoutEnd _ _

theorem start_eq_zero_of_alignUp {start position : Nat}
    (zero : Word.alignUp (freeAt sizeOf start holders position) = 0) : start = 0 := by
  have rounded := Word.le_alignUp (freeAt sizeOf start holders position)
  have later := le_layoutEnd start ((holders.take position).map fun entry => (sizeOf entry).toNat)
  rw [← freeAt] at later
  omega

/-- The directory of an entry cannot be placed behind the others: there is no aligned word behind
them, the entry has an offset already, the offset would be zero, or no word is its end. -/
def Blocked (sizeOf : Entry → UInt32) (free : Nat) (entry : Entry) : Prop :=
  Word.size ≤ Word.alignUp free ∨ entry.offset.isResolved = true ∨ Word.alignUp free = 0 ∨
    Word.size ≤ Word.alignUp free + (sizeOf entry).toNat

/-- What is reported of an entry whose directory cannot be placed. The reasons are tried in the
order of the constructors. -/
inductive Fault (sizeOf : Entry → UInt32) (free : Nat) (entry : Entry) : PoolError → Prop
  | beyond (large : Word.size ≤ Word.alignUp free) :
      Fault sizeOf free entry (.offsetOverflow entry.type)
  | taken {current attempted : UInt32} (exactly : attempted.toNat = Word.alignUp free)
      (held : entry.offset.get? = some current) :
      Fault sizeOf free entry
        (.slot (.alreadyAssigned .annotationDirectoryOffset current attempted))
  | reserved (fresh : entry.offset.get? = none) (zero : Word.alignUp free = 0) :
      Fault sizeOf free entry (.slot (.sentinelValue .annotationDirectoryOffset noOffset))
  | overrun (small : Word.alignUp free < Word.size) (fresh : entry.offset.get? = none)
      (positive : 0 < Word.alignUp free)
      (large : Word.size ≤ Word.alignUp free + (sizeOf entry).toNat) :
      Fault sizeOf free entry (.offsetOverflow entry.type)

theorem Fault.blocked {free : Nat} (fault : Fault sizeOf free entry failure) :
    Blocked sizeOf free entry := by
  cases fault with
  | beyond large => exact .inl large
  | taken _ held => exact .inr (.inl (Option.isSome_iff_exists.2 ⟨_, held⟩))
  | reserved _ zero => exact .inr (.inr (.inl zero))
  | overrun _ _ _ large => exact .inr (.inr (.inr large))

theorem Blocked.exists_fault {free : Nat} (blocked : Blocked sizeOf free entry) :
    ∃ failure, Fault sizeOf free entry failure := by
  by_cases small : Word.alignUp free < Word.size
  · cases held : entry.offset.get? with
    | some current =>
        obtain ⟨attempted, exactly⟩ := Word.exists_toNat_eq small
        exact ⟨_, .taken exactly held⟩
    | none =>
        rcases blocked with large | resolved | zero | large
        · exact absurd small (Nat.not_lt.2 large)
        · rw [Slot.isResolved, held] at resolved
          cases resolved
        · exact ⟨_, .reserved held zero⟩
        · rcases Nat.eq_zero_or_pos (Word.alignUp free) with zero | positive
          · exact ⟨_, .reserved held zero⟩
          · exact ⟨_, .overrun small held positive large⟩
  · exact ⟨_, .beyond (Nat.le_of_not_lt small)⟩

theorem Fault.unique {free : Nat} (first : Fault sizeOf free entry cause)
    (second : Fault sizeOf free entry failure) : cause = failure := by
  have room : 0 < Word.size := by decide
  cases first with
  | beyond large =>
      cases second with
      | beyond => rfl
      | taken exactly => exact absurd (exactly ▸ UInt32.toNat_lt _) (Nat.not_lt.2 large)
      | reserved _ zero => omega
      | overrun => rfl
  | @taken current attempted exactly held =>
      cases second with
      | beyond large => exact absurd (exactly ▸ UInt32.toNat_lt _) (Nat.not_lt.2 large)
      | taken same known =>
          cases held.symm.trans known
          rw [UInt32.toNat_inj.1 (exactly.trans same.symm)]
      | reserved fresh => cases held.symm.trans fresh
      | overrun _ fresh => cases held.symm.trans fresh
  | reserved fresh zero =>
      cases second with
      | beyond large => omega
      | taken _ held => cases fresh.symm.trans held
      | reserved => rfl
      | overrun _ _ positive => omega
  | overrun small fresh positive =>
      cases second with
      | beyond => rfl
      | taken _ held => cases fresh.symm.trans held
      | reserved _ zero => omega
      | overrun => rfl

structure FirstFault (sizeOf : Entry → UInt32) (start : Nat) (holders : List Entry)
    (position : Nat) (failure : PoolError) : Prop where
  fault : ∃ entry, holders[position]? = some entry ∧
    Fault sizeOf (freeAt sizeOf start holders position) entry failure
  clear : ∀ earlier < position, ∀ entry, holders[earlier]? = some entry →
    ¬ Blocked sizeOf (freeAt sizeOf start holders earlier) entry

theorem exists_firstFault_cons_of_fault {start : Nat} (found : Fault sizeOf start entry cause) :
    (∃ position, FirstFault sizeOf start (entry :: rest) position failure) ↔ cause = failure := by
  constructor
  · rintro ⟨position, ⟨_, at_position, fault⟩, clear⟩
    cases position with
    | zero =>
        cases at_position
        exact found.unique fault
    | succ position => exact absurd found.blocked (clear 0 position.succ_pos entry rfl)
  · rintro rfl
    exact ⟨0, ⟨entry, rfl, found⟩, fun _ before => absurd before (Nat.not_lt_zero _)⟩

theorem exists_firstFault_cons_of_clear {start : Nat} (unblocked : ¬ Blocked sizeOf start entry) :
    (∃ position, FirstFault sizeOf start (entry :: rest) position failure) ↔
      ∃ position,
        FirstFault sizeOf (Word.alignUp start + (sizeOf entry).toNat) rest position failure := by
  constructor
  · rintro ⟨position, ⟨_, listed, fault⟩, clear⟩
    cases position with
    | zero =>
        cases listed
        exact absurd fault.blocked unblocked
    | succ position =>
        exact ⟨position, ⟨_, listed, fault⟩, fun earlier before =>
          clear (earlier + 1) (Nat.succ_lt_succ before)⟩
  · rintro ⟨position, ⟨found, listed, fault⟩, clear⟩
    refine ⟨position + 1, ⟨found, listed, fault⟩, ?_⟩
    intro earlier before other known
    cases earlier with
    | zero =>
        cases known
        exact unblocked
    | succ earlier => exact clear earlier (Nat.lt_of_succ_lt_succ before) other known

theorem planOffsets_eq_error_iff {start : UInt32} :
    planOffsets sizeOf start entries = .error failure ↔ ∃ position, FirstFault sizeOf start.toNat
      (entries.filter fun entry => entry.hasDirectory) position failure := by
  fun_induction planOffsets sizeOf start entries with
  | case1 =>
      simp only [reduceCtorEq, false_iff, not_exists]
      rintro position ⟨⟨entry, listed, _⟩, _⟩
      cases listed
  | case2 start entry rest needed overflow =>
      rw [List.filter_cons, if_pos needed,
        exists_firstFault_cons_of_fault (.beyond (Word.size_le_alignUp overflow)),
        Except.error.injEq]
  | case3 start entry rest needed aligned rounded current held =>
      have exactly := Word.checkedAlign_eq_some_iff.1 rounded
      rw [List.filter_cons, if_pos needed,
        exists_firstFault_cons_of_fault (.taken exactly held), Except.error.injEq]
  | case4 start entry rest needed fresh rounded =>
      have exactly := Word.checkedAlign_eq_some_iff.1 rounded
      rw [List.filter_cons, if_pos needed,
        exists_firstFault_cons_of_fault (.reserved fresh exactly.symm), Except.error.injEq]
  | case5 start entry rest needed aligned rounded fresh nonzero overflow =>
      have exactly := Word.checkedAlign_eq_some_iff.1 rounded
      have large := Word.checkedAdd_eq_none_iff.1 overflow
      have positive : 0 < aligned.toNat :=
        Nat.pos_of_ne_zero fun zero => nonzero (UInt32.toNat_inj.1 zero)
      have fault : Fault sizeOf start.toNat entry (.offsetOverflow entry.type) :=
        .overrun (exactly ▸ aligned.toNat_lt) fresh (exactly ▸ positive) (exactly ▸ large)
      rw [List.filter_cons, if_pos needed, exists_firstFault_cons_of_fault fault,
        Except.error.injEq]
  | case6 start entry rest needed aligned rounded fresh nonzero next sum ih =>
      have exactly := Word.checkedAlign_eq_some_iff.1 rounded
      have total := Word.checkedAdd_eq_some_iff.1 sum
      have unblocked : ¬ Blocked sizeOf start.toNat entry := by
        rw [Blocked, ← exactly, ← total, Slot.isResolved, fresh]
        rintro (large | resolved | zero | large)
        · exact Nat.not_lt.2 large aligned.toNat_lt
        · cases resolved
        · exact nonzero (UInt32.toNat_inj.1 zero)
        · exact Nat.not_lt.2 large next.toNat_lt
      rw [List.filter_cons, if_pos needed, exists_firstFault_cons_of_clear unblocked, ← exactly,
        ← total, ← ih, Outcome.bind_eq_error_iff]
      refine or_iff_left ?_
      rintro ⟨_, _, listed⟩
      cases listed
  | case7 start entry rest spared ih => rw [List.filter_cons, if_neg spared, ih]

theorem exists_firstFault_iff {start : Nat} :
    (∃ failure position, FirstFault sizeOf start holders position failure) ↔
      ∃ position entry, holders[position]? = some entry ∧
        Blocked sizeOf (freeAt sizeOf start holders position) entry := by
  constructor
  · rintro ⟨failure, position, ⟨entry, listed, fault⟩, _⟩
    exact ⟨position, entry, listed, fault.blocked⟩
  · rintro ⟨position, entry, listed, blocked⟩
    induction holders generalizing start position with
    | nil => cases listed
    | cons first rest ih =>
        by_cases here : Blocked sizeOf start first
        · obtain ⟨failure, fault⟩ := here.exists_fault
          exact ⟨failure, (exists_firstFault_cons_of_fault fault).2 rfl⟩
        · cases position with
          | zero =>
              cases listed
              exact absurd blocked here
          | succ position =>
              obtain ⟨failure, later⟩ := ih position listed blocked
              exact ⟨failure, (exists_firstFault_cons_of_clear here).2 later⟩

/-- The offset that is reserved comes up only where the layout starts there. -/
theorem FirstFault.start_of_sentinel {start position : Nat} {kind : SlotKind} {value : UInt32}
    (first : FirstFault sizeOf start holders position (.slot (.sentinelValue kind value))) :
    position = 0 ∧ start = 0 := by
  obtain ⟨⟨entry, listed, fault⟩, clear⟩ := first
  cases fault with
  | reserved _ zero =>
      refine ⟨?_, start_eq_zero_of_alignUp zero⟩
      cases position with
      | zero => rfl
      | succ position =>
          have inside : position < holders.length :=
            Nat.lt_of_succ_lt (List.getElem?_eq_some_iff.1 listed).1
          have before := List.getElem?_eq_getElem inside
          have behind := freeAt_succ sizeOf start before
          have rounded := Word.le_alignUp (freeAt sizeOf start holders (position + 1))
          have last : Word.alignUp (freeAt sizeOf start holders position) = 0 := by omega
          exact absurd (.inr (.inr (.inl last))) (clear position position.lt_succ_self _ before)

theorem overflow_of_planOffsets {start : UInt32}
    (failed : planOffsets sizeOf start entries = .error failure) (positive : 0 < start.toNat)
    (unplaced : ∀ entry ∈ entries, entry.offset.get? = none) :
    (∃ type, failure = .offsetOverflow type) ∧
      Word.size ≤ layoutEnd start.toNat (sizesOf sizeOf entries) := by
  obtain ⟨position, ⟨⟨entry, listed, fault⟩, _⟩⟩ := planOffsets_eq_error_iff.1 failed
  have member := (List.mem_filter.1 (List.mem_of_getElem? listed)).1
  have bound := freeAt_le_layoutEnd sizeOf start.toNat
    (entries.filter fun entry => entry.hasDirectory) (position + 1)
  rw [freeAt_succ _ _ listed] at bound
  cases fault with
  | beyond large =>
      exact ⟨⟨entry.type, rfl⟩, (large.trans (Nat.le_add_right _ _)).trans bound⟩
  | taken _ held => cases (unplaced entry member).symm.trans held
  | reserved _ zero => exact absurd (start_eq_zero_of_alignUp zero) (Nat.ne_of_gt positive)
  | overrun _ _ _ large => exact ⟨⟨entry.type, rfl⟩, large.trans bound⟩

structure Queued (pool : Pool) (holders : List Entry) : Prop where
  perm : holders.Perm (pool.toList.filter fun entry => entry.hasDirectory)
  ordered : holders.Pairwise Precedes

theorem queued_of_byIndex (sorted : pool.byIndex = .ok entries) :
    Queued pool (entries.filter fun entry => entry.hasDirectory) where
  perm := (perm_of_byIndex sorted).filter _
  ordered := (pairwise_precedes_byIndex sorted).filter _

theorem Queued.iff (queued : Queued pool holders) (others : List Entry) :
    Queued pool others ↔ others = holders := by
  constructor
  · intro same
    exact (same.perm.trans queued.perm.symm).eq_of_pairwise
      (fun _ _ _ _ forward backward => absurd backward forward.asymm) same.ordered queued.ordered
  · rintro rfl
    exact queued

theorem assignOffsets_eq_error_iff {start : UInt32} (sorted : pool.byIndex = .ok entries) :
    (pool.assignOffsets start sizeOf).result = .error failure ↔
      ∃ position, FirstFault sizeOf start.toNat
        (entries.filter fun entry => entry.hasDirectory) position failure := by
  rw [← planOffsets_eq_error_iff]
  cases planned : planOffsets sizeOf start entries with
  | error cause =>
      rw [assignOffsets_of_unplanned sorted planned, Except.error.injEq, Except.error.injEq]
  | ok found =>
      have success := (assignOffsets_of_plan sorted planned).1
      simp only [success, reduceCtorEq]

/-- What becomes of placing the directories. While a class has no index, the lowest such type is
reported. Otherwise the placing fails where the layout in natural numbers puts a directory that
cannot be placed, and the first such directory is reported. -/
theorem assignOffsets_outcome (pool : Pool) (start : UInt32) (sizeOf : Entry → UInt32) :
    let result := (pool.assignOffsets start sizeOf).result
    ((∃ entry ∈ pool.toList, entry.index.get? = none) →
      ∃ type, pool.FirstUnindexed type ∧ result = .error (.indexUnassigned type)) ∧
    ((∀ entry ∈ pool.toList, ∃ index, entry.index.get? = some index) →
      ∃ holders, (∀ others, pool.Queued others ↔ others = holders) ∧
        ((∃ failure, result = .error failure) ↔
          ∃ position entry, holders[position]? = some entry ∧
            Blocked sizeOf (freeAt sizeOf start.toNat holders position) entry) ∧
        (∀ failure, result = .error failure ↔
          ∃ position, FirstFault sizeOf start.toNat holders position failure) ∧
        ∀ position kind value,
          FirstFault sizeOf start.toNat holders position (.slot (.sentinelValue kind value)) →
            position = 0 ∧ start = 0) := by
  intro result
  constructor
  · rintro ⟨entry, pooled, unindexed⟩
    obtain ⟨type, missing, lowest⟩ := byIndex_of_unindexed pooled unindexed
    exact ⟨type, lowest, congrArg Pass.result (assignOffsets_of_unindexed missing)⟩
  · intro indexed
    obtain ⟨entries, sorted⟩ := exists_byIndex indexed
    have reported : ∀ failure, result = .error failure ↔
        ∃ position, FirstFault sizeOf start.toNat
          (entries.filter fun entry => entry.hasDirectory) position failure :=
      fun failure => assignOffsets_eq_error_iff sorted
    refine ⟨_, (queued_of_byIndex sorted).iff, ?_, reported, ?_⟩
    · simp only [reported, exists_firstFault_iff]
    · intro position kind value first
      obtain ⟨head, zero⟩ := first.start_of_sentinel
      exact ⟨head, UInt32.toNat_inj.1 zero⟩

def unnumbered : Pool :=
  ⟨.singleton ({ type := ⟨"La;"⟩, flags := .none } : Draft).build⟩

/-- The second of two directories ends behind the last word; without an index none is placed. -/
theorem tagged_overrun :
    ((∀ entry ∈ tagged.toList, ∃ index, entry.index.get? = some index) ∧
      (tagged.assignOffsets 0xFFFFFFF0 fun _ => 10).result = .error (.offsetOverflow ⟨"Lc;"⟩) ∧
      ∃ holders position, tagged.Queued holders ∧
        FirstFault (fun _ => 10) 0xFFFFFFF0 holders position (.offsetOverflow ⟨"Lc;"⟩)) ∧
    (∃ entry ∈ unnumbered.toList, entry.index.get? = none) ∧
      ∃ type, unnumbered.FirstUnindexed type ∧
        (unnumbered.assignOffsets 0xFFFFFFF0 fun _ => 10).result =
          .error (.indexUnassigned type) := by
  have resolved : (tagged.toList.all fun entry => entry.index.isResolved) = true := by cbv
  have indexed : ∀ entry ∈ tagged.toList, ∃ index, entry.index.get? = some index :=
    fun entry pooled => Option.isSome_iff_exists.1 (List.all_eq_true.1 resolved entry pooled)
  have result : (tagged.assignOffsets 0xFFFFFFF0 fun _ => 10).result =
      .error (.offsetOverflow ⟨"Lc;"⟩) := by cbv
  have unindexed : ∃ entry ∈ unnumbered.toList, entry.index.get? = none :=
    ⟨_, List.mem_singleton_self _, rfl⟩
  obtain ⟨holders, queued, _, reported, _⟩ :=
    (assignOffsets_outcome tagged 0xFFFFFFF0 fun _ => 10).2 indexed
  obtain ⟨position, first⟩ := (reported _).1 result
  exact ⟨⟨indexed, result, holders, position, (queued holders).2 rfl, first⟩, unindexed,
    (assignOffsets_outcome unnumbered 0xFFFFFFF0 fun _ => 10).1 unindexed⟩

end ClassTable.Pool
