import ClassTable.ClassDef.Draft
import ClassTable.Pool.Indexing
import ClassTable.Proofs.DepthFirst
import ClassTable.Proofs.Writing
import Mathlib.Data.List.Permutation

/-!
The numbering of the classes of a pool: which order it takes, what it writes, and when it fails.
-/

namespace ClassTable.Pool

variable {pool : Pool} {order : List Descriptor} {plan : List (Descriptor × UInt32)}

def Extends (pool : Pool) (type supertype : Descriptor) : Prop :=
  supertype ∈ pool.types ∧ ∃ entry ∈ pool.toList, entry.type = type ∧
    (entry.superclass = some supertype ∨ supertype ∈ entry.interfaces)

def OnCycle (pool : Pool) (type : Descriptor) : Prop :=
  Relation.TransGen pool.Extends type type

/-- The depth-first order of the pooled types, supertypes first: types are visited in their order,
and for each its superclass and then its interfaces before it is listed. -/
def DepthFirst (pool : Pool) (order : List Descriptor) : Prop :=
  Precedence.Emits pool.types pool.supertypes pool.types [] order

def FirstIndexed (pool : Pool) (order before : List Descriptor) (current : UInt32) : Prop :=
  ∃ type after, order = before ++ type :: after ∧
    (∀ earlier ∈ before, pool.index? earlier = none) ∧ pool.index? type = some current

theorem edge_eq_extends : Precedence.Edge pool.types pool.supertypes = pool.Extends := by
  funext type supertype
  rw [eq_iff_iff]
  constructor
  · rintro ⟨typeKnown, named, supertypeKnown⟩
    obtain ⟨entry, found⟩ := mem_types_iff.1 typeKnown
    obtain ⟨pooled, typed⟩ := get?_eq_some_iff.1 found
    refine ⟨supertypeKnown, entry, pooled, typed, ?_⟩
    simpa [supertypes, found, ClassDef.supertypes] using named
  · rintro ⟨supertypeKnown, entry, pooled, rfl, named⟩
    have found := get?_type pooled
    refine ⟨mem_types_iff.2 ⟨entry, found⟩, ?_, supertypeKnown⟩
    simpa [supertypes, found, ClassDef.supertypes] using named

theorem index?_type {entry : Entry} (pooled : entry ∈ pool.toList) :
    pool.index? entry.type = entry.index.get? := by
  rw [index?, get?_type pooled, Option.bind_some]

theorem index?_of_unindexed (unindexed : ∀ entry ∈ pool.toList, entry.index.get? = none)
    (type : Descriptor) : pool.index? type = none := by
  rw [index?, Option.bind_eq_none_iff]
  exact fun entry found => unindexed entry (get?_eq_some_iff.1 found).1

theorem supertypes_eq (pool : Pool) (type : Descriptor) :
    pool.supertypes type = ((pool.definition? type).map ClassDef.supertypes).getD [] := by
  rw [supertypes, definition?]
  cases pool.get? type <;> rfl

theorem extends_of_definition? {other : Pool} (types : other.types = pool.types)
    (definitions : other.definition? = pool.definition?) : other.Extends = pool.Extends := by
  have supertypes : other.supertypes = pool.supertypes := by
    funext type
    rw [supertypes_eq, supertypes_eq, definitions]
  rw [← edge_eq_extends, ← edge_eq_extends, types, supertypes]

theorem precedence_eq_ok_iff :
    pool.precedence = .ok order ↔ Precedence.order pool.types pool.supertypes = .ok order := by
  rw [precedence]
  cases Precedence.order pool.types pool.supertypes <;> simp [Except.mapError]

theorem precedence_eq_error_iff {failure : PoolError} : pool.precedence = .error failure ↔
    ∃ type, Precedence.order pool.types pool.supertypes = .error type ∧
      failure = .hierarchyCycle type := by
  rw [precedence]
  cases Precedence.order pool.types pool.supertypes <;> simp [Except.mapError, eq_comm]

theorem depthFirst_of_precedence (sorted : pool.precedence = .ok order) : pool.DepthFirst order :=
  Precedence.emits_of_extend (precedence_eq_ok_iff.1 sorted)

theorem topological_of_precedence (sorted : pool.precedence = .ok order) :
    Precedence.Topological pool.types pool.supertypes order :=
  Precedence.topological_of_order (precedence_eq_ok_iff.1 sorted)

theorem perm_of_precedence (sorted : pool.precedence = .ok order) : order.Perm pool.types :=
  Precedence.perm_of_order pool.nodup_types (precedence_eq_ok_iff.1 sorted)

theorem length_of_precedence (sorted : pool.precedence = .ok order) :
    order.length = pool.size :=
  (perm_of_precedence sorted).length_eq.trans pool.length_types

theorem planIndices_cons_eq_ok_iff {position : Nat} {type : Descriptor} {rest : List Descriptor} :
    pool.planIndices position (type :: rest) = .ok plan ↔
      ∃ index later, index.toNat = position ∧ pool.index? type = none ∧
        pool.planIndices (position + 1) rest = .ok later ∧ plan = (type, index) :: later := by
  rw [planIndices]
  constructor
  · intro planned
    split at planned
    · cases planned
    · next index numeral =>
        split at planned
        · cases planned
        · next free =>
            obtain ⟨later, restPlanned, rfl⟩ := Outcome.map_eq_ok_iff.1 planned
            exact ⟨index, later, Word.ofNat?_eq_some_iff.1 numeral, free, restPlanned, rfl⟩
  · rintro ⟨index, later, place, free, restPlanned, rfl⟩
    rw [Word.ofNat?_eq_some_iff.2 place]
    simp only [free]
    exact Outcome.map_eq_ok_iff.2 ⟨later, restPlanned, rfl⟩

theorem planIndices_eq_ok_iff {position : Nat} : pool.planIndices position order = .ok plan ↔
    plan.map Prod.fst = order ∧
      plan.map (fun address => address.2.toNat) = List.range' position order.length ∧
      ∀ type ∈ order, pool.index? type = none := by
  induction order generalizing position plan with
  | nil => cases plan <;> simp [planIndices]
  | cons type rest ih =>
      rw [planIndices_cons_eq_ok_iff, List.length_cons, List.range'_succ]
      constructor
      · rintro ⟨index, later, place, free, planned, rfl⟩
        obtain ⟨types, numbers, others⟩ := ih.1 planned
        exact ⟨by simp [types], by simp [numbers, place], List.forall_mem_cons.2 ⟨free, others⟩⟩
      · rintro ⟨types, numbers, free⟩
        cases plan with
        | nil => cases types
        | cons address later =>
            obtain ⟨rfl, restTypes⟩ := List.cons.inj types
            obtain ⟨place, restNumbers⟩ := List.cons.inj numbers
            obtain ⟨first, others⟩ := List.forall_mem_cons.1 free
            have planned := ih.2 ⟨restTypes, restNumbers, others⟩
            exact ⟨address.2, later, place, first, planned, rfl⟩

theorem exists_planIndices {position : Nat} (fits : position + order.length ≤ Word.size)
    (free : ∀ type ∈ order, pool.index? type = none) :
    ∃ plan, pool.planIndices position order = .ok plan := by
  induction order generalizing position with
  | nil => exact ⟨[], rfl⟩
  | cons type rest ih =>
      rw [List.length_cons] at fits
      obtain ⟨first, others⟩ := List.forall_mem_cons.1 free
      have restFits : position + 1 + rest.length ≤ Word.size := by omega
      obtain ⟨later, planned⟩ := ih restFits others
      obtain ⟨index, place⟩ := Word.exists_toNat_eq (show position < Word.size by omega)
      exact ⟨_, planIndices_cons_eq_ok_iff.2 ⟨index, later, place, first, planned, rfl⟩⟩

theorem planIndices_of_firstIndexed {position : Nat} {before : List Descriptor}
    {current attempted : UInt32} (first : pool.FirstIndexed order before current)
    (place : attempted.toNat = position + before.length) : pool.planIndices position order =
      .error (.slot (.alreadyAssigned .classDefIndex current attempted)) := by
  obtain ⟨type, after, rfl, free, taken⟩ := first
  induction before generalizing position with
  | nil =>
      have numeral : Word.ofNat? position = some attempted := Word.ofNat?_eq_some_iff.2 place
      simp [planIndices, numeral, taken]
  | cons earlier before ih =>
      rw [List.length_cons] at place
      have bound : attempted.toNat < Word.size := attempted.toNat_lt
      obtain ⟨index, indexPlace⟩ := Word.exists_toNat_eq (show position < Word.size by omega)
      obtain ⟨first, others⟩ := List.forall_mem_cons.1 free
      have restPlace : attempted.toNat = position + 1 + before.length := by omega
      have stopped := ih restPlace others
      rw [List.cons_append, planIndices, Word.ofNat?_eq_some_iff.2 indexPlace]
      simp only [first, stopped]
      rfl

theorem exists_firstIndexed {type : Descriptor} (member : type ∈ order)
    (taken : pool.index? type ≠ none) :
    ∃ before current, pool.FirstIndexed order before current := by
  induction order with
  | nil => cases member
  | cons first rest ih =>
      cases outcome : pool.index? first with
      | some current => exact ⟨[], current, first, rest, rfl, by simp, outcome⟩
      | none =>
          have later : type ∈ rest := by
            rcases List.mem_cons.1 member with rfl | later
            · exact absurd outcome taken
            · exact later
          obtain ⟨before, current, found, after, rfl, free, indexed⟩ := ih later
          exact ⟨first :: before, current, found, after, rfl,
            List.forall_mem_cons.2 ⟨outcome, free⟩, indexed⟩

theorem writable_of_planIndices {position : Nat} (unique : order.Nodup)
    (planned : pool.planIndices position order = .ok plan) :
    Writable .classDefIndex plan pool := by
  obtain ⟨types, _, free⟩ := planIndices_eq_ok_iff.1 planned
  refine ⟨types ▸ unique, ?_, fun _ _ => rfl⟩
  intro address member entry found
  have unnumbered := free address.1 (types ▸ List.mem_map_of_mem member)
  rw [index?, found] at unnumbered
  exact unnumbered

theorem assignIndices_of_cycle {failure : PoolError} (cyclic : pool.precedence = .error failure) :
    pool.assignIndices = ⟨.error failure, pool, []⟩ := by
  rw [assignIndices, cyclic]

theorem assignIndices_of_taken {failure : PoolError} (sorted : pool.precedence = .ok order)
    (taken : pool.planIndices 0 order = .error failure) :
    pool.assignIndices = ⟨.error failure, pool, []⟩ := by
  rw [assignIndices, sorted]
  simp only [taken]

theorem assignIndices_of_plan (sorted : pool.precedence = .ok order)
    (planned : pool.planIndices 0 order = .ok plan) :
    pool.assignIndices.result = .ok order ∧
      pool.assignIndices.pool = placeAll .classDefIndex plan pool := by
  have writable := writable_of_planIndices (topological_of_precedence sorted).unique planned
  obtain ⟨written, placed⟩ := write_of_writable writable
  simp only [assignIndices, sorted, planned, written, placed, and_self]

/-- The numbering fails without a change, or has a plan and writes all of it. -/
theorem assignIndices_cases (pool : Pool) :
    (∃ failure, pool.assignIndices = ⟨.error failure, pool, []⟩) ∨
      ∃ order plan, pool.precedence = .ok order ∧ pool.planIndices 0 order = .ok plan ∧
        pool.assignIndices.result = .ok order ∧
        pool.assignIndices.pool = placeAll .classDefIndex plan pool := by
  cases sorted : pool.precedence with
  | error failure => exact .inl ⟨failure, assignIndices_of_cycle sorted⟩
  | ok order =>
      cases planned : pool.planIndices 0 order with
      | error failure => exact .inl ⟨failure, assignIndices_of_taken sorted planned⟩
      | ok plan => exact .inr ⟨order, plan, rfl, planned, assignIndices_of_plan sorted planned⟩

structure Numbered (pool : Pool) (order : List Descriptor) (numbered : Pool) : Prop where
  unique : order.Nodup
  complete : ∀ type, type ∈ order ↔ type ∈ pool.types
  sameTypes : numbered.types = pool.types
  /-- The class at a place of the order has got that place as its index, and no other change. -/
  placed : ∀ (position : Nat) (type : Descriptor), order[position]? = some type →
    ∃ entry index, pool.get? type = some entry ∧ index.toNat = position ∧
      numbered.get? type = some { entry with index := ⟨.resolved index⟩ }
  total : ∀ type ∈ pool.types, ∃ index, numbered.index? type = some index ∧ index.toNat < pool.size
  /-- Every number below the number of classes is the index of one class. -/
  onto : ∀ position < pool.size,
    ∃! type, ∃ index, numbered.index? type = some index ∧ index.toNat = position
  above : ∀ type supertype, pool.Extends type supertype → ∃ higher lower,
    numbered.index? type = some higher ∧ numbered.index? supertype = some lower ∧ lower < higher

theorem Numbered.entry {numbered : Pool} (done : Numbered pool order numbered) {type : Descriptor}
    {entry : Entry} (found : numbered.get? type = some entry) :
    ∃ old index, pool.get? type = some old ∧ entry = { old with index := ⟨.resolved index⟩ } := by
  have pooled : type ∈ pool.types := done.sameTypes ▸ mem_types_iff.2 ⟨entry, found⟩
  obtain ⟨position, inside, place⟩ := List.mem_iff_getElem.1 ((done.complete type).2 pooled)
  obtain ⟨old, index, known, _, kept⟩ :=
    done.placed position type (List.getElem?_eq_some_iff.2 ⟨inside, place⟩)
  rw [found] at kept
  exact ⟨old, index, known, Option.some.inj kept⟩

theorem Numbered.unplaced {numbered : Pool} (done : Numbered pool order numbered)
    (unplaced : ∀ entry ∈ pool.toList, entry.offset.get? = none) :
    ∀ entry ∈ numbered.toList, entry.offset.get? = none := by
  intro entry pooled
  obtain ⟨old, index, known, rfl⟩ := done.entry (get?_type pooled)
  exact unplaced old (get?_eq_some_iff.1 known).1

theorem mem_plan_iff {type : Descriptor} {index : UInt32}
    (planned : pool.planIndices 0 order = .ok plan) :
    (type, index) ∈ plan ↔ order[index.toNat]? = some type := by
  obtain ⟨types, numbers, _⟩ := planIndices_eq_ok_iff.1 planned
  have number : ∀ (place : Nat) (inside : place < plan.length), plan[place].2.toNat = place := by
    intro place inside
    have short : place < order.length := by rw [← types]; simpa using inside
    have numbered := congrArg (fun found => found[place]?) numbers
    simpa [inside, short] using numbered
  constructor
  · intro member
    obtain ⟨place, inside, entry⟩ := List.mem_iff_getElem.1 member
    have same : index.toNat = place := by rw [← number place inside, entry]
    rw [same, ← types]
    simp [inside, entry]
  · intro found
    rw [← types, List.getElem?_map, Option.map_eq_some_iff] at found
    obtain ⟨address, place, rfl⟩ := found
    obtain ⟨inside, entry⟩ := List.getElem?_eq_some_iff.1 place
    have same : address.2 = index := UInt32.toNat_inj.1 (by rw [← entry, number])
    rw [← same]
    exact List.mem_of_getElem? place

theorem get?_of_place {type : Descriptor} {index : UInt32} (sorted : pool.precedence = .ok order)
    (planned : pool.planIndices 0 order = .ok plan) (place : order[index.toNat]? = some type) :
    ∃ entry, pool.get? type = some entry ∧ (placeAll .classDefIndex plan pool).get? type =
      some { entry with index := ⟨.resolved index⟩ } := by
  have unique := (topological_of_precedence sorted).unique
  have distinct := (writable_of_planIndices unique planned).distinct
  obtain ⟨entry, known⟩ := mem_types_iff.1
    ((perm_of_precedence sorted).subset (List.mem_of_getElem? place))
  refine ⟨entry, known, ?_⟩
  rw [get?_placeAll_of_mem distinct ((mem_plan_iff planned).2 place), known]
  rfl

theorem index?_placeAll_iff {type : Descriptor} {index : UInt32}
    (sorted : pool.precedence = .ok order) (planned : pool.planIndices 0 order = .ok plan) :
    (placeAll .classDefIndex plan pool).index? type = some index ↔
      order[index.toNat]? = some type := by
  have types := (planIndices_eq_ok_iff.1 planned).1
  constructor
  · intro found
    obtain ⟨entry, after, _⟩ := Option.bind_eq_some_iff.1 found
    have pooled : type ∈ pool.types := by
      rw [← types_placeAll plan pool]
      exact mem_types_iff.2 ⟨entry, after⟩
    have member := (perm_of_precedence sorted).symm.subset pooled
    rw [← types] at member
    obtain ⟨address, listed, rfl⟩ := List.mem_map.1 member
    have place := (mem_plan_iff planned).1 listed
    obtain ⟨_, _, kept⟩ := get?_of_place sorted planned place
    rw [index?, kept] at found
    have same : address.2 = index := Option.some.inj found
    rw [← same]
    exact place
  · intro place
    obtain ⟨_, _, kept⟩ := get?_of_place sorted planned place
    rw [index?, kept]
    rfl

theorem exists_index_of_place {type : Descriptor} {position : Nat}
    (sorted : pool.precedence = .ok order) (planned : pool.planIndices 0 order = .ok plan)
    (place : order[position]? = some type) : ∃ index, index.toNat = position ∧
      (placeAll .classDefIndex plan pool).index? type = some index := by
  obtain ⟨types, numbers, _⟩ := planIndices_eq_ok_iff.1 planned
  obtain ⟨inside, _⟩ := List.getElem?_eq_some_iff.1 place
  have listed : position ∈ plan.map fun address => address.2.toNat := by
    rw [numbers]
    exact List.mem_range'_1.2 ⟨Nat.zero_le _, by omega⟩
  obtain ⟨address, _, rfl⟩ := List.mem_map.1 listed
  exact ⟨address.2, rfl, (index?_placeAll_iff sorted planned).2 place⟩

theorem exists_index_of_mem {type : Descriptor} (sorted : pool.precedence = .ok order)
    (planned : pool.planIndices 0 order = .ok plan) (pooled : type ∈ pool.types) :
    ∃ index, index.toNat = order.idxOf type ∧
      (placeAll .classDefIndex plan pool).index? type = some index := by
  have inside := List.idxOf_lt_length_iff.2 ((perm_of_precedence sorted).symm.subset pooled)
  exact exists_index_of_place sorted planned
    (List.getElem?_eq_some_iff.2 ⟨inside, List.getElem_idxOf inside⟩)

theorem numbered_of_plan (sorted : pool.precedence = .ok order)
    (planned : pool.planIndices 0 order = .ok plan) :
    Numbered pool order (placeAll .classDefIndex plan pool) where
  unique := (topological_of_precedence sorted).unique
  complete := fun _ => (perm_of_precedence sorted).mem_iff
  sameTypes := types_placeAll plan pool
  placed := by
    intro position type place
    obtain ⟨index, rfl, _⟩ := exists_index_of_place sorted planned place
    obtain ⟨entry, known, kept⟩ := get?_of_place sorted planned place
    exact ⟨entry, index, known, rfl, kept⟩
  total := by
    intro type pooled
    obtain ⟨index, place, indexed⟩ := exists_index_of_mem sorted planned pooled
    refine ⟨index, indexed, ?_⟩
    rw [place, ← length_of_precedence sorted]
    exact List.idxOf_lt_length_iff.2 ((perm_of_precedence sorted).symm.subset pooled)
  onto := by
    intro position small
    have inside : position < order.length := by
      rw [length_of_precedence sorted]
      exact small
    obtain ⟨index, rfl, indexed⟩ := exists_index_of_place sorted planned
      (List.getElem?_eq_getElem inside)
    refine ⟨order[index.toNat], ⟨index, indexed, rfl⟩, ?_⟩
    rintro other ⟨otherIndex, otherIndexed, same⟩
    have place := (index?_placeAll_iff sorted planned).1 otherIndexed
    rw [same, List.getElem?_eq_getElem inside] at place
    exact (Option.some.inj place).symm
  above := by
    intro type supertype extended
    have edge : Precedence.Edge pool.types pool.supertypes type supertype := by
      rw [edge_eq_extends]
      exact extended
    have behind := (topological_of_precedence sorted).behind type
      ((perm_of_precedence sorted).symm.subset edge.1) supertype edge
    obtain ⟨higher, higherPlace, higherIndexed⟩ := exists_index_of_mem sorted planned edge.1
    obtain ⟨lower, lowerPlace, lowerIndexed⟩ := exists_index_of_mem sorted planned edge.2.2
    refine ⟨higher, lower, higherIndexed, lowerIndexed, ?_⟩
    rw [UInt32.lt_iff_toNat_lt, higherPlace, lowerPlace]
    exact behind

/-- A numbering that succeeds numbers the pool by the order that it gives. -/
theorem assignIndices_numbered (success : pool.assignIndices.result = .ok order) :
    Numbered pool order pool.assignIndices.pool := by
  rcases pool.assignIndices_cases with
    ⟨failure, failed⟩ | ⟨found, plan, sorted, planned, result, placed⟩
  · rw [failed] at success
    cases success
  · rw [result] at success
    cases success
    rw [placed]
    exact numbered_of_plan sorted planned

def diamond : Pool :=
  let bottom : Draft :=
    { type := ⟨"La;"⟩, flags := .none, superclass := some ⟨"Lc;"⟩,
      interfaces := [⟨"Lb;"⟩, ⟨"Lc;"⟩] }
  let left : Draft := { type := ⟨"Lb;"⟩, flags := .none, superclass := some ⟨"Ld;"⟩ }
  let right : Draft := { type := ⟨"Lc;"⟩, flags := .none, superclass := some ⟨"Ld;"⟩ }
  let top : Draft :=
    { type := ⟨"Ld;"⟩, flags := .none, superclass := some ⟨"Ljava/lang/Object;"⟩ }
  ⟨.ofList ([bottom, left, right, top].map Draft.build)⟩

theorem diamond_numbered :
    diamond.assignIndices.result = .ok [⟨"Ld;"⟩, ⟨"Lc;"⟩, ⟨"Lb;"⟩, ⟨"La;"⟩] ∧
      Numbered diamond [⟨"Ld;"⟩, ⟨"Lc;"⟩, ⟨"Lb;"⟩, ⟨"La;"⟩] diamond.assignIndices.pool :=
  ⟨by cbv, assignIndices_numbered (by cbv)⟩

theorem FirstIndexed.exists_number {before : List Descriptor} {current : UInt32}
    (first : pool.FirstIndexed order before current) (fits : order.length ≤ Word.size) :
    ∃ attempted : UInt32, attempted.toNat = before.length := by
  obtain ⟨type, after, rfl, _⟩ := first
  rw [List.length_append, List.length_cons] at fits
  exact Word.exists_toNat_eq (by omega)

theorem assignIndices_of_firstIndexed {before : List Descriptor} {current attempted : UInt32}
    (sorted : pool.precedence = .ok order) (first : pool.FirstIndexed order before current)
    (place : attempted.toNat = before.length) : pool.assignIndices.result =
      .error (.slot (.alreadyAssigned .classDefIndex current attempted)) := by
  have placeFromZero : attempted.toNat = 0 + before.length := by omega
  rw [assignIndices_of_taken sorted (planIndices_of_firstIndexed first placeFromZero)]

theorem assignIndices_of_precedence (sorted : pool.precedence = .ok order)
    (fits : order.length ≤ Word.size) :
    ((∀ type ∈ order, pool.index? type = none) ∧ pool.assignIndices.result = .ok order) ∨
      ∃ before current attempted, pool.FirstIndexed order before current ∧
        attempted.toNat = before.length ∧ pool.assignIndices.result =
          .error (.slot (.alreadyAssigned .classDefIndex current attempted)) := by
  by_cases free : ∀ type ∈ order, pool.index? type = none
  · have fitsFromZero : 0 + order.length ≤ Word.size := by omega
    obtain ⟨plan, planned⟩ := exists_planIndices fitsFromZero free
    exact .inl ⟨free, (assignIndices_of_plan sorted planned).1⟩
  · simp only [not_forall] at free
    obtain ⟨type, member, taken⟩ := free
    obtain ⟨before, current, first⟩ := exists_firstIndexed member taken
    obtain ⟨attempted, place⟩ := first.exists_number fits
    exact .inr ⟨before, current, attempted, first, place,
      assignIndices_of_firstIndexed sorted first place⟩

theorem result_eq_alreadyAssigned_iff {current attempted : UInt32}
    (sorted : pool.precedence = .ok order) (fits : order.length ≤ Word.size) :
    pool.assignIndices.result =
        .error (.slot (.alreadyAssigned .classDefIndex current attempted)) ↔
      ∃ before, pool.FirstIndexed order before current ∧ attempted.toNat = before.length := by
  constructor
  · intro failed
    rcases assignIndices_of_precedence sorted fits with
      ⟨_, success⟩ | ⟨before, found, number, first, place, taken⟩
    · rw [success] at failed
      cases failed
    · rw [taken] at failed
      cases failed
      exact ⟨before, first, place⟩
  · rintro ⟨before, first, place⟩
    exact assignIndices_of_firstIndexed sorted first place

theorem result_eq_hierarchyCycle_iff {type : Descriptor} (fits : pool.size ≤ Word.size) :
    pool.assignIndices.result = .error (.hierarchyCycle type) ↔
      Precedence.order pool.types pool.supertypes = .error type := by
  constructor
  · intro failed
    cases sorted : pool.precedence with
    | error failure =>
        obtain ⟨closing, cyclic, rfl⟩ := precedence_eq_error_iff.1 sorted
        rw [assignIndices_of_cycle sorted] at failed
        cases failed
        exact cyclic
    | ok order =>
        have short : order.length ≤ Word.size := by
          rw [length_of_precedence sorted]
          exact fits
        rcases assignIndices_of_precedence sorted short with
          ⟨_, success⟩ | ⟨_, _, _, _, _, taken⟩
        · rw [success] at failed
          cases failed
        · rw [taken] at failed
          cases failed
  · intro cyclic
    rw [assignIndices_of_cycle (precedence_eq_error_iff.2 ⟨type, cyclic, rfl⟩)]

theorem exists_isResolved_iff : (∃ entry ∈ pool.toList, entry.index.isResolved = true) ↔
    ∃ type ∈ pool.types, ∃ current, pool.index? type = some current := by
  constructor
  · rintro ⟨entry, pooled, resolved⟩
    obtain ⟨current, assigned⟩ := Option.isSome_iff_exists.1 resolved
    refine ⟨entry.type, mem_types_iff.2 ⟨entry, get?_type pooled⟩, current, ?_⟩
    rw [index?_type pooled]
    exact assigned
  · rintro ⟨type, _, current, indexed⟩
    obtain ⟨entry, found, assigned⟩ := Option.bind_eq_some_iff.1 indexed
    exact ⟨entry, (get?_eq_some_iff.1 found).1, Option.isSome_iff_exists.2 ⟨current, assigned⟩⟩

theorem exists_alreadyAssigned_iff (sorted : pool.precedence = .ok order)
    (fits : order.length ≤ Word.size) :
    (∃ current attempted, pool.assignIndices.result =
        .error (.slot (.alreadyAssigned .classDefIndex current attempted))) ↔
      ∃ entry ∈ pool.toList, entry.index.isResolved = true := by
  rw [exists_isResolved_iff]
  constructor
  · rintro ⟨current, attempted, failed⟩
    obtain ⟨before, ⟨type, after, split, _, taken⟩, _⟩ :=
      (result_eq_alreadyAssigned_iff sorted fits).1 failed
    have member : type ∈ order := by simp [split]
    exact ⟨type, (perm_of_precedence sorted).subset member, current, taken⟩
  · rintro ⟨type, pooled, current, taken⟩
    have indexed : pool.index? type ≠ none := by simp [taken]
    obtain ⟨before, found, first⟩ :=
      exists_firstIndexed ((perm_of_precedence sorted).symm.subset pooled) indexed
    obtain ⟨attempted, place⟩ := first.exists_number fits
    exact ⟨found, attempted, assignIndices_of_firstIndexed sorted first place⟩

theorem result_eq_ok_of_unresolved (sorted : pool.precedence = .ok order)
    (fits : order.length ≤ Word.size)
    (unresolved : ∀ entry ∈ pool.toList, entry.index.isResolved = false) :
    pool.assignIndices.result = .ok order := by
  rcases assignIndices_of_precedence sorted fits with
    ⟨_, success⟩ | ⟨before, current, attempted, _, _, failed⟩
  · exact success
  · obtain ⟨entry, pooled, resolved⟩ :=
      (exists_alreadyAssigned_iff sorted fits).1 ⟨current, attempted, failed⟩
    rw [unresolved entry pooled] at resolved
    cases resolved

theorem exists_cycle_iff : (∃ type, Precedence.order pool.types pool.supertypes = .error type) ↔
    ∃ type, pool.OnCycle type := by
  rw [Precedence.exists_error_order_iff, edge_eq_extends]
  rfl

/-- The numbering fails for a cycle exactly where there is one, and then names a type that lies on
one. Without a cycle it fails exactly where a class has an index already, and then tells of the
first such class in the depth-first order; in all other cases it succeeds. -/
theorem assignIndices_outcome (pool : Pool) (fits : pool.size < Word.size) :
    ((∃ type, pool.assignIndices.result = .error (.hierarchyCycle type)) ↔
      ∃ type, pool.OnCycle type) ∧
    (∀ type, pool.assignIndices.result = .error (.hierarchyCycle type) →
      type ∈ pool.types ∧ pool.OnCycle type) ∧
    ((∀ type, ¬ pool.OnCycle type) → ∃ order, pool.DepthFirst order ∧
      (∀ other, pool.DepthFirst other → other = order) ∧
      ((∃ current attempted, pool.assignIndices.result =
          .error (.slot (.alreadyAssigned .classDefIndex current attempted))) ↔
        ∃ entry ∈ pool.toList, entry.index.isResolved = true) ∧
      (∀ current attempted, pool.assignIndices.result =
          .error (.slot (.alreadyAssigned .classDefIndex current attempted)) ↔
        ∃ before, pool.FirstIndexed order before current ∧ attempted.toNat = before.length) ∧
      ((∀ entry ∈ pool.toList, entry.index.isResolved = false) →
        pool.assignIndices.result = .ok order)) := by
  have failing : ∀ type, pool.assignIndices.result = .error (.hierarchyCycle type) ↔
      Precedence.order pool.types pool.supertypes = .error type :=
    fun _ => result_eq_hierarchyCycle_iff (Nat.le_of_lt fits)
  refine ⟨by simp only [failing, exists_cycle_iff], ?_, ?_⟩
  · intro type failed
    have cycle := Precedence.cycle_of_order ((failing type).1 failed)
    rw [edge_eq_extends] at cycle
    obtain ⟨_, _, last⟩ := Relation.TransGen.tail'_iff.1 cycle
    exact ⟨last.1, cycle⟩
  · intro acyclic
    cases sorted : pool.precedence with
    | error failure =>
        obtain ⟨type, failed, _⟩ := precedence_eq_error_iff.1 sorted
        obtain ⟨node, cycle⟩ := exists_cycle_iff.1 ⟨type, failed⟩
        exact absurd cycle (acyclic node)
    | ok order =>
        have short : order.length ≤ Word.size := by
          rw [(perm_of_precedence sorted).length_eq, length_types]
          exact Nat.le_of_lt fits
        have listed := depthFirst_of_precedence sorted
        exact ⟨order, listed, fun other otherListed => otherListed.unique listed,
          exists_alreadyAssigned_iff sorted short,
          fun current attempted => result_eq_alreadyAssigned_iff sorted short,
          result_eq_ok_of_unresolved sorted short⟩

def twisted : Pool :=
  let outside : Draft := { type := ⟨"La;"⟩, flags := .none, superclass := some ⟨"Lb;"⟩ }
  let first : Draft := { type := ⟨"Lb;"⟩, flags := .none, superclass := some ⟨"Lc;"⟩ }
  let second : Draft := { type := ⟨"Lc;"⟩, flags := .none, interfaces := [⟨"Lb;"⟩] }
  ⟨.ofList ([outside, first, second].map Draft.build)⟩

/-- A cycle that a class outside it leads to, and a diamond that is numbered twice. -/
theorem failures_of_twisted_and_diamond :
    (twisted.size < Word.size ∧
      twisted.assignIndices.result = .error (.hierarchyCycle ⟨"Lb;"⟩) ∧ twisted.OnCycle ⟨"Lb;"⟩) ∧
    (diamond.assignIndices.pool.size < Word.size ∧
      diamond.assignIndices.pool.assignIndices.result =
        .error (.slot (.alreadyAssigned .classDefIndex 0 0)) ∧
      ∃ order, diamond.assignIndices.pool.DepthFirst order ∧
        diamond.assignIndices.pool.FirstIndexed order [] 0) := by
  refine ⟨⟨by cbv, by cbv, ?_⟩, by cbv, by cbv, ?_⟩
  · exact ((assignIndices_outcome twisted (by cbv)).2.1 ⟨"Lb;"⟩ (by cbv)).2
  · have outcome := assignIndices_outcome diamond.assignIndices.pool (by cbv)
    have taken : diamond.assignIndices.pool.assignIndices.result =
        .error (.slot (.alreadyAssigned .classDefIndex 0 0)) := by cbv
    have acyclic : ∀ type, ¬ diamond.assignIndices.pool.OnCycle type := by
      intro type cycle
      obtain ⟨closing, failed⟩ := outcome.1.2 ⟨type, cycle⟩
      rw [taken] at failed
      cases failed
    obtain ⟨order, listed, _, _, named, _⟩ := outcome.2.2 acyclic
    obtain ⟨before, first, place⟩ := (named 0 0).1 taken
    have empty := List.length_eq_zero_iff.1 place.symm
    rw [empty] at first
    exact ⟨order, listed, first⟩

end ClassTable.Pool
