import ClassTable.Proofs.Describing
import ClassTable.Proofs.Faults

/-!
The class definition table of a file. What its rows say, when there is one, and why there is none
otherwise. The table depends on the described classes alone, not on the order in which they are
described.
-/

namespace ClassTable

namespace Pool

variable {pool after : Pool} {order : List Descriptor} {entries : List Entry}
  {sizeOf : Entry → UInt32} {base : UInt32}

def directorySizes (pool : Pool) (order : List Descriptor) : List Nat :=
  ((order.filterMap pool.definition?).filter fun definition => definition.hasDirectory).map
    fun definition => definition.directorySize.toNat

theorem sizesOf_eq_directorySizes (pooled : ∀ entry ∈ entries, entry ∈ pool.toList) :
    sizesOf (fun entry => entry.directorySize) entries =
      pool.directorySizes (entries.map fun entry => entry.type) := by
  induction entries with
  | nil => rfl
  | cons entry rest ih =>
      obtain ⟨first, others⟩ := List.forall_mem_cons.1 pooled
      rw [sizesOf_cons, ih others, directorySizes, directorySizes, List.map_cons,
        List.filterMap_cons_some (definition?_type first), List.filter_cons]
      split <;> rfl

/-! Both passes, on a pool without any address. -/

theorem numbered_of_unindexed (sorted : pool.precedence = .ok order)
    (unindexed : ∀ entry ∈ pool.toList, entry.index.get? = none) (fits : pool.size ≤ Word.size) :
    pool.assignIndices.result = .ok order ∧ Numbered pool order pool.assignIndices.pool ∧
      pool.assignIndices.pool.definition? = pool.definition? := by
  have short : 0 + order.length ≤ Word.size := by
    rw [Nat.zero_add, length_of_precedence sorted]
    exact fits
  obtain ⟨plan, planned⟩ := exists_planIndices short fun type _ => index?_of_unindexed unindexed type
  obtain ⟨success, written⟩ := assignIndices_of_plan sorted planned
  rw [written]
  exact ⟨success, numbered_of_plan sorted planned, definition?_placeAll plan pool⟩

theorem Placed.ranked {start stop : Nat} {placed : List (Entry × UInt32)}
    (done : Placed sizeOf start stop pool placed after) (ranked : Ranked pool order) :
    Ranked after order where
  perm := done.sameTypes ▸ ranked.perm
  place := by
    intro position type found
    rw [done.sameIndices]
    exact ranked.place position type found

theorem Placed.isSome_offset {start stop : Nat} {placed : List (Entry × UInt32)}
    (done : Placed sizeOf start stop pool placed after)
    (unplaced : ∀ entry ∈ pool.toList, entry.offset.get? = none) :
    ∀ entry ∈ after.toList, entry.offset.get?.isSome = entry.hasDirectory := by
  intro entry pooled
  obtain ⟨old, known, ⟨offset, member, rfl⟩ | ⟨spared, rfl⟩⟩ := done.entry (get?_type pooled)
  · exact (done.holder member).1.symm
  · rw [unplaced _ (get?_eq_some_iff.1 known).1, spared]
    rfl

theorem placed_of_ranked (ranked : Ranked pool order) (positive : 0 < base.toNat)
    (unplaced : ∀ entry ∈ pool.toList, entry.offset.get? = none) :
    let pass := pool.assignOffsets base fun entry => entry.directorySize
    (∃ type, pass.result = .error (.offsetOverflow type)) ∧
        Word.size ≤ layoutEnd base.toNat (pool.directorySizes order) ∨
      layoutEnd base.toNat (pool.directorySizes order) < Word.size ∧
        pass.pool.definition? = pool.definition? ∧ ∃ stop placed, pass.result = .ok stop ∧
          Placed (fun entry => entry.directorySize) base.toNat stop.toNat pool placed
            pass.pool := by
  intro pass
  obtain ⟨entries, sorted, types⟩ := ranked.types_byIndex
  have pooled : ∀ entry ∈ entries, entry ∈ pool.toList :=
    fun entry member => (perm_of_byIndex sorted).subset member
  rw [← types, ← sizesOf_eq_directorySizes pooled]
  cases planned : planOffsets (fun entry => entry.directorySize) base entries with
  | error failure =>
      obtain ⟨⟨type, rfl⟩, large⟩ := overflow_of_planOffsets planned positive
        fun entry member => unplaced entry (pooled entry member)
      have failed := assignOffsets_of_unplanned sorted planned
      exact .inl ⟨⟨type, congrArg Pass.result failed⟩, large⟩
  | ok found =>
      obtain ⟨plan, stop⟩ := found
      obtain ⟨success, written⟩ := assignOffsets_of_plan sorted planned
      obtain ⟨placed, done⟩ := placed_of_plan sorted planned
      rw [← written] at done
      have definitions : pass.pool.definition? = pool.definition? :=
        (congrArg definition? written).trans (definition?_placeAll plan pool)
      refine .inr ⟨?_, definitions, stop, placed, success, done⟩
      rw [layoutEnd_of_planOffsets planned]
      exact stop.toNat_lt

/-! The rows of the table. -/

theorem row_eq_ok_iff {entry : Entry} {row : TableRow} : entry.row = .ok row ↔
    entry.index.get? = some row.index ∧ row.type = entry.type ∧
      row.superclass = entry.superclass ∧ row.offset = entry.offset.get? := by
  rw [Entry.row, Outcome.bind_eq_ok_iff]
  constructor
  · rintro ⟨index, read, made⟩
    cases made
    exact ⟨Slot.expect_eq_ok_iff.1 read, rfl, rfl, rfl⟩
  · rintro ⟨indexed, typed, extended, placed⟩
    refine ⟨row.index, Slot.expect_eq_ok_iff.2 indexed, ?_⟩
    rw [← typed, ← extended, ← placed]
    rfl

theorem Ranked.exists_rows (ranked : Ranked pool order) :
    ∃ rows, pool.rows = .ok rows ∧ (rows.map fun row => row.type) = order ∧
      ∀ row ∈ rows, ∃ entry ∈ pool.toList, entry.row = .ok row := by
  obtain ⟨entries, sorted, types⟩ := ranked.types_byIndex
  have readable : ∀ entry ∈ entries, ∃ row, entry.row = .ok row := by
    intro entry member
    obtain ⟨index, indexed⟩ := index_of_byIndex sorted entry member
    exact ⟨⟨index, _, _, _⟩, row_eq_ok_iff.2 ⟨indexed, rfl, rfl, rfl⟩⟩
  obtain ⟨rows, read⟩ := Outcome.exists_mapM_eq_ok_iff.2 readable
  have matched := Outcome.mapM_eq_ok_iff.1 read
  refine ⟨rows, ?_, ?_, ?_⟩
  · rw [Pool.rows, sorted]
    simp only [Except.mapError, read, bind, Except.bind]
  · rw [← types]
    refine (Outcome.map_eq_map_of_forall₂ matched ?_).symm
    intro entry row made
    exact (row_eq_ok_iff.1 made).2.1.symm
  · intro row member
    obtain ⟨entry, listed, made⟩ := Outcome.exists_of_mem_right matched member
    exact ⟨entry, (perm_of_byIndex sorted).subset listed, made⟩

structure Tabulates (pool : Pool) (order : List Descriptor) (rows : List TableRow) : Prop where
  types : (rows.map fun row => row.type) = order
  numbers : ∀ (position : Nat) (row : TableRow), rows[position]? = some row →
    row.index.toNat = position
  contents : ∀ row ∈ rows, ∃ definition, pool.definition? row.type = some definition ∧
    row.superclass = definition.superclass ∧ row.offset.isSome = definition.hasDirectory

theorem Ranked.tabulates (ranked : Ranked pool order)
    (placed : ∀ entry ∈ pool.toList, entry.offset.get?.isSome = entry.hasDirectory) :
    ∃ rows, pool.rows = .ok rows ∧ pool.Tabulates order rows := by
  obtain ⟨rows, read, types, made⟩ := ranked.exists_rows
  refine ⟨rows, read, types, ?_, ?_⟩
  · intro position row found
    obtain ⟨entry, pooled, shown⟩ := made row (List.mem_of_getElem? found)
    obtain ⟨indexed, typed, _⟩ := row_eq_ok_iff.1 shown
    have listed : order[position]? = some row.type := by
      rw [← types, List.getElem?_map, found]
      rfl
    obtain ⟨index, known, place⟩ := ranked.place position row.type listed
    rw [typed, index?_type pooled, indexed, Option.some.injEq] at known
    rw [known, place]
  · intro row member
    obtain ⟨entry, pooled, shown⟩ := made row member
    obtain ⟨_, typed, extended, offset⟩ := row_eq_ok_iff.1 shown
    refine ⟨entry.toClassDef, ?_, extended, ?_⟩
    · rw [typed]
      exact definition?_type pooled
    · rw [offset, placed entry pooled]

/-- Where no address is in use, a pool without a cycle comes to a table, unless the directories take
too much room. -/
theorem layOut_of_precedence (sorted : pool.precedence = .ok order)
    (unindexed : ∀ entry ∈ pool.toList, entry.index.get? = none)
    (unplaced : ∀ entry ∈ pool.toList, entry.offset.get? = none) (fits : pool.size ≤ Word.size)
    (positive : 0 < base.toNat) :
    (∃ type, (pool.layOut base).1 = .error (.placing (.offsetOverflow type))) ∧
        Word.size ≤ layoutEnd base.toNat (pool.directorySizes order) ∨
      (∃ rows, (pool.layOut base).1 = .ok rows ∧ pool.Tabulates order rows) ∧
        layoutEnd base.toNat (pool.directorySizes order) < Word.size := by
  obtain ⟨success, done, definitions⟩ := numbered_of_unindexed sorted unindexed fits
  have sizes : pool.assignIndices.pool.directorySizes order = pool.directorySizes order := by
    rw [directorySizes, directorySizes, definitions]
  have outcome := placed_of_ranked done.ranked positive (done.unplaced unplaced)
  rw [sizes] at outcome
  rcases outcome with ⟨⟨type, failed⟩, large⟩ | ⟨small, same, stop, placed, given, packed⟩
  · refine .inl ⟨⟨type, ?_⟩, large⟩
    simp only [layOut, success, failed]
  · obtain ⟨rows, read, tabulated⟩ := (packed.ranked done.ranked).tabulates
      (packed.isSome_offset (done.unplaced unplaced))
    refine .inr ⟨⟨rows, ?_, tabulated.types, tabulated.numbers, ?_⟩, small⟩
    · simp only [layOut, success, given, read]
    · have contents := tabulated.contents
      rw [same, definitions] at contents
      exact contents

theorem layOut_of_cycle {failure : PoolError} (cyclic : pool.precedence = .error failure) :
    (pool.layOut base).1 = .error (.indexing failure) := by
  rw [layOut, assignIndices_of_cycle cyclic]

end Pool

/-- The failures that a file can bring about once it is read: an unknown keyword, a type described
twice, a cycle in the hierarchy and want of room for the directories. -/
inductive Failure.Foreseen : Failure → Prop
  | flags (refusal : InvalidFlags) : Foreseen (.flags refusal)
  | duplicate (type : Descriptor) : Foreseen (.interning type (.duplicateClass type))
  | cycle (type : Descriptor) : Foreseen (.indexing (.hierarchyCycle type))
  | overflow (type : Descriptor) : Foreseen (.placing (.offsetOverflow type))

namespace FileDescription

variable {file left right : FileDescription} {pool : Pool} {order : List Descriptor}
  {rows : List TableRow} {base : UInt32}

def Extends (file : FileDescription) (type supertype : Descriptor) : Prop :=
  supertype ∈ file.classes.map (fun description => description.type) ∧
    ∃ description ∈ file.classes, description.type = type ∧
      (description.superclass = some supertype ∨ supertype ∈ description.interfaces)

def OnCycle (file : FileDescription) (type : Descriptor) : Prop :=
  Relation.TransGen file.Extends type type

structure Tabulable (file : FileDescription) (base : UInt32) : Prop where
  known : ∀ description ∈ file.classes, description.KeywordsKnown
  distinct : (file.classes.map fun description => description.type).Nodup
  acyclic : ∀ type, ¬ file.OnCycle type
  /-- Laid out in the order of the indices, the directories end below the number of words. -/
  roomy : ∃ pool order, file.Pooled pool ∧ pool.DepthFirst order ∧
    Pool.layoutEnd base.toNat (pool.directorySizes order) < Word.size

structure Tabulated (file : FileDescription) (rows : List TableRow) : Prop where
  complete : (rows.map fun row => row.type).Perm
    (file.classes.map fun description => description.type)
  ordered : ∃ pool, file.Pooled pool ∧ pool.DepthFirst (rows.map fun row => row.type)
  numbers : ∀ (position : Nat) (row : TableRow), rows[position]? = some row →
    row.index.toNat = position
  contents : ∀ row ∈ rows, ∃ description ∈ file.classes, ∃ entry, description.Describes entry ∧
    row.type = description.type ∧ row.superclass = description.superclass ∧
      row.offset.isSome = entry.hasDirectory

theorem Pooled.extends_eq (pooled : file.Pooled pool) : pool.Extends = file.Extends := by
  funext type supertype
  rw [Pool.Extends, Extends, pooled.perm_types.mem_iff, eq_iff_iff]
  refine and_congr_right fun _ => ⟨?_, ?_⟩
  · rintro ⟨entry, held, rfl, named⟩
    obtain ⟨description, member, described⟩ := pooled.exists_description held
    have outlined := described.outlines
    rw [outlined.superclass, outlined.interfaces] at named
    exact ⟨description, member, outlined.type.symm, named⟩
  · rintro ⟨description, member, rfl, named⟩
    obtain ⟨entry, held, described⟩ := pooled.exists_entry member
    have outlined := described.outlines
    rw [← outlined.superclass, ← outlined.interfaces] at named
    exact ⟨entry, held, outlined.type, named⟩

theorem Pooled.unique {other : Pool} (pooled : file.Pooled pool) (again : file.Pooled other) :
    other = pool := by
  have added := addAll_eq_ok_iff_pooled.2 pooled
  rw [addAll_eq_ok_iff_pooled.2 again] at added
  exact Except.ok.inj added

theorem Pooled.tabulated (pooled : file.Pooled pool) (sorted : pool.precedence = .ok order)
    (tabulated : pool.Tabulates order rows) : file.Tabulated rows where
  complete := by
    rw [tabulated.types]
    exact (Pool.perm_of_precedence sorted).trans pooled.perm_types
  ordered := ⟨pool, pooled, tabulated.types ▸ Pool.depthFirst_of_precedence sorted⟩
  numbers := tabulated.numbers
  contents := by
    intro row member
    obtain ⟨definition, found, extended, placed⟩ := tabulated.contents row member
    obtain ⟨entry, known, rfl⟩ := Option.map_eq_some_iff.1 found
    obtain ⟨held, typed⟩ := Pool.get?_eq_some_iff.1 known
    obtain ⟨description, listed, described⟩ := pooled.exists_description held
    have outlined := described.outlines
    exact ⟨description, listed, entry, described, typed ▸ outlined.type,
      extended.trans outlined.superclass, placed⟩

theorem layOut_fst : (file.layOut base).1 =
    (Pool.addAll {} file.classes).1 >>= fun pool => (pool.layOut base).1 := by
  rw [layOut]
  rcases Pool.addAll {} file.classes with ⟨failure | pool, events⟩ <;> rfl

theorem layOut_of_pooled (pooled : file.Pooled pool) :
    (file.layOut base).1 = (pool.layOut base).1 := by
  rw [layOut_fst, addAll_eq_ok_iff_pooled.2 pooled]
  rfl

theorem layOut_of_refused {failure : Failure}
    (refused : (Pool.addAll {} file.classes).1 = .error failure) :
    (file.layOut base).1 = .error failure := by
  rw [layOut_fst, refused]
  rfl

theorem Tabulable.exists_pooled (tabulable : file.Tabulable base) : ∃ pool, file.Pooled pool :=
  exists_pooled_iff.2 ⟨tabulable.known, tabulable.distinct⟩

theorem refused_of_unpooled {failure : Failure}
    (refused : (Pool.addAll {} file.classes).1 = .error failure) :
    failure.Foreseen ∧ ¬ file.Tabulable base := by
  constructor
  · rcases Pool.addAll_eq_error refused with ⟨refusal, rfl⟩ | ⟨type, rfl⟩
    · exact .flags refusal
    · exact .duplicate type
  · intro tabulable
    obtain ⟨pool, pooled⟩ := tabulable.exists_pooled
    rw [addAll_eq_ok_iff_pooled.2 pooled] at refused
    cases refused

theorem Pooled.layOut_cases (pooled : file.Pooled pool) (positive : 0 < base.toNat)
    (fits : file.classes.length ≤ Word.size) :
    (∃ failure, (pool.layOut base).1 = .error failure ∧ failure.Foreseen ∧
        ¬ file.Tabulable base) ∨
      ∃ rows, (pool.layOut base).1 = .ok rows ∧ file.Tabulable base ∧ file.Tabulated rows := by
  cases sorted : pool.precedence with
  | error failure =>
      obtain ⟨type, closing, rfl⟩ := Pool.precedence_eq_error_iff.1 sorted
      refine .inl ⟨_, Pool.layOut_of_cycle sorted, .cycle type, fun tabulable => ?_⟩
      obtain ⟨member, cycle⟩ := Pool.exists_cycle_iff.1 ⟨type, closing⟩
      rw [Pool.OnCycle, pooled.extends_eq] at cycle
      exact tabulable.acyclic member cycle
  | ok order =>
      have outlined : ∀ entry ∈ pool.toList,
          entry.index.get? = none ∧ entry.offset.get? = none := by
        intro entry held
        obtain ⟨description, _, described⟩ := pooled.exists_description held
        exact ⟨described.outlines.unindexed, described.outlines.unplaced⟩
      have small : pool.size ≤ Word.size := by
        rw [← Pool.length_types, pooled.perm_types.length_eq, List.length_map]
        exact fits
      rcases Pool.layOut_of_precedence sorted (fun entry held => (outlined entry held).1)
        (fun entry held => (outlined entry held).2) small positive with
        ⟨⟨type, failed⟩, large⟩ | ⟨⟨rows, read, tabulated⟩, roomy⟩
      · refine .inl ⟨_, failed, .overflow type, fun tabulable => ?_⟩
        -- The pool and the order in which there would be room are the ones that were laid out.
        obtain ⟨other, found, again, depthFirst, within⟩ := tabulable.roomy
        cases pooled.unique again
        rw [depthFirst.unique (Pool.depthFirst_of_precedence sorted)] at within
        exact absurd within (Nat.not_lt.2 large)
      · obtain ⟨known, distinct⟩ := exists_pooled_iff.1 ⟨pool, pooled⟩
        refine .inr ⟨rows, read, ⟨known, distinct, ?_, ?_⟩, pooled.tabulated sorted tabulated⟩
        · intro type cycle
          rw [OnCycle, ← pooled.extends_eq] at cycle
          obtain ⟨closing, cyclic⟩ := Pool.exists_cycle_iff.2 ⟨type, cycle⟩
          rw [Pool.precedence_eq_ok_iff.1 sorted] at cyclic
          cases cyclic
        · exact ⟨pool, order, pooled, Pool.depthFirst_of_precedence sorted, roomy⟩

theorem layOut_cases (file : FileDescription) (positive : 0 < base.toNat)
    (fits : file.classes.length ≤ Word.size) :
    (∃ failure, (file.layOut base).1 = .error failure ∧ failure.Foreseen ∧
        ¬ file.Tabulable base) ∨
      ∃ rows, (file.layOut base).1 = .ok rows ∧ file.Tabulable base ∧ file.Tabulated rows := by
  cases outcome : (Pool.addAll {} file.classes).1 with
  | error failure => exact .inl ⟨failure, layOut_of_refused outcome, refused_of_unpooled outcome⟩
  | ok pool =>
      have pooled := addAll_eq_ok_iff_pooled.1 outcome
      rw [layOut_of_pooled pooled]
      exact pooled.layOut_cases positive fits

/-- From a base that is not zero, a file comes to a table exactly where it can: its keywords are
known, its types distinct, its hierarchy without a cycle, and there is room for the directories. The
table shows every described class in one row, and where there is none, one of these four fails. -/
theorem layOut_outcome (file : FileDescription) {base : UInt32} (nonzero : base ≠ 0)
    (fits : file.classes.length < Word.size) :
    (∀ failure, (file.layOut base).1 = .error failure → failure.Foreseen) ∧
    ((∃ rows, (file.layOut base).1 = .ok rows) ↔ file.Tabulable base) ∧
    ∀ rows, (file.layOut base).1 = .ok rows → file.Tabulated rows := by
  have positive : 0 < base.toNat :=
    Nat.pos_of_ne_zero fun zero => nonzero (UInt32.toNat_inj.1 zero)
  rcases file.layOut_cases positive fits.le with
    ⟨failure, failed, foreseen, lacking⟩ | ⟨rows, read, tabulable, tabulated⟩
  · rw [failed]
    refine ⟨?_, ?_, ?_⟩
    · intro other same
      rw [← Except.error.inj same]
      exact foreseen
    · constructor
      · rintro ⟨rows, read⟩
        cases read
      · intro tabulable
        exact absurd tabulable lacking
    · intro rows read
      cases read
  · rw [read]
    refine ⟨?_, ?_, ?_⟩
    · intro failure failed
      cases failed
    · exact ⟨fun _ => tabulable, fun _ => ⟨rows, rfl⟩⟩
    · intro others same
      rw [← Except.ok.inj same]
      exact tabulated

def lineage : FileDescription where
  classes := [
    { type := ⟨"La;"⟩, superclass := some ⟨"Lb;"⟩, annotations := [⟨"LTag;"⟩] },
    { type := ⟨"Lb;"⟩, access := ["public"] },
    { type := ⟨"Lc;"⟩, interfaces := [⟨"La;"⟩],
      methods := [{ name := "run", access := ["final"], annotations := [⟨"LTag;"⟩] }] }]

def lineageTable : List TableRow := [
  { index := 0, type := ⟨"Lb;"⟩, superclass := none, offset := none },
  { index := 1, type := ⟨"La;"⟩, superclass := some ⟨"Lb;"⟩, offset := some 0x104 },
  { index := 2, type := ⟨"Lc;"⟩, superclass := none, offset := some 0x114 }]

def misspeltLineage : FileDescription where
  classes := lineage.classes ++ [{ type := ⟨"Ld;"⟩, access := ["public", "finel"] }]

theorem lineage_tabulated : (0x101 : UInt32) ≠ 0 ∧ lineage.classes.length < Word.size ∧
    (lineage.layOut 0x101).1 = .ok lineageTable ∧ lineage.Tabulable 0x101 ∧
    lineage.Tabulated lineageTable ∧ misspeltLineage.classes.length < Word.size ∧
    (misspeltLineage.layOut 0x101).1 =
      .error (.flags ⟨.classItself ⟨"Ld;"⟩, ⟨"finel"⟩⟩) ∧
    ¬ AccessFlags.IsModifier "finel" ∧ ¬ misspeltLineage.Tabulable 0x101 := by
  have nonzero : (0x101 : UInt32) ≠ 0 := by decide
  have fits : lineage.classes.length < Word.size := by decide
  have read : (lineage.layOut 0x101).1 = .ok lineageTable := by cbv
  obtain ⟨_, tabulable, tabulated⟩ := layOut_outcome lineage nonzero fits
  have fitting : misspeltLineage.classes.length < Word.size := by decide
  have refused : (misspeltLineage.layOut 0x101).1 =
      .error (.flags ⟨.classItself ⟨"Ld;"⟩, ⟨"finel"⟩⟩) := by cbv
  obtain ⟨_, possible, _⟩ := layOut_outcome misspeltLineage nonzero fitting
  have untabulable : ¬ misspeltLineage.Tabulable 0x101 := by
    intro known
    obtain ⟨rows, made⟩ := possible.2 known
    cases refused.symm.trans made
  exact ⟨nonzero, fits, read, tabulable.1 ⟨lineageTable, read⟩, tabulated lineageTable read,
    fitting, refused, by decide, untabulable⟩

/-- The outcome does not depend on the order in which classes of distinct types are described. -/
theorem layOut_of_perm (permuted : left.classes.Perm right.classes)
    (distinct : (left.classes.map fun description => description.type).Nodup)
    (converted : ∀ description ∈ left.classes, ∃ built, description.toEntry = .ok built)
    (base : UInt32) : (left.layOut base).1 = (right.layOut base).1 := by
  have known : ∀ description ∈ left.classes, description.KeywordsKnown := by
    intro description member
    obtain ⟨⟨entry, events⟩, read⟩ := converted description member
    exact ClassDescription.exists_describes_iff.1 ⟨entry, events, read⟩
  obtain ⟨pool, pooled⟩ := exists_pooled_iff.2 ⟨known, distinct⟩
  rw [layOut_of_pooled pooled, layOut_of_pooled (pooled.perm permuted)]

theorem lineage_reversed :
    (lineage.layOut 0x101).1 = (layOut ⟨lineage.classes.reverse⟩ 0x101).1 := by
  have permuted : lineage.classes.Perm lineage.classes.reverse :=
    (List.reverse_perm lineage.classes).symm
  have distinct : (lineage.classes.map fun description => description.type).Nodup := by decide
  have converted : ∀ description ∈ lineage.classes, ∃ built, description.toEntry = .ok built := by
    intro description member
    simp only [lineage, List.mem_cons, List.not_mem_nil, or_false] at member
    rcases member with rfl | rfl | rfl <;> exact ⟨_, rfl⟩
  exact layOut_of_perm permuted distinct converted 0x101

end FileDescription

end ClassTable
