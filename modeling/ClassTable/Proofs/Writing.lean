import ClassTable.Proofs.Lookup
import ClassTable.Proofs.Outcome

/-!
Writing planned addresses. A plan is writable when no class occurs in it twice, none has an address
of the kind, and every value is admissible. A writable plan is written to its end.
-/

namespace ClassTable

theorem Slot.assign_eq_ok_iff {kind : SlotKind} {slot assigned : Slot kind} {value : UInt32} :
    slot.assign value = .ok assigned ↔
      kind.admits value = true ∧ slot.get? = none ∧ assigned = ⟨.resolved value⟩ := by
  cases slot with
  | mk state =>
      cases state <;> cases admitted : kind.admits value <;> simp [assign, get?, admitted, eq_comm]

theorem Slot.assign_bind_eq_ok_iff {α : Type} {kind : SlotKind} {slot : Slot kind}
    {value : UInt32} {result : α} (change : Slot kind → α) :
    (slot.assign value >>= fun assigned => .ok (change assigned)) = .ok result ↔
      kind.admits value = true ∧ slot.get? = none ∧ result = change ⟨.resolved value⟩ := by
  rw [Outcome.bind_eq_ok_iff]
  constructor
  · rintro ⟨assigned, written, success⟩
    obtain ⟨admitted, free, rfl⟩ := Slot.assign_eq_ok_iff.1 written
    exact ⟨admitted, free, (Except.ok.inj success).symm⟩
  · rintro ⟨admitted, free, rfl⟩
    exact ⟨_, Slot.assign_eq_ok_iff.2 ⟨admitted, free, rfl⟩, rfl⟩

namespace Entry

def address? (entry : Entry) : SlotKind → Option UInt32
  | .classDefIndex => entry.index.get?
  | .annotationDirectoryOffset => entry.offset.get?

def resolve (entry : Entry) (value : UInt32) : SlotKind → Entry
  | .classDefIndex => { entry with index := ⟨.resolved value⟩ }
  | .annotationDirectoryOffset => { entry with offset := ⟨.resolved value⟩ }

@[simp] theorem type_resolve (entry : Entry) (value : UInt32) (kind : SlotKind) :
    (entry.resolve value kind).type = entry.type := by
  cases kind <;> rfl

@[simp] theorem toClassDef_resolve (entry : Entry) (value : UInt32) (kind : SlotKind) :
    (entry.resolve value kind).toClassDef = entry.toClassDef := by
  cases kind <;> rfl

theorem assign_eq_ok_iff {entry assigned : Entry} {kind : SlotKind} {value : UInt32} :
    entry.assign kind value = .ok assigned ↔
      kind.admits value = true ∧ entry.address? kind = none ∧
        assigned = entry.resolve value kind := by
  cases kind with
  | classDefIndex => exact Slot.assign_bind_eq_ok_iff fun index => { entry with index }
  | annotationDirectoryOffset =>
      exact Slot.assign_bind_eq_ok_iff fun offset => { entry with offset }

end Entry

namespace Pool

variable {kind : SlotKind}

def place (kind : SlotKind) (pool : Pool) (address : Descriptor × UInt32) : Pool :=
  match pool.get? address.1 with
  | none => pool
  | some entry => pool.replace (entry.resolve address.2 kind)

def placeAll (kind : SlotKind) (plan : List (Descriptor × UInt32)) (pool : Pool) : Pool :=
  plan.foldl (place kind) pool

@[simp] theorem types_place (pool : Pool) (address : Descriptor × UInt32) :
    (pool.place kind address).types = pool.types := by
  rw [place]
  split
  · rfl
  · exact types_replace _ _

theorem get?_place (pool : Pool) (address : Descriptor × UInt32) (type : Descriptor) :
    (pool.place kind address).get? type =
      if type = address.1 then (pool.get? type).map fun entry => entry.resolve address.2 kind
      else pool.get? type := by
  rw [place]
  split
  next absent =>
    by_cases same : type = address.1
    · simp [same, absent]
    · simp [same]
  next entry found =>
    have named : entry.type = address.1 := (get?_eq_some_iff.1 found).2
    rw [get?_replace, Entry.type_resolve, named]
    by_cases same : type = address.1
    · simp [same, found]
    · simp [same]

@[simp] theorem types_placeAll (plan : List (Descriptor × UInt32)) (pool : Pool) :
    (placeAll kind plan pool).types = pool.types := by
  induction plan generalizing pool with
  | nil => rfl
  | cons address rest ih => rw [placeAll, List.foldl_cons, ← placeAll, ih, types_place]

theorem get?_placeAll_of_not_mem {plan : List (Descriptor × UInt32)} {type : Descriptor}
    (unplanned : type ∉ plan.map Prod.fst) (pool : Pool) :
    (placeAll kind plan pool).get? type = pool.get? type := by
  induction plan generalizing pool with
  | nil => rfl
  | cons address rest ih =>
      rw [List.map_cons, List.mem_cons, not_or] at unplanned
      rw [placeAll, List.foldl_cons, ← placeAll, ih unplanned.2, get?_place,
        if_neg unplanned.1]

theorem get?_placeAll_of_mem {plan : List (Descriptor × UInt32)} {type : Descriptor}
    {value : UInt32} (distinct : (plan.map Prod.fst).Nodup) (planned : (type, value) ∈ plan)
    (pool : Pool) : (placeAll kind plan pool).get? type =
      (pool.get? type).map fun entry => entry.resolve value kind := by
  induction plan generalizing pool with
  | nil => cases planned
  | cons address rest ih =>
      rw [List.map_cons, List.nodup_cons] at distinct
      rw [placeAll, List.foldl_cons, ← placeAll]
      rcases List.mem_cons.1 planned with rfl | later
      · rw [get?_placeAll_of_not_mem distinct.1, get?_place, if_pos rfl]
      · have other : type ≠ address.1 := by
          rintro rfl
          exact distinct.1 (List.mem_map.2 ⟨_, later, rfl⟩)
        rw [ih distinct.2 later, get?_place, if_neg other]

def definition? (pool : Pool) (type : Descriptor) : Option ClassDef :=
  (pool.get? type).map Entry.toClassDef

theorem definition?_type {pool : Pool} {entry : Entry} (pooled : entry ∈ pool.toList) :
    pool.definition? entry.type = some entry.toClassDef := by
  rw [definition?, get?_type pooled, Option.map_some]

theorem definition?_placeAll (plan : List (Descriptor × UInt32)) (pool : Pool) :
    (placeAll kind plan pool).definition? = pool.definition? := by
  induction plan generalizing pool with
  | nil => rfl
  | cons address rest ih =>
      rw [placeAll, List.foldl_cons, ← placeAll, ih]
      funext type
      rw [definition?, definition?, get?_place]
      split
      · simp [Function.comp_def]
      · rfl

structure Writable (kind : SlotKind) (plan : List (Descriptor × UInt32)) (pool : Pool) : Prop where
  distinct : (plan.map Prod.fst).Nodup
  free : ∀ address ∈ plan, ∀ entry, pool.get? address.1 = some entry → entry.address? kind = none
  admitted : ∀ address ∈ plan, kind.admits address.2 = true

theorem Writable.rest {address : Descriptor × UInt32} {rest : List (Descriptor × UInt32)}
    {pool : Pool} (writable : Writable kind (address :: rest) pool) :
    Writable kind rest (pool.place kind address) where
  distinct := (List.nodup_cons.1 writable.distinct).2
  free := by
    intro later member entry found
    have other : later.1 ≠ address.1 := by
      intro same
      exact (List.nodup_cons.1 writable.distinct).1 (same ▸ List.mem_map_of_mem member)
    rw [get?_place, if_neg other] at found
    exact writable.free later (List.mem_cons_of_mem _ member) entry found
  admitted := fun later member => writable.admitted later (List.mem_cons_of_mem _ member)

theorem write_cons_of_writable {address : Descriptor × UInt32}
    {rest : List (Descriptor × UInt32)} {pool : Pool}
    (writable : Writable kind (address :: rest) pool) :
    (write kind (address :: rest) pool).result =
        (write kind rest (pool.place kind address)).result ∧
      (write kind (address :: rest) pool).pool =
        (write kind rest (pool.place kind address)).pool := by
  obtain ⟨type, value⟩ := address
  cases found : pool.get? type with
  | none => simp [write, place, found]
  | some entry =>
      have free := writable.free _ List.mem_cons_self entry found
      have admitted := writable.admitted _ List.mem_cons_self
      have written := Entry.assign_eq_ok_iff.2 ⟨admitted, free, rfl⟩
      simp [write, place, found, written]

/-- A writable plan is written to its end, and nothing but its addresses is written. -/
theorem write_of_writable {plan : List (Descriptor × UInt32)} {pool : Pool}
    (writable : Writable kind plan pool) :
    (write kind plan pool).result = .ok () ∧
      (write kind plan pool).pool = placeAll kind plan pool := by
  induction plan generalizing pool with
  | nil => exact ⟨rfl, rfl⟩
  | cons address rest ih =>
      obtain ⟨sameResult, samePool⟩ := write_cons_of_writable writable
      obtain ⟨success, placed⟩ := ih writable.rest
      exact ⟨sameResult.trans success, samePool.trans placed⟩

end Pool

end ClassTable
