import ClassTable.Numeral

/-!
Addresses that are assigned once. A slot is unresolved until a layout pass writes its value, and
keeps that value afterwards. Where a number is needed before, a sentinel stands in: `-1` for an
index, `0` for an offset, so `0` is never a resolved offset.
-/

namespace ClassTable

inductive SlotKind where
  | classDefIndex
  | annotationDirectoryOffset
  deriving DecidableEq, Repr

def SlotKind.name : SlotKind → String
  | .classDefIndex => "class_def_index"
  | .annotationDirectoryOffset => "annotation_directory_offset"

def noIndex : Int := -1

def noOffset : UInt32 := 0

def SlotKind.sentinel : SlotKind → Int
  | .classDefIndex => noIndex
  | .annotationDirectoryOffset => noOffset.toNat

def SlotKind.admits : SlotKind → UInt32 → Bool
  | .classDefIndex, _ => true
  | .annotationDirectoryOffset, value => value != noOffset

inductive SlotState where
  | unresolved
  | resolved (value : UInt32)
  deriving DecidableEq, Repr

inductive SlotError where
  | alreadyAssigned (slot : SlotKind) (current attempted : UInt32)
  | sentinelValue (slot : SlotKind) (value : UInt32)
  deriving DecidableEq, Repr

def SlotError.message : SlotError → String
  | .alreadyAssigned slot current attempted =>
    slot.name ++ " already assigned to " ++ Numeral.decimal current.toNat ++
      "; refusing to reassign to " ++ Numeral.decimal attempted.toNat
  | .sentinelValue slot value =>
    slot.name ++ " cannot be assigned the sentinel value " ++ Numeral.decimal value.toNat

structure UnassignedRead where
  slot : SlotKind
  deriving DecidableEq, Repr

def UnassignedRead.message (defect : UnassignedRead) : String :=
  defect.slot.name ++ " read before the layout pass assigned it"

structure Slot (kind : SlotKind) where
  state : SlotState := .unresolved
  deriving DecidableEq, Repr

namespace Slot

variable {kind : SlotKind}

def get? (slot : Slot kind) : Option UInt32 :=
  match slot.state with
  | .unresolved => none
  | .resolved value => some value

def isResolved (slot : Slot kind) : Bool :=
  slot.get?.isSome

/-- The slot with its value assigned. A sentinel is refused whatever the slot holds, and any other
value if the slot holds one. -/
def assign (slot : Slot kind) (value : UInt32) : Except SlotError (Slot kind) :=
  if kind.admits value then
    match slot.state with
    | .unresolved => .ok ⟨.resolved value⟩
    | .resolved current => .error (.alreadyAssigned kind current value)
  else .error (.sentinelValue kind value)

def expect (slot : Slot kind) : Except UnassignedRead UInt32 :=
  match slot.state with
  | .unresolved => .error ⟨kind⟩
  | .resolved value => .ok value

def raw (slot : Slot kind) : Int :=
  match slot.state with
  | .unresolved => kind.sentinel
  | .resolved value => value.toNat

theorem get?_eq_none_iff {slot : Slot kind} : slot.get? = none ↔ slot.state = .unresolved := by
  cases slot with | mk state => cases state <;> simp [get?]

theorem get?_eq_some_iff {slot : Slot kind} {value : UInt32} :
    slot.get? = some value ↔ slot.state = .resolved value := by
  cases slot with | mk state => cases state <;> simp [get?]

theorem expect_eq_ok_iff {slot : Slot kind} {value : UInt32} :
    slot.expect = .ok value ↔ slot.get? = some value := by
  cases slot with | mk state => cases state <;> simp [expect, get?]

end Slot

end ClassTable
