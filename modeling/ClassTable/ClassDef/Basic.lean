import ClassTable.Constant
import ClassTable.Member
import ClassTable.Slot
import ClassTable.SortedSet

/-!
Class definitions in canonical form. The members of a definition are sorted and never change; an
entry adds the two addresses that the layout passes assign. Entries are ordered, like types, by the
descriptor of the class alone.
-/

namespace ClassTable

structure ClassDef where
  type : Descriptor
  flags : AccessFlags
  superclass : Option Descriptor
  interfaces : List Descriptor
  sourceFile : Option String
  annotations : Annotations
  staticFields : SortedSet Field
  instanceFields : SortedSet Field
  directMethods : SortedSet Method
  virtualMethods : SortedSet Method
  staticValues : Option (List Constant)

namespace ClassDef

def allFields (definition : ClassDef) : SortedSet Field :=
  definition.staticFields.merged definition.instanceFields

def allMethods (definition : ClassDef) : SortedSet Method :=
  definition.directMethods.merged definition.virtualMethods

def supertypes (definition : ClassDef) : List Descriptor :=
  definition.superclass.toList ++ definition.interfaces

def hasDirectory (definition : ClassDef) : Bool :=
  !definition.annotations.isEmpty ||
    definition.staticFields.toList.any Field.isAnnotated ||
    definition.instanceFields.toList.any Field.isAnnotated ||
    definition.directMethods.toList.any Method.isAnnotated ||
    definition.virtualMethods.toList.any Method.isAnnotated

def annotatedMembers (definition : ClassDef) : Nat :=
  definition.allFields.toList.countP Field.isAnnotated +
    definition.allMethods.toList.countP Method.isAnnotated

/-- The bytes of a directory with the given number of member records: eight for each record and a
header of sixteen, unless some number on the way is more than a word can say. -/
def directoryBytes? (records : Nat) : Option UInt32 := do
  let count ← Word.ofNat? records
  let bytes ← Word.checkedMul count 8
  Word.checkedAdd bytes 16

def directoryBytes (records : Nat) : UInt32 :=
  (directoryBytes? records).getD (UInt32.ofNatLT (Word.size - 1) (by decide))

def directorySize (definition : ClassDef) : UInt32 :=
  directoryBytes definition.annotatedMembers

end ClassDef

structure Entry extends ClassDef where
  index : Slot .classDefIndex := {}
  offset : Slot .annotationDirectoryOffset := {}

namespace Entry

instance : Ord Entry := ⟨compareOn fun entry => entry.type⟩

instance : Std.TransOrd Entry :=
  inferInstanceAs (Std.TransCmp (compareOn fun entry : Entry => entry.type))

instance : BEq Entry := ⟨fun left right => left.type == right.type⟩

theorem compare_def (left right : Entry) : compare left right = compare left.type right.type :=
  rfl

def assign (entry : Entry) : SlotKind → UInt32 → Except SlotError Entry
  | .classDefIndex, value => do
    let index ← entry.index.assign value
    return { entry with index }
  | .annotationDirectoryOffset, value => do
    let offset ← entry.offset.assign value
    return { entry with offset }

end Entry

end ClassTable
