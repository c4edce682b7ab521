import ClassTable.AccessFlags
import ClassTable.Descriptor

/-!
Fields and methods of a class. What identifies a member is its defining class, its name and its type
or prototype; flags and annotations take no part in comparison, equality or hashing. A method is
direct when it is dispatched without looking at the receiver.
-/

namespace ClassTable

abbrev Annotations := List Descriptor

structure Field where
  definingClass : Descriptor
  name : String
  type : Descriptor
  flags : AccessFlags
  annotations : Annotations := []

namespace Field

def identity (field : Field) : Descriptor × String × Descriptor :=
  (field.definingClass, field.name, field.type)

instance : Ord Field :=
  ⟨compareLex (compareOn definingClass) (compareLex (compareOn name) (compareOn type))⟩

instance : Std.TransOrd Field :=
  inferInstanceAs (Std.TransCmp
    (compareLex (compareOn definingClass) (compareLex (compareOn name) (compareOn type))))

instance : BEq Field := ⟨fun left right => left.identity == right.identity⟩

def hashItems (field : Field) : List HashItem :=
  field.definingClass.hashItems ++ .text field.name :: field.type.hashItems

instance : Hashable Field := ⟨fun field => hash field.hashItems⟩

theorem compare_eq_iff {left right : Field} :
    compare left right = .eq ↔ left.identity = right.identity := by
  change ((compare left.definingClass right.definingClass).then
    ((compare left.name right.name).then (compare left.type right.type))) = .eq ↔ _
  simp [identity, Ordering.then_eq_eq, Std.LawfulEqCmp.compare_eq_iff_eq]

theorem beq_iff {left right : Field} :
    (left == right) = true ↔ left.identity = right.identity := by
  change (left.identity == right.identity) = true ↔ _
  exact beq_iff_eq

instance : Std.LawfulBEqOrd Field := ⟨compare_eq_iff.trans beq_iff.symm⟩

def isStatic (field : Field) : Bool :=
  field.flags.contains .staticBit

def isAnnotated (field : Field) : Bool :=
  !field.annotations.isEmpty

theorem isAnnotated_iff {field : Field} : field.isAnnotated = true ↔ field.annotations ≠ [] := by
  simp [isAnnotated]

def render (field : Field) : String :=
  field.definingClass.text ++ "->" ++ field.name ++ ":" ++ field.type.text

end Field

structure Method where
  definingClass : Descriptor
  name : String
  prototype : Prototype
  flags : AccessFlags
  annotations : Annotations := []

namespace Method

def identity (method : Method) : Descriptor × String × Prototype :=
  (method.definingClass, method.name, method.prototype)

instance : Ord Method :=
  ⟨compareLex (compareOn definingClass) (compareLex (compareOn name) (compareOn prototype))⟩

instance : Std.TransOrd Method :=
  inferInstanceAs (Std.TransCmp
    (compareLex (compareOn definingClass) (compareLex (compareOn name) (compareOn prototype))))

instance : BEq Method := ⟨fun left right => left.identity == right.identity⟩

def hashItems (method : Method) : List HashItem :=
  method.definingClass.hashItems ++ .text method.name :: method.prototype.hashItems

instance : Hashable Method := ⟨fun method => hash method.hashItems⟩

theorem compare_eq_iff {left right : Method} :
    compare left right = .eq ↔ left.identity = right.identity := by
  change ((compare left.definingClass right.definingClass).then
    ((compare left.name right.name).then (compare left.prototype right.prototype))) = .eq ↔ _
  simp [identity, Ordering.then_eq_eq, Std.LawfulEqCmp.compare_eq_iff_eq]

theorem beq_iff {left right : Method} :
    (left == right) = true ↔ left.identity = right.identity := by
  change (left.identity == right.identity) = true ↔ _
  exact beq_iff_eq

instance : Std.LawfulBEqOrd Method := ⟨compare_eq_iff.trans beq_iff.symm⟩

def instanceConstructorName : String := "<init>"

def staticConstructorName : String := "<clinit>"

def isConstructor (method : Method) : Bool :=
  method.flags.contains .constructorBit || method.name == instanceConstructorName ||
    method.name == staticConstructorName

def isStatic (method : Method) : Bool :=
  method.flags.contains .staticBit

def isPrivate (method : Method) : Bool :=
  method.flags.contains .privateBit

def isDirect (method : Method) : Bool :=
  method.flags.intersects (.union .staticBit .privateBit) || method.isConstructor

def isVirtual (method : Method) : Bool :=
  !method.isDirect

def isAnnotated (method : Method) : Bool :=
  !method.annotations.isEmpty

theorem isAnnotated_iff {method : Method} :
    method.isAnnotated = true ↔ method.annotations ≠ [] := by
  simp [isAnnotated]

def render (method : Method) : String :=
  method.definingClass.text ++ "->" ++ method.name ++ method.prototype.render

end Method

end ClassTable
