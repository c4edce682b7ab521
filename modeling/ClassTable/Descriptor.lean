/-!
Type descriptors and method prototypes, with the order in which the container lists them: types by
text, prototypes by return type and then by parameters. Each says what it feeds to a hash function,
so that equal values feed the same.
-/

namespace ClassTable

inductive HashItem where
  | text (content : String)
  | length (count : Nat)
  deriving DecidableEq, Hashable

/-- A type by its descriptor, such as `Lcom/example/Foo;`, `I` or `[J`. -/
structure Descriptor where
  text : String
  deriving DecidableEq, Repr

namespace Descriptor

instance : Ord Descriptor := ⟨compareOn Descriptor.text⟩

instance : Std.TransOrd Descriptor :=
  inferInstanceAs (Std.TransCmp (compareOn Descriptor.text))

instance : Std.LawfulEqOrd Descriptor where
  eq_of_compare := by
    intro left right equal
    have same : left.text = right.text := Std.LawfulEqOrd.eq_of_compare equal
    cases left; cases right; simp_all

def hashItems (type : Descriptor) : List HashItem :=
  [.text type.text]

instance : Hashable Descriptor := ⟨fun type => hash type.hashItems⟩

end Descriptor

structure Prototype where
  parameters : List Descriptor
  returnType : Descriptor
  deriving DecidableEq, Repr

namespace Prototype

instance : Ord Prototype := ⟨compareLex (compareOn returnType) (compareOn parameters)⟩

instance : Std.TransOrd Prototype :=
  inferInstanceAs (Std.TransCmp (compareLex (compareOn returnType) (compareOn parameters)))

instance : Std.LawfulEqOrd Prototype where
  eq_of_compare := by
    intro left right equal
    have both : (compare left.returnType right.returnType).then
        (compare left.parameters right.parameters) = .eq := equal
    rw [Ordering.then_eq_eq] at both
    cases left; cases right
    simp_all [Std.LawfulEqCmp.compare_eq_iff_eq]

def hashItems (prototype : Prototype) : List HashItem :=
  .length prototype.parameters.length ::
    prototype.parameters.flatMap Descriptor.hashItems ++ prototype.returnType.hashItems

instance : Hashable Prototype := ⟨fun prototype => hash prototype.hashItems⟩

def render (prototype : Prototype) : String :=
  "(" ++ String.join (prototype.parameters.map Descriptor.text) ++ ")" ++ prototype.returnType.text

end Prototype

end ClassTable
