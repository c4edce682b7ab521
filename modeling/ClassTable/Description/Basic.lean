import ClassTable.Format
import ClassTable.Member

/-!
Descriptions of classes as people write them in documents: members in any order, flags by keyword.
The names of the members of a record are the same in every document format.
-/

namespace ClassTable

structure FieldDescription where
  name : String
  type : Descriptor
  access : List String := []
  annotations : Annotations := []
  deriving DecidableEq

structure MethodDescription where
  name : String
  parameters : List Descriptor := []
  returnType : Descriptor := ⟨"V"⟩
  access : List String := []
  annotations : Annotations := []
  deriving DecidableEq

/-- A class as it is described. The static values belong to the static fields in their canonical
order, not in the order in which the fields are listed. -/
structure ClassDescription where
  type : Descriptor
  access : List String := []
  superclass : Option Descriptor := none
  interfaces : List Descriptor := []
  sourceFile : Option String := none
  annotations : Annotations := []
  fields : List FieldDescription := []
  methods : List MethodDescription := []
  staticValues : Option (List Constant) := none
  deriving DecidableEq

structure FileDescription where
  classes : List ClassDescription
  deriving DecidableEq

variable {m : Type → Type} [Fallible m] {ν : Type}

def Descriptor.read (format : Format m ν) (node : ν) : m Descriptor :=
  Descriptor.mk <$> format.text? node

def Descriptor.readList (format : Format m ν) : ν → m (List Descriptor) :=
  format.list? (Descriptor.read format)

namespace FieldDescription

def memberNames : List String := ["name", "type", "access", "annotations"]

def read (format : Format m ν) (node : ν) : m FieldDescription := do
  let members ← format.members? memberNames node
  let name ← Format.required members "name" format.text?
  let type ← Format.required members "type" (Descriptor.read format)
  let access ← Format.optional members "access" [] (format.list? format.text?)
  let annotations ← Format.optional members "annotations" [] (Descriptor.readList format)
  return { name, type, access, annotations }

end FieldDescription

namespace MethodDescription

def memberNames : List String := ["name", "params", "return", "access", "annotations"]

def read (format : Format m ν) (node : ν) : m MethodDescription := do
  let members ← format.members? memberNames node
  let name ← Format.required members "name" format.text?
  let parameters ← Format.optional members "params" [] (Descriptor.readList format)
  let returnType ← Format.optional members "return" ⟨"V"⟩ (Descriptor.read format)
  let access ← Format.optional members "access" [] (format.list? format.text?)
  let annotations ← Format.optional members "annotations" [] (Descriptor.readList format)
  return { name, parameters, returnType, access, annotations }

end MethodDescription

namespace ClassDescription

def memberNames : List String :=
  ["type", "access", "superclass", "interfaces", "source_file", "annotations", "fields", "methods",
    "static_values"]

def read (format : Format m ν) (node : ν) : m ClassDescription := do
  let members ← format.members? memberNames node
  let type ← Format.required members "type" (Descriptor.read format)
  let access ← Format.optional members "access" [] (format.list? format.text?)
  let superclass ←
    Format.optional members "superclass" none (format.option? (Descriptor.read format))
  let interfaces ← Format.optional members "interfaces" [] (Descriptor.readList format)
  let sourceFile ← Format.optional members "source_file" none (format.option? format.text?)
  let annotations ← Format.optional members "annotations" [] (Descriptor.readList format)
  let fields ← Format.optional members "fields" [] (format.list? (FieldDescription.read format))
  let methods ← Format.optional members "methods" [] (format.list? (MethodDescription.read format))
  let staticValues ←
    Format.optional members "static_values" none
      (format.option? (format.list? format.constant?))
  return {
    type, access, superclass, interfaces, sourceFile, annotations, fields, methods, staticValues }

end ClassDescription

namespace FileDescription

def memberNames : List String := ["classes"]

def read (format : Format m ν) (node : ν) : m FileDescription := do
  let members ← format.members? memberNames node
  let classes ← Format.required members "classes" (format.list? (ClassDescription.read format))
  return { classes }

end FileDescription

end ClassTable
