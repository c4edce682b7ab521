import ClassTable.Description.Basic
import ClassTable.Json.Format
import ClassTable.Json.Writer
import ClassTable.Slot

/-!
The types whose values are written as JSON and read back. Each says which JSON value stands for a
value, and which value, if any, a JSON value stands for.
-/

namespace ClassTable

open Format (required optional)

class JsonModel (α : Type) where
  encode : α → Json
  decode? : Json → Option α

namespace JsonModel

def write {α : Type} [JsonModel α] (value : α) : String :=
  (encode value).compact

def read? {α : Type} [JsonModel α] (text : String) : Option α :=
  (Json.ofString? text).bind decode?

instance : JsonModel String where
  encode := Json.string
  decode? := Json.text?

instance : JsonModel Descriptor where
  encode type := Json.string type.text
  decode? value := Descriptor.mk <$> value.text?

instance {α : Type} [JsonModel α] : JsonModel (List α) where
  encode := Json.ofList encode
  decode? := Json.format.list? decode?

instance {α : Type} [JsonModel α] : JsonModel (Option α) where
  encode := Json.ofOption encode
  decode? := Json.format.option? decode?

instance : JsonModel AccessFlags where
  encode flags := Json.nat flags.bits.toNat
  decode? value := AccessFlags.mk <$> value.word?

instance : JsonModel Prototype where
  encode prototype :=
    .record [("parameters", encode prototype.parameters),
      ("return_type", encode prototype.returnType)]
  decode? value := do
    let members ← value.members? ["parameters", "return_type"]
    let parameters ← required members "parameters" decode?
    let returnType ← required members "return_type" decode?
    return { parameters, returnType }

instance : JsonModel Constant where
  encode
    | .null => .record [("kind", .string "null")]
    | .boolean value => .record [("kind", .string "boolean"), ("value", .bool value)]
    | .int value => .record [("kind", .string "int"), ("value", .int value.toInt)]
    | .long value => .record [("kind", .string "long"), ("value", .int value.toInt)]
    | .string value => .record [("kind", .string "string"), ("value", .string value)]
    | .type value => .record [("kind", .string "type"), ("value", .string value.text)]
  decode? := Json.constant?

instance : JsonModel Field where
  encode field :=
    .record [("defining_class", encode field.definingClass), ("name", encode field.name),
      ("field_type", encode field.type), ("access_flags", encode field.flags),
      ("annotations", encode field.annotations)]
  decode? value := do
    let members ← value.members?
      ["defining_class", "name", "field_type", "access_flags", "annotations"]
    let definingClass ← required members "defining_class" decode?
    let name ← required members "name" decode?
    let type ← required members "field_type" decode?
    let flags ← required members "access_flags" decode?
    let annotations ← optional members "annotations" [] decode?
    return { definingClass, name, type, flags, annotations }

instance : JsonModel Method where
  encode method :=
    .record [("defining_class", encode method.definingClass), ("name", encode method.name),
      ("proto", encode method.prototype), ("access_flags", encode method.flags),
      ("annotations", encode method.annotations)]
  decode? value := do
    let members ← value.members?
      ["defining_class", "name", "proto", "access_flags", "annotations"]
    let definingClass ← required members "defining_class" decode?
    let name ← required members "name" decode?
    let prototype ← required members "proto" decode?
    let flags ← required members "access_flags" decode?
    let annotations ← optional members "annotations" [] decode?
    return { definingClass, name, prototype, flags, annotations }

instance : JsonModel SlotKind where
  encode kind := .string kind.name
  decode? value := do
    match ← value.plainCase? with
    | "class_def_index" => some .classDefIndex
    | "annotation_directory_offset" => some .annotationDirectoryOffset
    | _ => none

instance : JsonModel SlotState where
  encode
    | .unresolved => .string "unresolved"
    | .resolved value => .record [("resolved", .nat value.toNat)]
  decode? value := do
    match ← value.case? with
    | ("unresolved", .null) => some .unresolved
    | ("resolved", content) => .resolved <$> content.word?
    | _ => none

instance : JsonModel FieldDescription where
  encode field :=
    .record [("name", encode field.name), ("type", encode field.type),
      ("access", encode field.access), ("annotations", encode field.annotations)]
  decode? := FieldDescription.read Json.format

instance : JsonModel MethodDescription where
  encode method :=
    .record [("name", encode method.name), ("params", encode method.parameters),
      ("return", encode method.returnType), ("access", encode method.access),
      ("annotations", encode method.annotations)]
  decode? := MethodDescription.read Json.format

instance : JsonModel ClassDescription where
  encode description :=
    .record [("type", encode description.type), ("access", encode description.access),
      ("superclass", encode description.superclass),
      ("interfaces", encode description.interfaces),
      ("source_file", encode description.sourceFile),
      ("annotations", encode description.annotations), ("fields", encode description.fields),
      ("methods", encode description.methods),
      ("static_values", encode description.staticValues)]
  decode? := ClassDescription.read Json.format

instance : JsonModel FileDescription where
  encode file := .record [("classes", encode file.classes)]
  decode? := FileDescription.read Json.format

end JsonModel

end ClassTable
