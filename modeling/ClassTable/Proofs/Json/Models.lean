import ClassTable.Json.Model
import ClassTable.Proofs.Json.Numbers
import ClassTable.Proofs.Json.Values
import Mathlib

/-!
Every value of a model is read back from its text, with everything in it.
-/

namespace ClassTable

namespace Format

variable {m : Type → Type} {ν α : Type}

@[simp] theorem required_here [Alternative m] (name : String) (node : ν)
    (members : List (String × ν)) (read : ν → m α) :
    required ((name, node) :: members) name read = read node := by
  rw [required, List.lookup_cons_self]

@[simp] theorem required_further [Alternative m] {name first : String} (other : name ≠ first)
    (node : ν) (members : List (String × ν)) (read : ν → m α) :
    required ((first, node) :: members) name read = required members name read := by
  have differs : (name == first) = false := beq_false_of_ne other
  rw [required, List.lookup_cons, differs]
  rfl

@[simp] theorem optional_here [Pure m] (name : String) (node : ν) (members : List (String × ν))
    (default : α) (read : ν → m α) :
    optional ((name, node) :: members) name default read = read node := by
  rw [optional, List.lookup_cons_self]

@[simp] theorem optional_further [Pure m] {name first : String} (other : name ≠ first)
    (node : ν) (members : List (String × ν)) (default : α) (read : ν → m α) :
    optional ((first, node) :: members) name default read =
      optional members name default read := by
  have differs : (name == first) = false := beq_false_of_ne other
  rw [optional, List.lookup_cons, differs]
  rfl

end Format

namespace Json

theorem legible_int (value : Int) : (int value).Legible :=
  .number _ (isNumber_signed value)

theorem legible_record {members : List (String × Json)}
    (each : ∀ member ∈ members, member.2.Legible) : (record members).Legible := by
  refine .object fun member given => ?_
  obtain ⟨source, listed, rfl⟩ := List.mem_map.1 given
  exact each source listed

theorem legible_nat (value : Nat) : (nat value).Legible :=
  legible_int value

theorem legible_tagged (kind : String) {value : Json} (legible : value.Legible) :
    (record [("kind", string kind), ("value", value)]).Legible := by
  apply legible_record
  simp [legible, string, Legible.text]

theorem integer?_int (value : Int) : (int value).integer? = some value :=
  integerOf?_signed value

theorem word?_nat (word : UInt32) : (nat word.toNat).word? = some word := by
  have read : (nat word.toNat).integer? = some (word.toNat : Int) := integer?_int word.toNat
  rw [word?, read]
  simp

theorem mapM_map_eq_some {α β : Type} {encode : α → β} {decode : β → Option α}
    (inverse : ∀ item, decode (encode item) = some item) (items : List α) :
    (items.map encode).mapM decode = some items := by
  induction items with
  | nil => rfl
  | cons item rest ih =>
      rw [List.map_cons, List.mapM_cons, inverse, ih]
      rfl

theorem members?_record {names : List String} {members : List (String × Json)}
    (known : ∀ member ∈ members, member.1 ∈ names)
    (distinct : Format.distinct (members.map Prod.fst) = true) :
    (record members).members? names = some members := by
  rw [record, members?, mapM_map_eq_some]
  · simp only [Option.bind_eq_bind, Option.bind_some]
    rw [Format.known?, List.filter_eq_self.2, if_pos distinct]
    intro member given
    exact List.contains_iff_mem.2 (known member given)
  · intro member
    rfl

theorem bind_members?_record {α : Type} {names : List String} {members : List (String × Json)}
    {build : List (String × Json) → Option α} {value : α}
    (known : ∀ member ∈ members, member.1 ∈ names)
    (distinct : Format.distinct (members.map Prod.fst) = true)
    (built : build members = some value) :
    ((record members).members? names).bind build = some value := by
  rw [members?_record known distinct, Option.bind_some, built]

theorem constant?_tagged (kind : String) (value : Json) :
    (record [("kind", string kind), ("value", value)]).constant? =
      constantOf? kind (some value) := by
  have read : (record [("kind", string kind), ("value", value)]).members? ["kind", "value"] =
      some [("kind", string kind), ("value", value)] :=
    members?_record (by simp) (by simp [Format.distinct])
  rw [record] at read ⊢
  rw [constant?, read]
  rfl

end Json

class LawfulJsonModel (α : Type) [JsonModel α] : Prop where
  legible : ∀ value : α, (JsonModel.encode value).Legible
  decode?_encode : ∀ value : α, JsonModel.decode? (JsonModel.encode value) = some value

namespace JsonModel

open LawfulJsonModel (legible decode?_encode)

variable {α : Type} [JsonModel α]

instance : LawfulJsonModel String where
  legible value := .text value
  decode?_encode _ := rfl

instance : LawfulJsonModel Descriptor where
  legible type := .text type.text
  decode?_encode _ := rfl

instance [LawfulJsonModel α] : LawfulJsonModel (List α) where
  legible items := by
    refine .array fun item given => ?_
    obtain ⟨source, _, rfl⟩ := List.mem_map.1 given
    exact legible source
  decode?_encode items := Json.mapM_map_eq_some decode?_encode items

instance : LawfulJsonModel AccessFlags where
  legible flags := Json.legible_int flags.bits.toNat
  decode?_encode flags := by
    change AccessFlags.mk <$> (Json.nat flags.bits.toNat).word? = some flags
    rw [Json.word?_nat]
    rfl

theorem decode?_encode_option [LawfulJsonModel α]
    (present : ∀ value : α, (encode value).present? = some (some (encode value)))
    (value : Option α) : decode? (encode value) = some value := by
  cases value with
  | none => rfl
  | some value =>
      change (Json.format.option? decode? (encode value) : Option (Option α)) = some (some value)
      rw [Format.option?]
      -- The text of a present value must not be that of none.
      change ((encode value).present?.bind _) = _
      rw [present]
      change some <$> decode? (encode value) = some (some value)
      rw [decode?_encode]
      rfl

theorem legible_option [LawfulJsonModel α] (value : Option α) : (encode value).Legible := by
  cases value with
  | none => exact .null
  | some value => exact legible value

instance : LawfulJsonModel Prototype where
  legible prototype := Json.legible_record (by simp [legible])
  decode?_encode prototype :=
    Json.bind_members?_record (by simp) (by simp [Format.distinct]) (by simp [decode?_encode])

instance : LawfulJsonModel Field where
  legible field := Json.legible_record (by simp [legible])
  decode?_encode field :=
    Json.bind_members?_record (by simp) (by simp [Format.distinct]) (by simp [decode?_encode])

instance : LawfulJsonModel Method where
  legible method := Json.legible_record (by simp [legible])
  decode?_encode method :=
    Json.bind_members?_record (by simp) (by simp [Format.distinct]) (by simp [decode?_encode])

theorem ofInt32?_toInt (value : Int32) : Constant.ofInt32? value.toInt = some (.int value) := by
  rw [Constant.ofInt32?, if_pos ⟨value.minValue_le_toInt, value.toInt_le⟩, Int32.ofInt_toInt]

theorem ofInt64?_toInt (value : Int64) : Constant.ofInt64? value.toInt = some (.long value) := by
  rw [Constant.ofInt64?, if_pos ⟨value.minValue_le_toInt, value.toInt_le⟩, Int64.ofInt_toInt]

instance : LawfulJsonModel Constant where
  legible constant := by
    cases constant with
    | null => exact Json.legible_record (by simp [Json.string, Json.Legible.text])
    | boolean value => exact Json.legible_tagged _ (.bool value)
    | int value => exact Json.legible_tagged _ (Json.legible_int value.toInt)
    | long value => exact Json.legible_tagged _ (Json.legible_int value.toInt)
    | string value => exact Json.legible_tagged _ (.text value)
    | type value => exact Json.legible_tagged _ (.text value.text)
  decode?_encode constant := by
    cases constant with
    | null => rfl
    | boolean value => exact Json.constant?_tagged "boolean" (.bool value)
    | int value =>
        refine (Json.constant?_tagged "int" (.int value.toInt)).trans ?_
        change (Json.int value.toInt).integer?.bind Constant.ofInt32? = _
        rw [Json.integer?_int, Option.bind_some, ofInt32?_toInt]
    | long value =>
        refine (Json.constant?_tagged "long" (.int value.toInt)).trans ?_
        change (Json.int value.toInt).integer?.bind Constant.ofInt64? = _
        rw [Json.integer?_int, Option.bind_some, ofInt64?_toInt]
    | string value => exact Json.constant?_tagged "string" (.string value)
    | type value => exact Json.constant?_tagged "type" (.string value.text)

instance : LawfulJsonModel SlotKind where
  legible kind := .text kind.name
  decode?_encode kind := by
    cases kind with
    | classDefIndex => rfl
    | annotationDirectoryOffset => rfl

instance : LawfulJsonModel SlotState where
  legible state := by
    cases state with
    | unresolved => exact .text "unresolved"
    | resolved value => exact Json.legible_record (by simp [Json.legible_nat])
  decode?_encode state := by
    cases state with
    | unresolved => rfl
    | resolved value =>
        change SlotState.resolved <$> (Json.nat value.toNat).word? = some (.resolved value)
        rw [Json.word?_nat]
        rfl

-- Descriptions are read by the readers of the format, which are those of the models themselves.
theorem text?_format : Json.format.text? = (decode? : Json → Option String) := rfl

theorem constant?_format : Json.format.constant? = (decode? : Json → Option Constant) := rfl

theorem list?_format : Json.format.list? (decode? : Json → Option α) = decode? := rfl

theorem option?_format : Json.format.option? (decode? : Json → Option α) = decode? := rfl

theorem read_format : Descriptor.read Json.format = decode? := rfl

theorem readList_format :
    Descriptor.readList Json.format = (decode? : Json → Option (List Descriptor)) := rfl

instance : LawfulJsonModel FieldDescription where
  legible field := Json.legible_record (by simp [legible])
  decode?_encode field := by
    change FieldDescription.read Json.format (encode field) = _
    unfold FieldDescription.read
    refine Json.bind_members?_record (by simp [FieldDescription.memberNames])
      (by simp [Format.distinct]) ?_
    simp [text?_format, list?_format, read_format, readList_format, decode?_encode]

instance : LawfulJsonModel MethodDescription where
  legible method := Json.legible_record (by simp [legible])
  decode?_encode method := by
    change MethodDescription.read Json.format (encode method) = _
    unfold MethodDescription.read
    refine Json.bind_members?_record (by simp [MethodDescription.memberNames])
      (by simp [Format.distinct]) ?_
    simp [text?_format, list?_format, read_format, readList_format, decode?_encode]

theorem readField_format : FieldDescription.read Json.format = decode? := rfl

theorem readMethod_format : MethodDescription.read Json.format = decode? := rfl

instance : LawfulJsonModel ClassDescription where
  legible description := Json.legible_record (by simp [legible, legible_option])
  decode?_encode description := by
    have superclass := decode?_encode_option (fun _ => rfl) description.superclass
    have sourceFile := decode?_encode_option (fun _ => rfl) description.sourceFile
    have staticValues := decode?_encode_option (fun _ => rfl) description.staticValues
    change ClassDescription.read Json.format (encode description) = _
    unfold ClassDescription.read
    refine Json.bind_members?_record (by simp [ClassDescription.memberNames])
      (by simp [Format.distinct]) ?_
    simp [text?_format, constant?_format, list?_format, option?_format, read_format,
      readList_format, readField_format, readMethod_format, decode?_encode, superclass, sourceFile,
      staticValues]

theorem readClass_format : ClassDescription.read Json.format = decode? := rfl

instance : LawfulJsonModel FileDescription where
  legible file := Json.legible_record (by simp [legible])
  decode?_encode file := by
    change FileDescription.read Json.format (encode file) = _
    unfold FileDescription.read
    refine Json.bind_members?_record (by simp [FileDescription.memberNames])
      (by simp [Format.distinct]) ?_
    simp [list?_format, readClass_format, decode?_encode]

theorem read?_write [LawfulJsonModel α] (value : α) : read? (write value) = some value := by
  rw [read?, write, Json.ofString?_compact (legible value), Option.bind_some, decode?_encode]

theorem map_write_read?_write [LawfulJsonModel α] (value : α) :
    (read? (write value) : Option α).map write = some (write value) := by
  rw [read?_write value, Option.map_some]

/-- The text of every value is read as that value again. So what is read from any other text is
written to a text that is read as the same and written as the same. -/
structure RoundTrips (α : Type) [JsonModel α] : Prop where
  value : ∀ value : α, read? (write value) = some value
  text : ∀ (text : String) (value : α), read? text = some value →
    read? (write value) = some value ∧
      (read? (write value) : Option α).map write = some (write value)

theorem roundTrips_of_lawful [LawfulJsonModel α] : RoundTrips α where
  value := read?_write
  text _ value _ := ⟨read?_write value, map_write_read?_write value⟩

/-- Descriptors, texts, prototypes, annotations, constants and lists of them, access flags, fields,
methods, slots and their kinds, and descriptions of classes and files are all read back. -/
theorem roundTrips :
    RoundTrips Descriptor ∧ RoundTrips String ∧ RoundTrips Prototype ∧ RoundTrips Annotations ∧
    RoundTrips Constant ∧ RoundTrips (List Constant) ∧ RoundTrips AccessFlags ∧
    RoundTrips Field ∧ RoundTrips Method ∧ RoundTrips SlotState ∧ RoundTrips SlotKind ∧
    RoundTrips ClassDescription ∧ RoundTrips FileDescription := by
  refine ⟨?_, ?_, ?_, ?_, ?_, ?_, ?_, ?_, ?_, ?_, ?_, ?_, ?_⟩
  all_goals exact roundTrips_of_lawful

/-- A pair with white space and an escape that writing does without. -/
theorem loose_roundTrips : read? " [ \"string\",\t\"\\u0041\" ]" = some (Constant.string "A") ∧
    read? (write (Constant.string "A")) = some (Constant.string "A") ∧
    (read? (write (Constant.string "A")) : Option Constant).map write =
      some (write (Constant.string "A")) := by
  have read : read? " [ \"string\",\t\"\\u0041\" ]" = some (Constant.string "A") := by cbv
  obtain ⟨_, _, _, _, constants, _⟩ := roundTrips
  exact ⟨read, constants.text _ _ read⟩

end JsonModel

end ClassTable
