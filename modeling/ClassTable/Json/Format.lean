import ClassTable.Format
import ClassTable.Json.Reader

/-!
What a JSON value may be taken for. A record may be given as an object or as the array of its
members in their declared order; a case of an enumeration by its name, or as an object with the name
as its only member.
-/

namespace ClassTable.Json

def text? : Json → Option String
  | .text content => content
  | _ => none

def items? : Json → Option (List Json)
  | .array items => some items
  | _ => none

def present? : Json → Option (Option Json)
  | .null => some none
  | value => some (some value)

def bool? : Json → Option Bool
  | .bool value => some value
  | _ => none

/-- The members of a record whose names are among the given ones. Every name of an object must be a
text, and none of the given names may occur twice; the array form may stop early but not go on. -/
def members? (names : List String) : Json → Option (List (String × Json))
  | .object members => do
    let named ← members.mapM fun (name, value) => name.map (·, value)
    Format.known? names named
  | .array items => if items.length ≤ names.length then some (names.zip items) else none
  | _ => none

/-- The integer that a literal writes: digits behind at most one minus sign, never `-0`. -/
def integerOf? (literal : String) : Option Int :=
  match literal.toList with
  | '-' :: digits => do
    let magnitude ← Numeral.value? 10 digits
    if magnitude = 0 then none else some (-(magnitude : Int))
  | digits => Int.ofNat <$> Numeral.value? 10 digits

def integer? : Json → Option Int
  | .number literal => integerOf? literal
  | _ => none

def word? (value : Json) : Option UInt32 := do
  let integer ← value.integer?
  if 0 ≤ integer then Word.ofNat? integer.toNat else none

def case? : Json → Option (String × Json)
  | .text (some name) => some (name, .null)
  | .object [(some name, value)] => some (name, value)
  | _ => none

def plainCase? (value : Json) : Option String := do
  match ← value.case? with
  | (name, .null) => some name
  | _ => none

def constantOf? (kind : String) (value : Option Json) : Option Constant :=
  match kind, value with
  | "null", none => some .null
  | "null", some .null => some .null
  | "boolean", some value => .boolean <$> value.bool?
  | "int", some value => do Constant.ofInt32? (← value.integer?)
  | "long", some value => do Constant.ofInt64? (← value.integer?)
  | "string", some value => .string <$> value.text?
  | "type", some value => (.type ∘ .mk) <$> value.text?
  | _, _ => none

/-- The constant that a value describes: its kind and its value as a pair, or as the members of an
object in either order. In a pair, the kind is given by its name alone. -/
def constant? : Json → Option Constant
  | .array [kind, value] => do constantOf? (← kind.text?) (some value)
  | .object members => do
    let known ← members? ["kind", "value"] (.object members)
    let kind ← known.lookup "kind"
    constantOf? (← kind.plainCase?) (known.lookup "value")
  | _ => none

def format : Format Option Json where
  text? := text?
  items? := items?
  present? := present?
  members? := members?
  constant? := constant?

end ClassTable.Json
