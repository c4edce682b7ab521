import ClassTable.Format
import ClassTable.Yaml.Document
import ClassTable.Yaml.Scalar

/-!
What a YAML node may be taken for. Whoever asks for a text gets the text of any scalar, however it
is written; truth values and integers are never quoted. A node whose type nobody asks for by name
has the type that its tag or its text tells.
-/

namespace ClassTable.Yaml

def nullTag : TagText := TagText.ofChars "tag:yaml.org,2002:null".toList
def boolTag : TagText := TagText.ofChars "tag:yaml.org,2002:bool".toList
def intTag : TagText := TagText.ofChars "tag:yaml.org,2002:int".toList
def floatTag : TagText := TagText.ofChars "tag:yaml.org,2002:float".toList

def isPrivateTag (tag : TagText) : Bool :=
  tag.head? == some 0x21

def privateName? (tag : Option TagText) : Option String := do
  let tag ← tag
  if isPrivateTag tag then String.ofList <$> Text.decodeAll? (tag.drop 1) else none

/-- The value whose type a scalar tells by its tag or its text. A tag of one's own whose name is
readable asks for a type that nobody knows; one whose name is not tells nothing. -/
def Untyped.ofScalar? (tag : Option TagText) (text : String) (style : Style) : Option Untyped :=
  let unread := if style == .plain then Untyped.ofText? text else some (.text text)
  match tag with
  | none => unread
  | some tag =>
    if (privateName? (some tag)).isSome || tag == floatTag then none
    else if tag == nullTag then (if isNullText text then some .null else none)
    else if tag == boolTag then (boolText? text).map .bool
    else if tag == intTag then (integerText? text).bind Untyped.ofInteger?
    else if isPrivateTag tag then unread
    else some (.text text)

namespace View

def text? (view : View) : Reading String := do
  match ← view.target with
  | .scalar _ text _ => return text
  | _ => failure

/-- The items of a sequence, or of nothing where a sequence should be. -/
def items? (view : View) : Reading (List View) := do
  match ← view.target with
  | .sequence _ items => return items.map view.focus
  | .scalar _ "" .plain => return []
  | _ => failure

/-- The node itself, unless it is an unquoted null. -/
def present? (view : View) : Reading (Option View) := do
  let target ← view.target
  let seen := some (view.focus target)
  match target with
  | .scalar properties text .plain =>
    match properties.tag with
    | none => return if text.isEmpty || isNullText text then none else seen
    | some tag =>
      if tag != nullTag then return seen
      else if isNullText text then return none
      else failure
  | _ => return seen

def entries? (view : View) : Reading (List (String × View)) := do
  match ← view.target with
  | .mapping _ entries =>
    entries.mapM fun (key, value) => do
      let name ← (view.focus key).text?
      return (name, view.focus value)
  | _ => failure

def members? (names : List String) (view : View) : Reading (List (String × View)) := do
  Format.known? names (← view.entries?)

/-- The text of a scalar that may be a truth value or a number: an unquoted one, or a literal block
whose tag says so. -/
def bareText? (tag : TagText) (view : View) : Reading String := do
  match ← view.target with
  | .scalar _ text .plain => return text
  | .scalar properties text .literal => if properties.tag == some tag then return text else failure
  | _ => failure

def bool? (view : View) : Reading Bool := do
  boolText? (← view.bareText? boolTag)

def integer? (view : View) : Reading Int := do
  (integerText? (← view.bareText? intTag)).filter isSigned64

def case? (view : View) : Reading String := do
  match ← view.target with
  | .scalar properties text style =>
    match privateName? properties.tag with
    | none => return text
    | some name =>
      if style == .plain && (text.isEmpty || isNullText text) then return name else failure
  | _ => failure

def untyped? (view : View) : Reading Untyped := do
  match ← view.target with
  | .scalar properties text style => Untyped.ofScalar? properties.tag text style
  | _ => failure

end View

def typedConstant? (kind : String) (value : Option View) : Reading Constant :=
  match kind, value with
  | "null", none => return .null
  | "null", some view => do if (← view.untyped?) = .null then return .null else failure
  | "boolean", some view => .boolean <$> view.bool?
  | "int", some view => do Constant.ofInt32? (← view.integer?)
  | "long", some view => do Constant.ofInt64? (← view.integer?)
  | "string", some view => .string <$> view.text?
  | "type", some view => (.type ∘ .mk) <$> view.text?
  | _, _ => failure

def untypedConstant? (kind : String) (value : Untyped) : Option Constant :=
  match kind, value with
  | "null", .null => some .null
  | "boolean", .bool value => some (.boolean value)
  | "int", .integer value => Constant.ofInt32? value
  | "long", .integer value => Constant.ofInt64? value
  | "string", .text value => some (.string value)
  | "type", .text value => some (.type ⟨value⟩)
  | _, _ => none

/-- The constant that a mapping describes. If its kind is told first, the value is read as what the
kind asks for; otherwise the value has a type of its own, which must be the one of the kind. -/
def View.constant? (view : View) : Reading Constant := do
  match ← view.members? ["kind", "value"] with
  | [("kind", kind)] => typedConstant? (← kind.case?) none
  | [("kind", kind), ("value", value)] => typedConstant? (← kind.case?) (some value)
  | [("value", value), ("kind", kind)] => untypedConstant? (← kind.case?) (← value.untyped?)
  | _ => failure

def format : Format Reading View where
  text? := View.text?
  items? := View.items?
  present? := View.present?
  members? := View.members?
  constant? := View.constant?

def View.read? {α : Type} (read : Reader α) (root : View) : Option α :=
  (read format root).run' root.aliasLimit

end ClassTable.Yaml
