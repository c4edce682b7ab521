import ClassTable.ClassDef.Draft
import ClassTable.Description.Basic

/-!
From the description of a class to its entry. Keywords become flags, fields are split by their
`static` flag, and every member is defined by the class that lists it. The first element with an
unknown keyword is refused: the class itself, then its fields as listed, then its methods.
-/

namespace ClassTable

inductive FlagOwner where
  | classItself (type : Descriptor)
  | field (type : Descriptor) (name : String)
  | method (type : Descriptor) (name : String)
  deriving DecidableEq, Repr

def FlagOwner.render : FlagOwner → String
  | classItself type => "class " ++ type.text
  | field type name => "field " ++ type.text ++ "." ++ name
  | method type name => "method " ++ type.text ++ "." ++ name

structure InvalidFlags where
  owner : FlagOwner
  cause : AccessFlags.UnknownKeyword
  deriving DecidableEq, Repr

def InvalidFlags.message (refusal : InvalidFlags) : String :=
  "Invalid access flags on " ++ refusal.owner.render

def flagsOf (owner : FlagOwner) (access : List String) : Except InvalidFlags AccessFlags :=
  (AccessFlags.ofKeywords access).mapError fun cause => { owner, cause }

def FieldDescription.toField (type : Descriptor) (description : FieldDescription) :
    Except InvalidFlags Field := do
  let flags ← flagsOf (.field type description.name) description.access
  return {
    definingClass := type
    name := description.name
    type := description.type
    flags
    annotations := description.annotations }

def MethodDescription.toMethod (type : Descriptor) (description : MethodDescription) :
    Except InvalidFlags Method := do
  let flags ← flagsOf (.method type description.name) description.access
  return {
    definingClass := type
    name := description.name
    prototype := ⟨description.parameters, description.returnType⟩
    flags
    annotations := description.annotations }

def descends {α : Type} [Ord α] : List α → Bool
  | first :: second :: rest => compare first second == .gt || descends (second :: rest)
  | _ => false

/-- What is reported of the static values of a class when the static fields that it declares are too
few for them, or are not in canonical order. -/
def valueEvents (type : Descriptor) (declared : List Field) : Option (List Constant) → List LogEvent
  | none => []
  | some values =>
    (if declared.length < values.length then
      [.excessValues type values.length declared.length] else []) ++
    (if !values.isEmpty && descends declared then [.valuesReordered type] else [])

namespace ClassDescription

def toDraft (description : ClassDescription) : Except InvalidFlags Draft := do
  let type := description.type
  let flags ← flagsOf (.classItself type) description.access
  let fields ← description.fields.mapM (FieldDescription.toField type)
  let methods ← description.methods.mapM (MethodDescription.toMethod type)
  return {
    type
    flags
    superclass := description.superclass
    interfaces := description.interfaces
    sourceFile := description.sourceFile
    annotations := description.annotations
    staticFields := fields.filter Field.isStatic
    instanceFields := fields.filter fun field => !field.isStatic
    methods
    staticValues := description.staticValues }

/-- Puts the described class in canonical form. Static values are looked at only when all keywords
have been read. -/
def canonicalize (description : ClassDescription) : Logged InvalidFlags Entry :=
  match description.toDraft with
  | .error refusal => (.error refusal, [])
  | .ok draft =>
    let warnings := valueEvents draft.type draft.staticFields draft.staticValues
    let entry := draft.build
    (.ok entry, warnings ++ [entry.buildEvent])

/-- The entry of the described class and what was reported of it, unless it is refused. -/
def toEntry (description : ClassDescription) : Except InvalidFlags (Entry × List LogEvent) :=
  match description.canonicalize with
  | (.error refusal, _) => .error refusal
  | (.ok entry, events) => .ok (entry, events)

end ClassDescription

end ClassTable
