import ClassTable.ClassDef.Basic
import ClassTable.LogEvent

/-!
Drafts of classes: what a definition is built from, in any order. Building sorts the members and
splits the methods into direct and virtual ones.
-/

namespace ClassTable

structure Draft where
  type : Descriptor
  flags : AccessFlags
  superclass : Option Descriptor := none
  interfaces : List Descriptor := []
  sourceFile : Option String := none
  annotations : Annotations := []
  staticFields : List Field := []
  instanceFields : List Field := []
  methods : List Method := []
  staticValues : Option (List Constant) := none

namespace Draft

/-- The entry of a draft, with the methods that a test accepts as the direct ones and all others as
virtual. Fields stay in the group in which the draft has them. -/
def buildWith (draft : Draft) (direct : Method → Bool) : Entry where
  type := draft.type
  flags := draft.flags
  superclass := draft.superclass
  interfaces := draft.interfaces
  sourceFile := draft.sourceFile
  annotations := draft.annotations
  staticFields := .ofList draft.staticFields
  instanceFields := .ofList draft.instanceFields
  directMethods := .ofList (draft.methods.filter direct)
  virtualMethods := .ofList (draft.methods.filter fun method => !direct method)
  staticValues := draft.staticValues

def build (draft : Draft) : Entry :=
  draft.buildWith Method.isDirect

end Draft

def ClassDef.buildEvent (definition : ClassDef) : LogEvent :=
  .canonicalized definition.type definition.staticFields.size definition.instanceFields.size
    definition.directMethods.size definition.virtualMethods.size

end ClassTable
