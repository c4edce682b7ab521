import ClassTable.Description.Loading
import ClassTable.Json.Writer

/-!
Reports on single classes: the canonical shape of a class, for people as lines of text and for
programs as JSON.
-/

namespace ClassTable

structure ClassReport where
  type : String
  flags : AccessFlags
  superclass : Option String
  interfaces : List String
  sourceFile : Option String
  annotations : List String
  staticFields : List String
  instanceFields : List String
  directMethods : List String
  virtualMethods : List String
  staticValues : Option Nat
  index : Option UInt32
  offset : Option UInt32
  deriving DecidableEq

def Entry.report (entry : Entry) : ClassReport where
  type := entry.type.text
  flags := entry.flags
  superclass := entry.superclass.map Descriptor.text
  interfaces := entry.interfaces.map Descriptor.text
  sourceFile := entry.sourceFile
  annotations := entry.annotations.map Descriptor.text
  staticFields := entry.staticFields.toList.map Field.render
  instanceFields := entry.instanceFields.toList.map Field.render
  directMethods := entry.directMethods.toList.map Method.render
  virtualMethods := entry.virtualMethods.toList.map Method.render
  staticValues := entry.staticValues.map List.length
  index := entry.index.get?
  offset := entry.offset.get?

namespace ClassReport

def toJson (report : ClassReport) : Json :=
  .record [("type", .string report.type), ("access_flags", .nat report.flags.bits.toNat),
    ("superclass", .ofOption .string report.superclass),
    ("interfaces", .ofList .string report.interfaces),
    ("source_file", .ofOption .string report.sourceFile),
    ("annotations", .ofList .string report.annotations),
    ("static_fields", .ofList .string report.staticFields),
    ("instance_fields", .ofList .string report.instanceFields),
    ("direct_methods", .ofList .string report.directMethods),
    ("virtual_methods", .ofList .string report.virtualMethods),
    ("static_values", .ofOption .nat report.staticValues),
    ("class_def_index", .ofOption (fun index => .nat index.toNat) report.index),
    ("annotation_directory_offset", .ofOption (fun offset => .nat offset.toNat) report.offset)]

def listLines (label : String) : List String → List String
  | [] => [label ++ ": (none)"]
  | items => (label ++ ":") :: items.map ("  - " ++ ·)

def lines (report : ClassReport) : List String :=
  ["Class: " ++ report.type,
    "Access flags: " ++ report.flags.render,
    "Superclass: " ++ report.superclass.getD "(none)",
    "Source file: " ++ report.sourceFile.getD "(none)"] ++
  listLines "Interfaces" report.interfaces ++
  listLines "Annotations" report.annotations ++
  listLines "Static fields" report.staticFields ++
  listLines "Instance fields" report.instanceFields ++
  listLines "Direct methods" report.directMethods ++
  listLines "Virtual methods" report.virtualMethods ++
  report.staticValues.toList.map ("Static values: " ++ Numeral.decimal ·)

end ClassReport

def reportFile (path : String) (contents : Except ReadFailure (List UInt8)) :
    Except Failure (ClassReport × List LogEvent) := do
  let description ← load ClassDescription.read path contents
  let (entry, events) ← description.toEntry.mapError .flags
  return (entry.report, events)

end ClassTable
