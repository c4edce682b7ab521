import ClassTable.Description.Loading
import ClassTable.Json.Writer
import ClassTable.Pool.Directories
import ClassTable.Pool.Indexing

/-!
The class definition table of a file: its classes are pooled and numbered, and their annotation
directories are placed. What was reported before a failure stays reported.
-/

namespace ClassTable

structure TableRow where
  index : UInt32
  type : Descriptor
  superclass : Option Descriptor
  offset : Option UInt32
  deriving DecidableEq

def Entry.row (entry : Entry) : Except UnassignedRead TableRow := do
  let index ← entry.index.expect
  return { index, type := entry.type, superclass := entry.superclass, offset := entry.offset.get? }

def Pool.addAll (pool : Pool) : List ClassDescription → Logged Failure Pool
  | [] => (.ok pool, [])
  | description :: rest =>
    match description.canonicalize with
    | (.error refusal, refused) => (.error (.flags refusal), refused)
    | (.ok entry, built) =>
      let added := pool.intern entry
      match added.result with
      | .error error => (.error (.interning description.type error), built ++ added.events)
      | .ok _ =>
        let (result, events) := added.pool.addAll rest
        (result, built ++ added.events ++ events)

def Pool.rows (pool : Pool) : Except Failure (List TableRow) := do
  let entries ← pool.byIndex.mapError .ordering
  (entries.mapM Entry.row).mapError .premature

def Pool.layOut (pool : Pool) (base : UInt32) : Logged Failure (List TableRow) :=
  let indexed := pool.assignIndices
  match indexed.result with
  | .error error => (.error (.indexing error), indexed.events)
  | .ok _ =>
    let placed := indexed.pool.assignOffsets base fun entry => entry.directorySize
    match placed.result with
    | .error error => (.error (.placing error), indexed.events ++ placed.events)
    | .ok stop =>
      (placed.pool.rows,
        indexed.events ++ placed.events ++ [.laidOut placed.pool.size stop])

def FileDescription.layOut (file : FileDescription) (base : UInt32) :
    Logged Failure (List TableRow) :=
  match Pool.addAll {} file.classes with
  | (.error failure, events) => (.error failure, events)
  | (.ok pool, events) =>
    let (result, later) := pool.layOut base
    (result, events ++ later)

def layOutFile (path : String) (contents : Except ReadFailure (List UInt8)) (base : UInt32) :
    Logged Failure (List TableRow) :=
  match load FileDescription.read path contents with
  | .error failure => (.error failure, [])
  | .ok file => file.layOut base

namespace TableRow

def toJson (row : TableRow) : Json :=
  .record [("class_def_index", .nat row.index.toNat), ("type", .string row.type.text),
    ("superclass", .ofOption (fun type => .string type.text) row.superclass),
    ("annotation_directory_offset", .ofOption (fun offset => .nat offset.toNat) row.offset)]

def line (row : TableRow) : String :=
  "  [" ++ Numeral.decimal row.index.toNat ++ "] " ++ row.type.text ++ " (annotations: " ++
    (match row.offset with
    | none => "-"
    | some offset => Numeral.hexadecimal offset.toNat) ++ ")"

def lines : List TableRow → List String
  | [] => ["Classes: (none)"]
  | rows => "Classes:" :: rows.map line

end TableRow

end ClassTable
