import ClassTable.Description.Canonical
import ClassTable.Json.Format
import ClassTable.Pool.Basic
import ClassTable.Yaml.Format

/-!
Descriptions out of files, and all that can go wrong between a file and what is made of it. A file
whose name has the extension `json` is read as JSON and every other as YAML.
-/

namespace ClassTable

inductive ReadFailure where
  | notFound
  | isDirectory
  | other
  deriving DecidableEq, Repr

inductive FileFormat where
  | json
  | yaml
  deriving DecidableEq, Repr

def FileFormat.name : FileFormat → String
  | .json => "JSON"
  | .yaml => "YAML"

inductive Failure where
  | unreadable (path : String) (cause : ReadFailure)
  | malformed (fileFormat : FileFormat)
  | flags (refusal : InvalidFlags)
  | interning (type : Descriptor) (error : PoolError)
  | indexing (error : PoolError)
  | placing (error : PoolError)
  | ordering (error : PoolError)
  | premature (defect : UnassignedRead)
  deriving DecidableEq, Repr

inductive Cause where
  | message (text : String)
  | malformed (fileFormat : FileFormat)
  | unreadable (failure : ReadFailure)
  deriving DecidableEq, Repr

def Cause.wording : Cause → String
  | message text => text
  | malformed fileFormat => "This is no class description in " ++ fileFormat.name
  | unreadable .notFound => "There is no such file"
  | unreadable .isDirectory => "This is a directory"
  | unreadable .other => "The file cannot be read"

namespace Failure

def message : Failure → String
  | unreadable path _ => "Failed to read class description at " ++ path
  | malformed fileFormat => "Failed to parse class description " ++ fileFormat.name
  | flags refusal => refusal.message
  | interning type _ => "Failed to add class " ++ type.text
  | indexing _ => "Failed to assign class definition indices"
  | placing _ => "Failed to assign annotation directory offsets"
  | ordering error => error.message
  | premature defect => defect.message

def causes : Failure → List Cause
  | unreadable _ cause => [.unreadable cause]
  | malformed fileFormat => [.malformed fileFormat]
  | flags refusal => [.message refusal.cause.message]
  | interning _ error | indexing error | placing error => [.message error.message]
  | ordering _ | premature _ => []

def complaint (failure : Failure) : String :=
  let below := failure.causes.map fun cause => "    " ++ cause.wording ++ "\n"
  let behind := if below.isEmpty then "" else "\nCaused by:\n" ++ String.join below
  "Error: " ++ failure.message ++ "\n" ++ behind

end Failure

def fileName (path : String) : List Char :=
  (path.toList.reverse.takeWhile (· != '/')).reverse

/-- What follows the last dot of a file name, unless the name starts with that dot. -/
def extension? (path : String) : Option String :=
  let reversed := (fileName path).reverse
  let stem := (reversed.dropWhile (· != '.')).drop 1
  if stem.isEmpty then none else some (String.ofList (reversed.takeWhile (· != '.')).reverse)

def formatOf (path : String) : FileFormat :=
  if extension? path = some "json" then .json else .yaml

def readDocument {α : Type} (read : Reader α) (symbols : List Text.Symbol) : FileFormat → Option α
  | .json => (Json.ofSymbols? symbols).bind (read Json.format)
  | .yaml => (Yaml.ofSymbols? symbols).bind (Yaml.View.read? read)

def load {α : Type} (read : Reader α) (path : String)
    (contents : Except ReadFailure (List UInt8)) : Except Failure α :=
  match contents with
  | .error cause => .error (.unreadable path cause)
  | .ok bytes =>
    match readDocument read (Text.decode bytes) (formatOf path) with
    | none => .error (.malformed (formatOf path))
    | some description => .ok description

end ClassTable
