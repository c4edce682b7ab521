import ClassTable.Descriptor

/-!
Constants that may stand in an encoded array, such as the initial values of static fields.
-/

namespace ClassTable

inductive Constant where
  | null
  | boolean (value : Bool)
  | int (value : Int32)
  | long (value : Int64)
  | string (value : String)
  | type (value : Descriptor)
  deriving DecidableEq

namespace Constant

def ofInt32? (value : Int) : Option Constant :=
  if Int32.minValue.toInt ≤ value ∧ value ≤ Int32.maxValue.toInt then
    some (.int (Int32.ofInt value))
  else none

def ofInt64? (value : Int) : Option Constant :=
  if Int64.minValue.toInt ≤ value ∧ value ≤ Int64.maxValue.toInt then
    some (.long (Int64.ofInt value))
  else none

end Constant

end ClassTable
