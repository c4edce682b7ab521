import ClassTable.Numeral
import ClassTable.Text.Blank

/-!
Offsets as people write them: in decimal, or in hexadecimal behind `0x`. The base of the annotation
directories is such an offset, but not zero, which stands for no offset.
-/

namespace ClassTable

inductive OffsetError where
  | invalid (text : String) (fault : Numeral.Fault)
  | reserved (text : String)
  deriving DecidableEq, Repr

def OffsetError.message : OffsetError → String
  | invalid text fault => "Invalid offset '" ++ text ++ "': " ++ fault.message
  | reserved text =>
    "Invalid annotation base '" ++ text ++ "': offset 0 is reserved for 'unassigned'"

def readOffset : List Char → Except Numeral.Fault UInt32
  | '0' :: 'x' :: digits => Numeral.read 16 digits
  | '0' :: 'X' :: digits => Numeral.read 16 digits
  | digits => Numeral.read 10 digits

def parseOffset (text : String) : Except OffsetError UInt32 :=
  (readOffset (Text.trimList text.toList)).mapError (.invalid text)

def parseBase (text : String) : Except OffsetError UInt32 := do
  let offset ← parseOffset text
  if offset = 0 then .error (.reserved text) else .ok offset

end ClassTable
