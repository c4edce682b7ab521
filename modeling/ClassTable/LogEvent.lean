import ClassTable.Descriptor
import ClassTable.Numeral
import ClassTable.Text.Terminal

/-!
What the library reports while it works. Operations return their events in order; each event has a
level and a wording.
-/

namespace ClassTable

inductive LogLevel where
  | error
  | warn
  | info
  | debug
  | trace
  deriving DecidableEq, Repr

namespace LogLevel

def rank : LogLevel → Nat
  | .error => 1
  | .warn => 2
  | .info => 3
  | .debug => 4
  | .trace => 5

def name : LogLevel → String
  | .error => "ERROR"
  | .warn => "WARN"
  | .info => "INFO"
  | .debug => "DEBUG"
  | .trace => "TRACE"

def mark (level : LogLevel) : String :=
  "[" ++ level.name ++ "] "

def shownAt (level verbosity : LogLevel) : Bool :=
  level.rank ≤ verbosity.rank

end LogLevel

inductive LogEvent where
  | excessValues (type : Descriptor) (values staticFields : Nat)
  | valuesReordered (type : Descriptor)
  | canonicalized (type : Descriptor)
      (staticFields instanceFields directMethods virtualMethods : Nat)
  | interned (type : Descriptor)
  | indexAssigned (type : Descriptor) (index : UInt32)
  | indicesAssigned (count : Nat)
  | offsetAssigned (type : Descriptor) (offset : UInt32)
  | offsetsAssigned (count : Nat) (next : UInt32)
  | laidOut (classes : Nat) (stop : UInt32)
  deriving DecidableEq, Repr

namespace LogEvent

def level : LogEvent → LogLevel
  | excessValues .. | valuesReordered .. => .warn
  | laidOut .. => .info
  | canonicalized .. | indicesAssigned .. | offsetsAssigned .. => .debug
  | interned .. | indexAssigned .. | offsetAssigned .. => .trace

def message : LogEvent → String
  | excessValues type values staticFields =>
    type.text ++ " lists " ++ Numeral.decimal values ++ " static values for " ++
      Numeral.decimal staticFields ++ " static fields"
  | valuesReordered type =>
    type.text ++ " declares static fields out of canonical order; static values follow the " ++
      "sorted order"
  | canonicalized type staticFields instanceFields directMethods virtualMethods =>
    "canonicalized " ++ type.text ++ ": " ++ Numeral.decimal staticFields ++ " static / " ++
      Numeral.decimal instanceFields ++ " instance fields, " ++ Numeral.decimal directMethods ++
      " direct / " ++ Numeral.decimal virtualMethods ++ " virtual methods"
  | interned type => "interned class " ++ type.text
  | indexAssigned type index =>
    "class " ++ type.text ++ " -> class_def_index " ++ Numeral.decimal index.toNat
  | indicesAssigned count =>
    "assigned " ++ Numeral.decimal count ++ " class definition indices"
  | offsetAssigned type offset =>
    "class " ++ type.text ++ " -> annotation_directory_offset " ++
      Numeral.hexadecimal offset.toNat
  | offsetsAssigned count next =>
    "assigned " ++ Numeral.decimal count ++ " annotation directory offsets, next free " ++
      Numeral.hexadecimal next.toNat
  | laidOut classes stop =>
    "laid out " ++ Numeral.decimal classes ++ " classes; annotation directories end at " ++
      Numeral.hexadecimal stop.toNat

/-- The record of an event behind its level: the wording, in which all lines but the first are
indented, so that none of them looks like a record of its own, and the end of the line. What steers
a terminal is taken out of all this together, so a sequence without an end takes the end of the line
with it. -/
def record (event : LogEvent) : String :=
  Text.plain ("\n    ".intercalate (event.message.splitOn "\n") ++ "\n")

end LogEvent

abbrev Logged (ε α : Type) := Except ε α × List LogEvent

end ClassTable
