import ClassTable.Numeral

/-!
What the text of a scalar may be taken for when its type is not asked for by name: the absence of a
value, a truth value, an integer, a fractional number, or just a text.
-/

namespace ClassTable.Yaml

def isNullText (text : String) : Bool :=
  ["null", "Null", "NULL", "~"].contains text

def boolText? (text : String) : Option Bool :=
  if ["true", "True", "TRUE"].contains text then some true
  else if ["false", "False", "FALSE"].contains text then some false
  else none

def isSign (char : Char) : Bool :=
  char == '+' || char == '-'

def digitsValue? (radix : Nat) (chars : List Char) : Option Nat :=
  if chars.isEmpty then none else Numeral.value? radix chars

/-- Whether a text has a leading zero before further digits. Such texts are no numbers. -/
def hasLeadingZero (chars : List Char) : Bool :=
  let unsigned := if chars.head?.any isSign then chars.drop 1 else chars
  2 ≤ unsigned.length && unsigned.head? == some '0' && unsigned.all Char.isDigit

def naturalText? : List Char → Option Nat
  | '0' :: 'x' :: digits => digitsValue? 16 digits
  | '0' :: 'o' :: digits => digitsValue? 8 digits
  | '0' :: 'b' :: digits => digitsValue? 2 digits
  | digits => if hasLeadingZero digits then none else digitsValue? 10 digits

def integerText? (text : String) : Option Int :=
  match text.toList with
  | '-' :: magnitude => (naturalText? magnitude).map fun value => -(value : Int)
  | '+' :: magnitude => (naturalText? magnitude).map Int.ofNat
  | magnitude => (naturalText? magnitude).map Int.ofNat

def isSigned64 (value : Int) : Bool :=
  -Int.pow 2 63 ≤ value && value < Int.pow 2 63

/-- The least magnitude that rounds to no finite number of double precision. -/
def doubleBound : Nat :=
  Nat.pow 2 1024 - Nat.pow 2 970

def isFinite (digits : List Char) (exponent : Int) : Bool :=
  let significant := digits.dropWhile (· == '0')
  let places := significant.length + exponent
  if significant.isEmpty || places < 300 then true
  else if 320 < places then false
  else
    let value := (Numeral.value? 10 significant).getD 0
    if 0 ≤ exponent then value * Nat.pow 10 exponent.toNat < doubleBound
    else value < doubleBound * Nat.pow 10 (-exponent).toNat

def exponentText? : List Char → Option Int
  | [] => some 0
  | mark :: rest =>
    if mark == 'e' || mark == 'E' then
      match rest with
      | '-' :: digits => (digitsValue? 10 digits).map fun value => -(value : Int)
      | '+' :: digits => (digitsValue? 10 digits).map Int.ofNat
      | digits => (digitsValue? 10 digits).map Int.ofNat
    else none

def isDecimalText (chars : List Char) : Bool :=
  let whole := chars.takeWhile Char.isDigit
  let afterWhole := chars.dropWhile Char.isDigit
  let (fraction, rest) :=
    match afterWhole with
    | '.' :: digits => (digits.takeWhile Char.isDigit, digits.dropWhile Char.isDigit)
    | rest => ([], rest)
  if whole.isEmpty && fraction.isEmpty then false
  else
    match exponentText? rest with
    | none => false
    | some exponent => isFinite (whole ++ fraction) (exponent - fraction.length)

def isFloatText (text : String) : Bool :=
  [".nan", ".NaN", ".NAN"].contains text ||
    (let chars := text.toList
    let magnitude := if chars.head?.any isSign then chars.drop 1 else chars
    [".inf", ".Inf", ".INF"].contains (String.ofList magnitude) || isDecimalText magnitude)

inductive Untyped where
  | null
  | bool (value : Bool)
  | integer (value : Int)
  | text (value : String)
  deriving DecidableEq, Repr

/-- The value of an integer of unknown width: it must fit 64 bits, with a sign or without. -/
def Untyped.ofInteger? (value : Int) : Option Untyped :=
  if -Int.pow 2 63 ≤ value ∧ value < Int.pow 2 64 then some (.integer value) else none

/-- The value of an unquoted text. Fractional numbers, and integers of more than 64 bits, are none
that this library knows; only a magnitude that no number format has is a text again. -/
def Untyped.ofText? (text : String) : Option Untyped :=
  if text.isEmpty || isNullText text then some .null
  else
    match boolText? text with
    | some value => some (.bool value)
    | none =>
      let integer := (integerText? text).filter fun value =>
        -Int.pow 2 127 ≤ value && value < Int.pow 2 128
      match integer with
      | some value => Untyped.ofInteger? value
      | none =>
        if !hasLeadingZero text.toList && isFloatText text then none else some (.text text)

end ClassTable.Yaml
