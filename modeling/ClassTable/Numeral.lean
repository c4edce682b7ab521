import ClassTable.Word

/-!
Numerals in a radix of at most sixteen: how natural numbers are written, and how a 32-bit word is
read. A written number is read back; a text is refused for the first fault met from the left.
-/

namespace ClassTable.Numeral

def digitChar (value : Nat) : Char :=
  if value < 10 then Char.ofNat (48 + value) else Char.ofNat (87 + value)

/-- The value of an ASCII digit or letter: letters follow the ten digits, in either case. -/
def digitValue? (char : Char) : Option Nat :=
  let code := char.toNat
  if 48 ≤ code ∧ code ≤ 57 then some (code - 48)
  else if 97 ≤ code ∧ code ≤ 122 then some (code - 87)
  else if 65 ≤ code ∧ code ≤ 90 then some (code - 55)
  else none

def digitIn? (radix : Nat) (char : Char) : Option Nat :=
  (digitValue? char).filter (· < radix)

def digits (radix value : Nat) : List Char :=
  if value < radix ∨ radix < 2 then [digitChar value]
  else digits radix (value / radix) ++ [digitChar (value % radix)]
termination_by value
decreasing_by
  rename_i large
  exact Nat.div_lt_self (by omega) (by omega)

def decimal (value : Nat) : String :=
  String.ofList (digits 10 value)

def hexadecimal (value : Nat) : String :=
  String.ofList ('0' :: 'x' :: digits 16 value)

def signed (value : Int) : String :=
  match value with
  | .ofNat magnitude => decimal magnitude
  | .negSucc below => String.ofList ('-' :: digits 10 (below + 1))

inductive Fault where
  | empty
  | invalidDigit
  | overflow
  deriving DecidableEq, Repr

def Fault.message : Fault → String
  | .empty => "cannot parse integer from empty string"
  | .invalidDigit => "invalid digit found in string"
  | .overflow => "number too large to fit in target type"

def readDigits (radix : Nat) (value : UInt32) : List Char → Except Fault UInt32
  | [] => .ok value
  | char :: rest =>
    match digitIn? radix char with
    | none => .error .invalidDigit
    | some digit =>
      match Word.ofNat? (value.toNat * radix + digit) with
      | none => .error .overflow
      | some next => readDigits radix next rest

/-- The word that a text writes in a radix: digits, behind at most one plus sign. -/
def read (radix : Nat) : List Char → Except Fault UInt32
  | [] => .error .empty
  | ['+'] => .error .invalidDigit
  | '+' :: digits => readDigits radix 0 digits
  | digits => readDigits radix 0 digits

def value? (radix : Nat) (chars : List Char) : Option Nat :=
  chars.foldlM (fun value char => (digitIn? radix char).map (value * radix + ·)) 0

theorem digitIn?_digitChar {radix value : Nat} (below : value < radix) (small : radix ≤ 16) :
    digitIn? radix (digitChar value) = some value := by
  have bound : value < 16 := by omega
  have known : ∀ value < 16, digitValue? (digitChar value) = some value := by decide
  simp [digitIn?, known value bound, below]

theorem value?_append (radix : Nat) (left right : List Char) :
    value? radix (left ++ right) =
      (value? radix left).bind fun value =>
        right.foldlM (fun value char => (digitIn? radix char).map (value * radix + ·)) value := by
  simp [value?, List.foldlM_append]

theorem value?_digits {radix : Nat} (large : 2 ≤ radix) (small : radix ≤ 16) (value : Nat) :
    value? radix (digits radix value) = some value := by
  induction value using Nat.strongRecOn with
  | ind value ih =>
    rw [digits]
    split
    next below =>
      have below : value < radix := by omega
      simp [value?, digitIn?_digitChar below small]
    next above =>
      have positive : 0 < value := by omega
      have smaller : value / radix < value := Nat.div_lt_self positive (by omega)
      have remainder : value % radix < radix := Nat.mod_lt _ (by omega)
      rw [value?_append, ih _ smaller]
      simp [digitIn?_digitChar remainder small, Nat.div_add_mod']

theorem decimal_injective {first second : Nat} (same : decimal first = decimal second) :
    first = second := by
  have digits := String.ofList_injective same
  have firstRead := value?_digits (by omega : 2 ≤ 10) (by omega) first
  have secondRead := value?_digits (by omega : 2 ≤ 10) (by omega) second
  rw [digits, secondRead] at firstRead
  exact (Option.some.inj firstRead).symm

end ClassTable.Numeral
