/-!
Texts as they arrive, in bytes. Decoding loses no byte: one that belongs to no character leaves a
gap, so that a format can say where gaps are harmless.
-/

namespace ClassTable.Text

/-- A character, or the gap that a stray byte leaves. -/
abbrev Symbol := Option Char

def isContinuation (byte : UInt8) : Bool :=
  0x80 ≤ byte.toNat && byte.toNat < 0xC0

def moreBytes? (lead : UInt8) : Option Nat :=
  let value := lead.toNat
  if value < 0x80 then some 0
  else if value < 0xC0 then none
  else if value < 0xE0 then some 1
  else if value < 0xF0 then some 2
  else if value < 0xF8 then some 3
  else none

def payload (lead : Nat) (bytes : List UInt8) : Nat :=
  bytes.foldl (fun value byte => value * 64 + (byte.toNat - 0x80)) lead

def scalar? (bound code : Nat) : Option Char :=
  if bound ≤ code ∧ code.isValidChar then some (Char.ofNat code) else none

/-- The character that bytes encode together: the shortest form only, and no surrogate. -/
def char? : List UInt8 → Option Char
  | [] => none
  | lead :: rest =>
    if !rest.all isContinuation then none
    else
      let value := lead.toNat
      match rest.length with
      | 0 => if value < 0x80 then scalar? 0 value else none
      | 1 =>
        if 0xC0 ≤ value ∧ value < 0xE0 then scalar? 0x80 (payload (value - 0xC0) rest) else none
      | 2 =>
        if 0xE0 ≤ value ∧ value < 0xF0 then scalar? 0x800 (payload (value - 0xE0) rest) else none
      | 3 =>
        if 0xF0 ≤ value ∧ value < 0xF8 then scalar? 0x10000 (payload (value - 0xF0) rest) else none
      | _ => none

def leading? (first : UInt8) (rest : List UInt8) : Option (Char × Nat) :=
  [0, 1, 2, 3].findSome? fun more => (char? (first :: rest.take more)).map (·, more)

/-- The characters that bytes encode, with a gap for every byte that belongs to none. -/
def decode : List UInt8 → List Symbol
  | [] => []
  | first :: rest =>
    match leading? first rest with
    | some (char, more) => some char :: decode (rest.drop more)
    | none => none :: decode rest
termination_by bytes => bytes.length
decreasing_by
  · rw [List.length_drop, List.length_cons]
    omega
  · exact Nat.lt_succ_self _

def decodeAll? (bytes : List UInt8) : Option (List Char) :=
  (decode bytes).mapM id

end ClassTable.Text
