import ClassTable.Offset
import ClassTable.Proofs.Outcome
import Mathlib.Data.List.Forall2
import Mathlib.Data.List.TakeWhile
import Mathlib.Data.Nat.Digits.Defs
import Mathlib.Tactic.Ring

/-!
Which texts are offsets. White space around an offset does not count. What is left is a numeral in
decimal, or one in hexadecimal behind its mark, and has the value of its digits as a natural number.
The numerals of words are read, and no others; so every word is read from either way to write it.
-/

namespace ClassTable

namespace Text

def Padded (text body : List Char) : Prop :=
  ∃ before after, text = before ++ body ++ after ∧
    (∀ char ∈ before, isBlank char = true) ∧ ∀ char ∈ after, isBlank char = true

theorem padded_trimList (text : List Char) : Padded text (trimList text) := by
  let inner := text.dropWhile isBlank
  refine ⟨text.takeWhile isBlank, (inner.reverse.takeWhile isBlank).reverse, ?_,
    fun char => List.mem_takeWhile_imp, fun char member =>
      List.mem_takeWhile_imp (List.mem_reverse.1 member)⟩
  have back : trimList text ++ (inner.reverse.takeWhile isBlank).reverse = inner := by
    rw [trimList, ← List.reverse_append, List.takeWhile_append_dropWhile, List.reverse_reverse]
  rw [List.append_assoc, back, List.takeWhile_append_dropWhile]

theorem dropWhile_padded {before body : List Char} (after : List Char) (nonempty : body ≠ [])
    (blank : ∀ char ∈ before, isBlank char = true)
    (plain : ∀ char ∈ body, isBlank char = false) :
    (before ++ (body ++ after)).dropWhile isBlank = body ++ after := by
  rw [List.dropWhile_append_of_pos blank]
  cases body with
  | nil => exact absurd rfl nonempty
  | cons first rest =>
      rw [List.cons_append, List.dropWhile_cons_of_neg]
      rw [plain first List.mem_cons_self]
      exact Bool.false_ne_true

theorem trimList_of_padded {text body : List Char} (padded : Padded text body)
    (nonempty : body ≠ []) (plain : ∀ char ∈ body, isBlank char = false) :
    trimList text = body := by
  obtain ⟨before, after, rfl, beforeBlank, afterBlank⟩ := padded
  have front := dropWhile_padded after nonempty beforeBlank plain
  have back := dropWhile_padded [] (List.reverse_ne_nil_iff.2 nonempty)
    (fun char member => afterBlank char (List.mem_reverse.1 member))
    (fun char member => plain char (List.mem_reverse.1 member))
  rw [trimList, List.append_assoc, front, List.reverse_append]
  rw [List.append_nil] at back
  rw [back, List.reverse_reverse]

end Text

namespace Numeral

def lowerDigits : List Char :=
  ['0', '1', '2', '3', '4', '5', '6', '7', '8', '9', 'a', 'b', 'c', 'd', 'e', 'f']

def upperDigits : List Char :=
  ['0', '1', '2', '3', '4', '5', '6', '7', '8', '9', 'A', 'B', 'C', 'D', 'E', 'F']

def IsDigit (radix : Nat) (char : Char) (value : Nat) : Prop :=
  value < radix ∧ (lowerDigits[value]? = some char ∨ upperDigits[value]? = some char)

theorem digitValue?_eq_some_iff {char : Char} {value : Nat} (small : value < 16) :
    digitValue? char = some value ↔
      lowerDigits[value]? = some char ∨ upperDigits[value]? = some char := by
  constructor
  · have numbers : ∀ code < 58, 48 ≤ code → lowerDigits[code - 48]? = some (Char.ofNat code) := by
      decide
    have letters : ∀ code < 103, 97 ≤ code → lowerDigits[code - 87]? = some (Char.ofNat code) := by
      decide
    have capitals : ∀ code < 71, 65 ≤ code → upperDigits[code - 55]? = some (Char.ofNat code) := by
      decide
    intro known
    rw [← char.ofNat_toNat]
    simp only [digitValue?] at known
    split at known
    · cases known
      exact .inl (numbers _ (by omega) (by omega))
    · split at known
      · cases known
        exact .inl (letters _ (by omega) (by omega))
      · split at known
        · cases known
          exact .inr (capitals _ (by omega) (by omega))
        · cases known
  · have lower : ∀ value < 16, lowerDigits[value]?.bind digitValue? = some value := by decide
    have upper : ∀ value < 16, upperDigits[value]?.bind digitValue? = some value := by decide
    rintro (found | found)
    · simpa [found] using lower value small
    · simpa [found] using upper value small

theorem digitIn?_eq_some_iff {radix value : Nat} {char : Char} (small : radix ≤ 16) :
    digitIn? radix char = some value ↔ IsDigit radix char value := by
  rw [digitIn?, Option.filter_eq_some_iff, IsDigit, decide_eq_true_iff, and_comm]
  exact and_congr_right fun below => digitValue?_eq_some_iff (by omega)

def Writes (radix : Nat) (chars : List Char) (number : Nat) : Prop :=
  chars ≠ [] ∧ ∃ values, List.Forall₂ (IsDigit radix) chars values ∧
    Nat.ofDigits radix values.reverse = number

def WritesSigned (radix : Nat) (chars : List Char) (number : Nat) : Prop :=
  Writes radix chars number ∨ ∃ digits, chars = '+' :: digits ∧ Writes radix digits number

theorem ofDigits_reverse_cons (radix first : Nat) (values : List Nat) :
    Nat.ofDigits radix (first :: values).reverse =
      Nat.ofDigits radix values.reverse + radix ^ values.length * first := by
  rw [List.reverse_cons, Nat.ofDigits_append, Nat.ofDigits_singleton, List.length_reverse]

theorem ofDigits_reverse_cons_cons (radix first second : Nat) (values : List Nat) :
    Nat.ofDigits radix (first :: second :: values).reverse =
      Nat.ofDigits radix ((first * radix + second) :: values).reverse := by
  rw [ofDigits_reverse_cons, ofDigits_reverse_cons, ofDigits_reverse_cons, List.length_cons]
  ring

theorem le_ofDigits_reverse_cons {radix : Nat} (positive : 0 < radix) (first : Nat)
    (values : List Nat) : first ≤ Nat.ofDigits radix (first :: values).reverse := by
  rw [ofDigits_reverse_cons]
  exact (Nat.le_mul_of_pos_left first (Nat.pow_pos positive)).trans (Nat.le_add_left _ _)

section Reading

variable {radix number : Nat} {chars : List Char} {word : UInt32}

theorem readDigits_eq_ok_iff (positive : 0 < radix) (small : radix ≤ 16) {start : UInt32} :
    readDigits radix start chars = .ok word ↔
      ∃ values, List.Forall₂ (IsDigit radix) chars values ∧
        Nat.ofDigits radix (start.toNat :: values).reverse = word.toNat := by
  fun_induction readDigits radix start chars with
  | case1 start =>
      simp [UInt32.toNat_inj]
  | case2 start char rest foreign =>
      simp only [reduceCtorEq, List.forall₂_cons_left_iff, false_iff]
      rintro ⟨_, ⟨value, _, digit, _, rfl⟩, _⟩
      rw [(digitIn?_eq_some_iff small).2 digit] at foreign
      cases foreign
  | case3 start char rest value known overflow =>
      simp only [reduceCtorEq, List.forall₂_cons_left_iff, false_iff]
      rintro ⟨_, ⟨digit, values, isDigit, _, rfl⟩, total⟩
      cases known.symm.trans ((digitIn?_eq_some_iff small).2 isDigit)
      -- Further digits only add to the number, so an overflow on the way is one in the end.
      rw [ofDigits_reverse_cons_cons] at total
      have large := Word.ofNat?_eq_none_iff.1 overflow
      have grown := le_ofDigits_reverse_cons positive (start.toNat * radix + value) values
      exact absurd word.toNat_lt (Nat.not_lt.2 (total ▸ large.trans grown))
  | case4 start char rest value known next step ih =>
      -- The word so far is the leading digit of what is left, of whatever size that is.
      have exactly := Word.ofNat?_eq_some_iff.1 step
      have isDigit := (digitIn?_eq_some_iff small).1 known
      simp only [ih, List.forall₂_cons_left_iff]
      constructor
      · rintro ⟨values, digits, total⟩
        refine ⟨value :: values, ⟨value, values, isDigit, digits, rfl⟩, ?_⟩
        rw [ofDigits_reverse_cons_cons, ← exactly, total]
      · rintro ⟨_, ⟨digit, values, digitKnown, digits, rfl⟩, total⟩
        cases known.symm.trans ((digitIn?_eq_some_iff small).2 digitKnown)
        exact ⟨values, digits, by rw [exactly, ← ofDigits_reverse_cons_cons, total]⟩

theorem readDigits_zero_eq_ok_iff (positive : 0 < radix) (small : radix ≤ 16)
    (nonempty : chars ≠ []) :
    readDigits radix 0 chars = .ok word ↔ Writes radix chars word.toNat := by
  rw [readDigits_eq_ok_iff positive small, Writes, and_iff_right nonempty]
  simp only [ofDigits_reverse_cons, UInt32.toNat_zero, Nat.mul_zero, Nat.add_zero]

theorem not_isDigit_plus (small : radix ≤ 16) (value : Nat) : ¬ IsDigit radix '+' value := by
  rw [← digitIn?_eq_some_iff small]
  simp [digitIn?, digitValue?]

theorem not_writes_plus (small : radix ≤ 16) (digits : List Char) :
    ¬ Writes radix ('+' :: digits) number := by
  rintro ⟨_, values, digits, _⟩
  obtain ⟨value, _, digit, _⟩ := List.forall₂_cons_left_iff.1 digits
  exact not_isDigit_plus small value digit

theorem read_eq_ok_iff (positive : 0 < radix) (small : radix ≤ 16) :
    read radix chars = .ok word ↔ WritesSigned radix chars word.toNat := by
  have empty : ¬ Writes radix [] word.toNat := fun written => written.1 rfl
  fun_cases read radix chars with
  | case1 => simp [WritesSigned, empty]
  | case2 => simp [WritesSigned, empty, not_writes_plus small]
  | case3 digits nonempty =>
      rw [readDigits_zero_eq_ok_iff positive small nonempty, WritesSigned,
        or_iff_right (not_writes_plus small digits)]
      simp
  | case4 digits nonempty _ unsigned =>
      rw [readDigits_zero_eq_ok_iff positive small nonempty, WritesSigned, or_iff_left]
      rintro ⟨_, signed, _⟩
      exact unsigned _ signed

theorem IsDigit.plain {char : Char} {value : Nat} (small : radix ≤ 16)
    (digit : IsDigit radix char value) : Text.isBlank char = false := by
  have lower : ∀ value < 16, (lowerDigits[value]?.map Text.isBlank) = some false := by decide
  have upper : ∀ value < 16, (upperDigits[value]?.map Text.isBlank) = some false := by decide
  have below : value < 16 := Nat.lt_of_lt_of_le digit.1 small
  rcases digit.2 with found | found
  · simpa [found] using lower value below
  · simpa [found] using upper value below

theorem Writes.plain (small : radix ≤ 16) (written : Writes radix chars number) :
    ∀ char ∈ chars, Text.isBlank char = false := by
  obtain ⟨_, values, digits, _⟩ := written
  intro char member
  obtain ⟨value, _, digit⟩ := Outcome.exists_of_mem_left digits member
  exact digit.plain small

theorem WritesSigned.plain (small : radix ≤ 16) (written : WritesSigned radix chars number) :
    ∀ char ∈ chars, Text.isBlank char = false := by
  rcases written with unsigned | ⟨digits, rfl, signed⟩
  · exact unsigned.plain small
  · exact List.forall_mem_cons.2 ⟨rfl, signed.plain small⟩

theorem WritesSigned.nonempty (written : WritesSigned radix chars number) : chars ≠ [] := by
  rcases written with unsigned | ⟨digits, rfl, _⟩
  · exact unsigned.1
  · exact List.cons_ne_nil _ _

theorem isDigit_digitChar_of_lt {value : Nat} (below : value < radix) (small : radix ≤ 16) :
    IsDigit radix (digitChar value) value :=
  (digitIn?_eq_some_iff small).1 (digitIn?_digitChar below small)

theorem writes_digits (large : 2 ≤ radix) (small : radix ≤ 16) (number : Nat) :
    Writes radix (digits radix number) number := by
  induction number using Nat.strongRecOn with
  | ind number ih =>
      rw [digits]
      split
      next below =>
        have digit := isDigit_digitChar_of_lt (by omega : number < radix) small
        exact ⟨List.cons_ne_nil _ _, [number], .cons digit .nil, Nat.ofDigits_singleton⟩
      next above =>
        have smaller : number / radix < number := Nat.div_lt_self (by omega) (by omega)
        obtain ⟨_, values, leading, total⟩ := ih _ smaller
        have last := isDigit_digitChar_of_lt (Nat.mod_lt number (by omega : 0 < radix)) small
        refine ⟨by simp, values ++ [number % radix], List.rel_append leading (.cons last .nil), ?_⟩
        rw [List.reverse_append, List.reverse_singleton, List.singleton_append, Nat.ofDigits_cons,
          total, Nat.mod_add_div]

end Reading

end Numeral

section Offsets

variable {chars : List Char} {number : Nat} {word : UInt32}

inductive WritesOffset : List Char → Nat → Prop
  | decimal {chars : List Char} {number : Nat} (written : Numeral.WritesSigned 10 chars number) :
      WritesOffset chars number
  | hexadecimal {mark : Char} {chars : List Char} {number : Nat}
      (marked : mark = 'x' ∨ mark = 'X') (written : Numeral.WritesSigned 16 chars number) :
      WritesOffset ('0' :: mark :: chars) number

theorem WritesOffset.plain (written : WritesOffset chars number) :
    ∀ char ∈ chars, Text.isBlank char = false := by
  cases written with
  | decimal written => exact written.plain (by omega)
  | hexadecimal marked written =>
      refine List.forall_mem_cons.2 ⟨rfl, List.forall_mem_cons.2 ⟨?_, written.plain (by omega)⟩⟩
      rcases marked with rfl | rfl <;> rfl

theorem WritesOffset.nonempty (written : WritesOffset chars number) : chars ≠ [] := by
  cases written with
  | decimal written => exact written.nonempty
  | hexadecimal => exact List.cons_ne_nil _ _

theorem not_writesSigned_marked {mark : Char} (marked : mark = 'x' ∨ mark = 'X') :
    ¬ Numeral.WritesSigned 10 ('0' :: mark :: chars) number := by
  rintro (⟨_, values, digits, _⟩ | ⟨digits, signed, _⟩)
  · obtain ⟨_, rest, _, later, _⟩ := List.forall₂_cons_left_iff.1 digits
    obtain ⟨value, _, digit, _⟩ := List.forall₂_cons_left_iff.1 later
    rw [← Numeral.digitIn?_eq_some_iff (by omega)] at digit
    rcases marked with rfl | rfl <;> cases digit
  · cases signed

theorem readOffset_marked_eq_ok_iff {mark : Char} (marked : mark = 'x' ∨ mark = 'X') :
    Numeral.read 16 chars = .ok word ↔ WritesOffset ('0' :: mark :: chars) word.toNat := by
  rw [Numeral.read_eq_ok_iff (by omega) (by omega)]
  constructor
  · exact .hexadecimal marked
  · intro written
    cases written with
    | decimal written => exact absurd written (not_writesSigned_marked marked)
    | hexadecimal _ written => exact written

theorem readOffset_eq_ok_iff :
    readOffset chars = .ok word ↔ WritesOffset chars word.toNat := by
  fun_cases readOffset chars with
  | case1 digits => exact readOffset_marked_eq_ok_iff (.inl rfl)
  | case2 digits => exact readOffset_marked_eq_ok_iff (.inr rfl)
  | case3 digits unmarked unmarkedUpper =>
      rw [Numeral.read_eq_ok_iff (by omega) (by omega)]
      constructor
      · exact .decimal
      · intro written
        cases written with
        | decimal written => exact written
        | hexadecimal marked _ =>
            rcases marked with rfl | rfl
            · exact absurd rfl (unmarked _)
            · exact absurd rfl (unmarkedUpper _)

def SpellsOffset (text : String) (number : Nat) : Prop :=
  ∃ body, Text.Padded text.toList body ∧ WritesOffset body number

theorem parseOffset_eq_ok_iff {text : String} :
    parseOffset text = .ok word ↔ SpellsOffset text word.toNat := by
  rw [parseOffset, Outcome.mapError_eq_ok_iff, readOffset_eq_ok_iff, SpellsOffset]
  -- A text has more than one body, but only one of them is free of white space.
  constructor
  · exact fun written => ⟨_, Text.padded_trimList _, written⟩
  · rintro ⟨body, padded, written⟩
    rw [Text.trimList_of_padded padded written.nonempty written.plain]
    exact written

theorem parseBase_eq_ok_iff {text : String} :
    parseBase text = .ok word ↔ parseOffset text = .ok word ∧ word ≠ 0 := by
  rw [parseBase, Outcome.bind_eq_ok_iff]
  constructor
  · rintro ⟨offset, read, kept⟩
    split at kept
    · cases kept
    next nonzero =>
      cases kept
      exact ⟨read, nonzero⟩
  · rintro ⟨read, nonzero⟩
    exact ⟨word, read, if_neg nonzero⟩

theorem spellsOffset_ofList (written : WritesOffset chars number) :
    SpellsOffset (String.ofList chars) number :=
  ⟨chars, ⟨[], [], by simp, by simp, by simp⟩, written⟩

/-- A text is read as an offset exactly if it spells one that is a word, and then as that word; any
other text is refused. A base is an offset that is not zero. Of the two written forms of a word,
that of the tables and the decimal one, either is read as the word. -/
theorem parseOffset_grammar (text : String) :
    (∀ number, (∃ offset, parseOffset text = .ok offset ∧ offset.toNat = number) ↔
      SpellsOffset text number ∧ number < 2 ^ 32) ∧
    ((∃ refusal, parseOffset text = .error refusal) ↔
      ¬ ∃ number, SpellsOffset text number ∧ number < 2 ^ 32) ∧
    (∀ base, parseBase text = .ok base ↔ parseOffset text = .ok base ∧ base ≠ 0) ∧
    ∀ word : UInt32, parseOffset (Numeral.hexadecimal word.toNat) = .ok word ∧
      parseOffset (Numeral.decimal word.toNat) = .ok word := by
  have accepted : ∀ number, (∃ offset, parseOffset text = .ok offset ∧ offset.toNat = number) ↔
      SpellsOffset text number ∧ number < 2 ^ 32 := by
    intro number
    constructor
    · rintro ⟨offset, read, rfl⟩
      exact ⟨parseOffset_eq_ok_iff.1 read, offset.toNat_lt⟩
    · rintro ⟨spelt, small⟩
      obtain ⟨offset, rfl⟩ := Word.exists_toNat_eq small
      exact ⟨offset, parseOffset_eq_ok_iff.2 spelt, rfl⟩
  refine ⟨accepted, ?_, fun base => parseBase_eq_ok_iff, fun word => ⟨?_, ?_⟩⟩
  · simp only [← accepted]
    cases parseOffset text <;> simp
  · have digits := Numeral.writes_digits (by omega : 2 ≤ 16) (by omega) word.toNat
    exact parseOffset_eq_ok_iff.2 (spellsOffset_ofList (.hexadecimal (.inl rfl) (.inl digits)))
  · have digits := Numeral.writes_digits (by omega : 2 ≤ 10) (by omega) word.toNat
    exact parseOffset_eq_ok_iff.2 (spellsOffset_ofList (.decimal (.inl digits)))

example : parseOffset " 0X+0ff\u3000" = .ok 255 ∧
    parseOffset "0x" = .error (.invalid "0x" .empty) := by
  constructor <;> cbv

end Offsets

end ClassTable
