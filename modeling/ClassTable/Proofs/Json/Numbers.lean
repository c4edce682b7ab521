import ClassTable.Json.Format
import Mathlib.Data.List.TakeWhile

/-!
Written integers are numbers of the notation, and are read back.
-/

namespace ClassTable

namespace Numeral

theorem isDigit_digitChar {value : Nat} (below : value < 10) : (digitChar value).isDigit = true := by
  have known : ∀ value < 10, (digitChar value).isDigit = true := by decide
  exact known value below

theorem eq_zero_of_digitChar {value : Nat} (below : value < 10) (zero : digitChar value = '0') :
    value = 0 := by
  have known : ∀ value < 10, digitChar value = '0' → value = 0 := by decide
  exact known value below zero

theorem isDigit_of_mem_digits (value : Nat) : ∀ char ∈ digits 10 value, char.isDigit = true := by
  induction value using Nat.strongRecOn with
  | ind value ih =>
      intro char member
      rw [digits] at member
      split at member
      · rw [List.mem_singleton.1 member]
        exact isDigit_digitChar (by omega)
      · rcases List.mem_append.1 member with leading | last
        · exact ih (value / 10) (by omega) char leading
        · rw [List.mem_singleton.1 last]
          exact isDigit_digitChar (by omega)

theorem exists_digits_eq_cons (value : Nat) :
    ∃ first rest, digits 10 value = first :: rest ∧ (first = '0' → value = 0) := by
  induction value using Nat.strongRecOn with
  | ind value ih =>
      rw [digits]
      split
      · exact ⟨_, [], rfl, eq_zero_of_digitChar (by omega)⟩
      · obtain ⟨first, rest, begun, zero⟩ := ih (value / 10) (by omega)
        rw [begun, List.cons_append]
        refine ⟨first, _, rfl, fun same => ?_⟩
        have := zero same
        omega

theorem digits_zero : digits 10 0 = ['0'] := by
  rw [digits]
  rfl

theorem ne_minus_of_isDigit {char : Char} (digit : char.isDigit = true) : char ≠ '-' := by
  rintro rfl
  cases digit

end Numeral

namespace Json

open Numeral (digits)

theorem afterDigits?_digits (value : Nat) : afterDigits? (digits 10 value) = some [] := by
  have each := Numeral.isDigit_of_mem_digits value
  obtain ⟨first, rest, begun, _⟩ := Numeral.exists_digits_eq_cons value
  rw [begun] at each ⊢
  obtain ⟨digit, others⟩ := List.forall_mem_cons.1 each
  rw [afterDigits?, if_pos digit, List.dropWhile_eq_nil_iff.2 others]

theorem afterInteger?_digits (value : Nat) : afterInteger? (digits 10 value) = some [] := by
  have whole := afterDigits?_digits value
  have each := Numeral.isDigit_of_mem_digits value
  obtain ⟨first, rest, begun, zero⟩ := Numeral.exists_digits_eq_cons value
  by_cases nothing : value = 0
  · rw [nothing, Numeral.digits_zero]
    rfl
  · rw [begun] at whole each ⊢
    have unsigned := Numeral.ne_minus_of_isDigit (List.forall_mem_cons.1 each).1
    rw [afterInteger?, whole]
    · exact fun _ same => unsigned (List.cons.inj same).1
    · exact fun _ same => unsigned (List.cons.inj same).1
    · exact fun _ same => nothing (zero (List.cons.inj same).1)

theorem afterInteger?_negative {value : Nat} (positive : 0 < value) :
    afterInteger? ('-' :: digits 10 value) = some [] := by
  have whole := afterDigits?_digits value
  obtain ⟨first, rest, begun, zero⟩ := Numeral.exists_digits_eq_cons value
  rw [begun] at whole ⊢
  rw [afterInteger?, whole]
  intro _ same
  have := zero (List.cons.inj same).1
  omega

theorem isNumber_of_afterInteger? {literal : List Char} (whole : afterInteger? literal = some []) :
    isNumber literal = true := by
  rw [isNumber, whole]
  rfl

theorem isNumber_signed (value : Int) : isNumber (Numeral.signed value).toList = true := by
  cases value with
  | ofNat magnitude =>
      rw [Numeral.signed, Numeral.decimal, String.toList_ofList]
      exact isNumber_of_afterInteger? (afterInteger?_digits magnitude)
  | negSucc below =>
      rw [Numeral.signed, String.toList_ofList]
      exact isNumber_of_afterInteger? (afterInteger?_negative (by omega))

theorem integerOf?_signed (value : Int) : integerOf? (Numeral.signed value) = some value := by
  have read : ∀ magnitude, Numeral.value? 10 (digits 10 magnitude) = some magnitude :=
    Numeral.value?_digits (by omega) (by omega)
  cases value with
  | ofNat magnitude =>
      have each := Numeral.isDigit_of_mem_digits magnitude
      have whole := read magnitude
      obtain ⟨first, rest, begun, _⟩ := Numeral.exists_digits_eq_cons magnitude
      rw [integerOf?, Numeral.signed, Numeral.decimal, String.toList_ofList]
      rw [begun] at each whole ⊢
      split
      next digits same =>
        have unsigned := Numeral.ne_minus_of_isDigit (List.forall_mem_cons.1 each).1
        cases unsigned (List.cons.inj same).1
      · rw [whole]
        rfl
  | negSucc below =>
      rw [integerOf?, Numeral.signed, String.toList_ofList]
      simp only [read, Option.bind_eq_bind, Option.bind_some]
      rw [if_neg (by omega)]
      rfl

end Json

end ClassTable
