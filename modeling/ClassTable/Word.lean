/-!
Checked arithmetic on 32-bit words: a result that does not fit is no result. The lemmas restate each
operation in natural numbers.
-/

namespace ClassTable.Word

abbrev size : Nat := UInt32.size

def ofNat? (value : Nat) : Option UInt32 :=
  if fits : value < size then some (UInt32.ofNatLT value fits) else none

def checkedAdd (left right : UInt32) : Option UInt32 :=
  ofNat? (left.toNat + right.toNat)

def checkedMul (left right : UInt32) : Option UInt32 :=
  ofNat? (left.toNat * right.toNat)

abbrev alignment : Nat := 4

def alignUp (value : Nat) : Nat :=
  (value + (alignment - 1)) / alignment * alignment

def lowBits : UInt32 := 3

/-- The least multiple of the alignment that is not below a word, unless it overflows: the low bits
of the word are filled up and then cleared. -/
def checkedAlign (value : UInt32) : Option UInt32 :=
  (checkedAdd value lowBits).map fun padded => padded &&& ~~~lowBits

theorem ofNat?_eq_some_iff {value : Nat} {word : UInt32} :
    ofNat? value = some word ↔ word.toNat = value := by
  unfold ofNat?
  split
  next fits =>
    simp only [Option.some.injEq]
    constructor
    · rintro rfl; simp
    · rintro rfl; simp
  next large =>
    simp only [reduceCtorEq, false_iff]
    rintro rfl
    exact large word.toNat_lt

theorem ofNat?_eq_none_iff {value : Nat} : ofNat? value = none ↔ size ≤ value := by
  unfold ofNat?
  split <;> simp_all

theorem exists_toNat_eq {value : Nat} (small : value < size) : ∃ word : UInt32, word.toNat = value :=
  ⟨.ofNatLT value small, UInt32.toNat_ofNatLT⟩

@[simp] theorem ofNat?_toNat (word : UInt32) : ofNat? word.toNat = some word :=
  ofNat?_eq_some_iff.2 rfl

theorem checkedAdd_eq_some_iff {left right sum : UInt32} :
    checkedAdd left right = some sum ↔ sum.toNat = left.toNat + right.toNat :=
  ofNat?_eq_some_iff

theorem checkedAdd_eq_none_iff {left right : UInt32} :
    checkedAdd left right = none ↔ size ≤ left.toNat + right.toNat :=
  ofNat?_eq_none_iff

theorem checkedMul_eq_some_iff {left right product : UInt32} :
    checkedMul left right = some product ↔ product.toNat = left.toNat * right.toNat :=
  ofNat?_eq_some_iff

theorem toNat_and_not_lowBits (word : UInt32) :
    (word &&& ~~~lowBits).toNat = word.toNat / alignment * alignment := by
  have mask : (~~~lowBits).toNat = 2 ^ 32 - (3 + 1) := rfl
  apply Nat.eq_of_testBit_eq
  intro place
  rw [UInt32.toNat_and, show alignment = 2 ^ 2 from rfl, Nat.testBit_and, Nat.testBit_mul_two_pow,
    Nat.testBit_div_two_pow, mask, Nat.testBit_two_pow_sub_succ (by decide)]
  by_cases low : 2 ≤ place
  · rw [Nat.sub_add_cancel low]
    have clear : Nat.testBit 3 place = false :=
      Nat.testBit_lt_two_pow (Nat.lt_of_lt_of_le (by decide) (Nat.pow_le_pow_right (by decide) low))
    by_cases narrow : place < 32
    · simp [low, clear, narrow]
    · have beyond : word.toNat.testBit place = false :=
        Nat.testBit_lt_two_pow (Nat.lt_of_lt_of_le word.toNat_lt
          (Nat.pow_le_pow_right (by decide) (by omega)))
      simp [beyond]
  · have present : Nat.testBit 3 place = true := by
      rcases (by omega : place = 0 ∨ place = 1) with rfl | rfl <;> rfl
    simp [low, present]

theorem checkedAlign_eq_some_iff {value aligned : UInt32} :
    checkedAlign value = some aligned ↔ aligned.toNat = alignUp value.toNat := by
  have filled : ∀ padded, checkedAdd value lowBits = some padded ↔
      padded.toNat = value.toNat + (alignment - 1) := fun padded => checkedAdd_eq_some_iff
  simp only [checkedAlign, Option.map_eq_some_iff, filled, alignUp]
  constructor
  · rintro ⟨padded, sum, rfl⟩
    rw [toNat_and_not_lowBits, sum]
  · intro rounded
    have bound := aligned.toNat_lt
    -- The word size is a multiple of the alignment, so the sum stays below it with its multiple.
    have fits : value.toNat + (alignment - 1) < UInt32.size := by
      simp only [alignment, UInt32.size] at rounded bound ⊢
      omega
    refine ⟨UInt32.ofNatLT _ fits, UInt32.toNat_ofNatLT, ?_⟩
    apply UInt32.toNat_inj.1
    rw [toNat_and_not_lowBits, UInt32.toNat_ofNatLT, rounded]

theorem size_le_alignUp {value : UInt32} (overflow : checkedAlign value = none) :
    size ≤ alignUp value.toNat := by
  by_cases small : alignUp value.toNat < size
  · obtain ⟨aligned, exactly⟩ := exists_toNat_eq small
    rw [checkedAlign_eq_some_iff.2 exactly] at overflow
    cases overflow
  · exact Nat.le_of_not_lt small

theorem le_alignUp (value : Nat) : value ≤ alignUp value := by
  simp only [alignUp, alignment]; omega

theorem alignUp_lt (value : Nat) : alignUp value < value + alignment := by
  simp only [alignUp, alignment]; omega

theorem alignUp_le {value multiple : Nat} (above : value ≤ multiple)
    (divides : alignment ∣ multiple) : alignUp value ≤ multiple := by
  obtain ⟨factor, rfl⟩ := divides
  simp only [alignUp, alignment] at above ⊢
  omega

theorem alignment_dvd_alignUp (value : Nat) : alignment ∣ alignUp value :=
  Nat.dvd_mul_left _ _

end ClassTable.Word
