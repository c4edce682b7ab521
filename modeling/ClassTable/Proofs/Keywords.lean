import ClassTable.AccessFlags
import ClassTable.Proofs.Outcome
import Mathlib

/-!
Access flags as sets of bits. A keyword names the modifier that it spells, and the flags of a list of
keywords have the bits of all the modifiers named, so neither the order of the keywords nor their
number matters.
-/

namespace ClassTable.AccessFlags

def Has (flags : AccessFlags) (bit : Nat) : Prop :=
  flags.bits.toNat.testBit bit = true

instance (flags : AccessFlags) (bit : Nat) : Decidable (flags.Has bit) :=
  inferInstanceAs (Decidable (flags.bits.toNat.testBit bit = true))

theorem eq_of_has_iff {left right : AccessFlags} (same : ∀ bit, left.Has bit ↔ right.Has bit) :
    left = right := by
  have bits : left.bits = right.bits := by
    apply UInt32.toNat_inj.1
    apply Nat.eq_of_testBit_eq
    intro bit
    exact Bool.eq_iff_iff.2 (same bit)
  cases left
  cases right
  cases bits
  rfl

theorem has_none_iff {bit : Nat} : none.Has bit ↔ False := by
  simp [Has, none]

theorem has_union_iff {left right : AccessFlags} {bit : Nat} :
    (left.union right).Has bit ↔ left.Has bit ∨ right.Has bit := by
  simp [Has, union, UInt32.toNat_or, Nat.testBit_or]

theorem contains_iff {flags other : AccessFlags} :
    flags.contains other = true ↔ ∀ bit, other.Has bit → flags.Has bit := by
  rw [contains, beq_iff_eq, ← UInt32.toNat_inj, UInt32.toNat_and]
  constructor
  · intro covered bit set
    rw [Has, ← covered, Nat.testBit_and, Bool.and_eq_true] at set
    exact set.1
  · intro covered
    apply Nat.eq_of_testBit_eq
    intro bit
    rw [Nat.testBit_and]
    cases set : other.bits.toNat.testBit bit with
    | false => exact Bool.and_false _
    | true => rw [Bool.and_true]; exact covered bit set

theorem intersects_iff {flags other : AccessFlags} :
    flags.intersects other = true ↔ ∃ bit, other.Has bit ∧ flags.Has bit := by
  rw [intersects, bne_iff_ne, ne_eq, ← UInt32.toNat_inj, UInt32.toNat_and, UInt32.toNat_zero]
  constructor
  · intro nonzero
    obtain ⟨bit, set⟩ := Nat.exists_testBit_of_ne_zero nonzero
    rw [Nat.testBit_and, Bool.and_eq_true] at set
    exact ⟨bit, set.2, set.1⟩
  · rintro ⟨bit, otherSet, set⟩ zero
    have both : (flags.bits.toNat &&& other.bits.toNat).testBit bit = true := by
      rw [Nat.testBit_and, Bool.and_eq_true]
      exact ⟨set, otherSet⟩
    rw [zero, Nat.zero_testBit] at both
    cases both

theorem has_iff_eq {flag : AccessFlags} {place bit : Nat} (power : flag.bits.toNat = 2 ^ place) :
    flag.Has bit ↔ bit = place := by
  rw [Has, power, Nat.testBit_two_pow, decide_eq_true_iff]
  exact eq_comm

theorem contains_iff_has {flags flag : AccessFlags} {place : Nat}
    (power : flag.bits.toNat = 2 ^ place) : flags.contains flag = true ↔ flags.Has place := by
  simp only [contains_iff, has_iff_eq power, forall_eq]

/-! What keywords are written for. -/

/-- A keyword spells the name of a modifier, but for white space around it and the case of its
ASCII letters. -/
def Spells (keyword name : String) : Prop :=
  (Text.trimList keyword.toList).map Char.toLower = name.toList

instance (keyword name : String) : Decidable (Spells keyword name) :=
  inferInstanceAs (Decidable (_ = _))

def IsModifier (keyword : String) : Prop :=
  ∃ modifier ∈ AccessFlags.keywords, Spells keyword modifier.1

instance (keyword : String) : Decidable (IsModifier keyword) :=
  inferInstanceAs (Decidable (∃ modifier ∈ AccessFlags.keywords, Spells keyword modifier.1))

def Known (keywords : List String) : Prop :=
  ∀ keyword ∈ keywords, IsModifier keyword

instance (keywords : List String) : Decidable (Known keywords) :=
  inferInstanceAs (Decidable (∀ keyword ∈ keywords, IsModifier keyword))

/-- The bits that the keywords name are set, and no other. -/
def IsUnion (keywords : List String) (flags : AccessFlags) : Prop :=
  ∀ bit, flags.Has bit ↔ ∃ keyword ∈ keywords, ∃ modifier ∈ AccessFlags.keywords,
    Spells keyword modifier.1 ∧ modifier.2.Has bit

section Reading

variable {keyword : String} {keywords : List String} {start flag flags : AccessFlags} {bit : Nat}

theorem named?_eq_some_iff : named? keyword = some flag ↔
    ∃ name, (name, flag) ∈ AccessFlags.keywords ∧ Spells keyword name := by
  -- No two modifiers share a name, so one is found wherever it stands in the table.
  have distinct : (AccessFlags.keywords.map Prod.fst).Nodup := by decide
  have spells : ∀ name, Spells keyword name ↔
      String.ofList ((Text.trimList keyword.toList).map Char.toLower) = name := by
    intro name
    rw [Spells, ← String.ofList_inj, String.ofList_toList]
  rw [named?, List.lookup_eq_some_iff]
  simp only [spells]
  constructor
  · rintro ⟨before, after, split, _⟩
    exact ⟨_, split ▸ List.mem_append_right before List.mem_cons_self, rfl⟩
  · rintro ⟨name, listed, rfl⟩
    obtain ⟨before, after, split⟩ := List.append_of_mem listed
    refine ⟨before, after, split, fun earlier member => ?_⟩
    rw [split, List.map_append, List.map_cons, List.nodup_append] at distinct
    exact bne_iff_ne.2 (distinct.2.2 _ (List.mem_map_of_mem member) _ List.mem_cons_self).symm

theorem ofKeyword_eq_ok_iff : ofKeyword keyword = .ok flag ↔
    ∃ name, (name, flag) ∈ AccessFlags.keywords ∧ Spells keyword name := by
  rw [ofKeyword, ← named?_eq_some_iff]
  cases named? keyword <;> simp

theorem exists_ofKeyword_iff : (∃ flag, ofKeyword keyword = .ok flag) ↔ IsModifier keyword := by
  simp only [ofKeyword_eq_ok_iff, IsModifier, Prod.exists]
  exact exists_comm

theorem exists_ofKeywords_iff : (∃ flags, ofKeywords keywords = .ok flags) ↔ Known keywords := by
  rw [ofKeywords, Known]
  generalize none = start
  induction keywords generalizing start with
  | nil => simp [pure, Except.pure]
  | cons keyword rest ih =>
      rw [List.foldlM_cons, List.forall_mem_cons, Outcome.exists_bind_eq_ok_iff,
        ← exists_ofKeyword_iff]
      constructor
      · rintro ⟨flags, stepped, remaining⟩
        obtain ⟨flag, read, _⟩ := Outcome.map_eq_ok_iff.1 stepped
        exact ⟨⟨flag, read⟩, (ih flags).1 remaining⟩
      · rintro ⟨⟨flag, read⟩, others⟩
        exact ⟨start.union flag, Outcome.map_eq_ok_iff.2 ⟨flag, read, rfl⟩, (ih _).2 others⟩

/-- A keyword spells one modifier only, so its bits are those of every modifier that it spells. -/
theorem has_ofKeyword_iff (read : ofKeyword keyword = .ok flag) : flag.Has bit ↔
    ∃ modifier ∈ AccessFlags.keywords, Spells keyword modifier.1 ∧ modifier.2.Has bit := by
  constructor
  · intro set
    obtain ⟨name, listed, spelt⟩ := ofKeyword_eq_ok_iff.1 read
    exact ⟨(name, flag), listed, spelt, set⟩
  · rintro ⟨⟨name, other⟩, listed, spelt, set⟩
    cases read.symm.trans (ofKeyword_eq_ok_iff.2 ⟨name, listed, spelt⟩)
    exact set

theorem has_of_foldlM_union
    (read : keywords.foldlM (fun flags keyword => flags.union <$> ofKeyword keyword) start =
      .ok flags) :
    flags.Has bit ↔ start.Has bit ∨ ∃ keyword ∈ keywords, ∃ modifier ∈ AccessFlags.keywords,
      Spells keyword modifier.1 ∧ modifier.2.Has bit := by
  induction keywords generalizing start with
  | nil =>
      cases read
      simp
  | cons keyword rest ih =>
      rw [List.foldlM_cons] at read
      obtain ⟨next, stepped, remaining⟩ := Outcome.bind_eq_ok_iff.1 read
      obtain ⟨flag, known, rfl⟩ := Outcome.map_eq_ok_iff.1 stepped
      rw [ih remaining, has_union_iff, or_assoc, List.exists_mem_cons_iff, has_ofKeyword_iff known]

theorem isUnion_of_ofKeywords (read : ofKeywords keywords = .ok flags) :
    IsUnion keywords flags := by
  intro bit
  rw [has_of_foldlM_union read, has_none_iff, false_or]

theorem contains_staticBit_iff (read : ofKeywords keywords = .ok flags) :
    flags.contains .staticBit = true ↔ ∃ keyword ∈ keywords, Spells keyword "static" := by
  have own : staticBit.bits.toNat = 2 ^ 3 := rfl
  have only : ∀ modifier ∈ AccessFlags.keywords, modifier.2.Has 3 → modifier.1 = "static" := by
    decide
  rw [contains_iff_has own, isUnion_of_ofKeywords read]
  refine exists_congr fun keyword => and_congr_right fun _ => ?_
  constructor
  · rintro ⟨modifier, listed, spelt, set⟩
    rw [only modifier listed set] at spelt
    exact spelt
  · intro spelt
    exact ⟨("static", staticBit), by decide, spelt, (has_iff_eq own).2 rfl⟩

end Reading

end ClassTable.AccessFlags
