import ClassTable.Slot

/-!
Attempts to assign values to a fresh slot, one after another. The first value that an address of the
kind can have settles the slot, and every other attempt is refused and changes nothing. So the
sentinel stands for unresolved slots alone.
-/

namespace ClassTable

def SlotKind.Admissible : SlotKind → UInt32 → Prop
  | .classDefIndex, _ => True
  | .annotationDirectoryOffset, value => value ≠ 0

instance (kind : SlotKind) : DecidablePred kind.Admissible :=
  fun value => match kind with
  | .classDefIndex => inferInstanceAs (Decidable True)
  | .annotationDirectoryOffset => inferInstanceAs (Decidable (value ≠ 0))

theorem SlotKind.admits_iff {kind : SlotKind} {value : UInt32} :
    kind.admits value = true ↔ kind.Admissible value := by
  cases kind <;> simp [admits, Admissible, noOffset]

def SlotKind.firstAdmissible? (kind : SlotKind) (values : List UInt32) : Option UInt32 :=
  values.find? fun value => decide (kind.Admissible value)

theorem SlotKind.firstAdmissible?_cons (kind : SlotKind) (value : UInt32) (rest : List UInt32) :
    kind.firstAdmissible? (value :: rest) =
      (kind.firstAdmissible? [value]).or (kind.firstAdmissible? rest) := by
  rw [← List.singleton_append, firstAdmissible?, List.find?_append]
  rfl

structure Attempts (kind : SlotKind) where
  answers : List (Except SlotError Unit)
  slot : Slot kind

namespace Slot

variable {kind : SlotKind} {value : UInt32}

/-- The answer to an assignment, and the slot after it. A refusal leaves the slot as it was. -/
def attempt (slot : Slot kind) (value : UInt32) : Except SlotError Unit × Slot kind :=
  match slot.assign value with
  | .error refusal => (.error refusal, slot)
  | .ok assigned => (.ok (), assigned)

def attemptAll (slot : Slot kind) : List UInt32 → Attempts kind
  | [] => ⟨[], slot⟩
  | value :: rest =>
    let later := (slot.attempt value).2.attemptAll rest
    ⟨(slot.attempt value).1 :: later.answers, later.slot⟩

def attempts (kind : SlotKind) (values : List UInt32) : Attempts kind :=
  attemptAll {} values

/-! What one attempt does. -/

theorem attempt_of_inadmissible (sentinel : ¬ kind.Admissible value) (slot : Slot kind) :
    slot.attempt value = (.error (.sentinelValue kind value), slot) := by
  rw [← SlotKind.admits_iff] at sentinel
  rw [attempt, assign, if_neg sentinel]

theorem attempt_of_unresolved {slot : Slot kind} (admissible : kind.Admissible value)
    (free : slot.get? = none) : slot.attempt value = (.ok (), ⟨.resolved value⟩) := by
  rw [attempt, assign, if_pos (SlotKind.admits_iff.2 admissible), get?_eq_none_iff.1 free]

theorem attempt_of_resolved {slot : Slot kind} {kept : UInt32}
    (admissible : kind.Admissible value) (settled : slot.get? = some kept) :
    slot.attempt value = (.error (.alreadyAssigned kind kept value), slot) := by
  rw [attempt, assign, if_pos (SlotKind.admits_iff.2 admissible), get?_eq_some_iff.1 settled]

theorem get?_attempt (slot : Slot kind) (value : UInt32) :
    (slot.attempt value).2.get? = slot.get?.or (kind.firstAdmissible? [value]) := by
  by_cases admissible : kind.Admissible value
  · cases held : slot.get? with
    | none =>
        rw [attempt_of_unresolved admissible held]
        simp [SlotKind.firstAdmissible?, admissible, get?]
    | some kept => rw [attempt_of_resolved admissible held, held, Option.some_or]
  · rw [attempt_of_inadmissible admissible]
    simp [SlotKind.firstAdmissible?, admissible]

/-! What all of them do. -/

theorem get?_attemptAll (slot : Slot kind) (values : List UInt32) :
    (slot.attemptAll values).slot.get? = slot.get?.or (kind.firstAdmissible? values) := by
  induction values generalizing slot with
  | nil => simp [attemptAll, SlotKind.firstAdmissible?]
  | cons value rest ih =>
      rw [attemptAll, ih, get?_attempt, Option.or_assoc, ← SlotKind.firstAdmissible?_cons]

theorem length_answers (slot : Slot kind) (values : List UInt32) :
    (slot.attemptAll values).answers.length = values.length := by
  induction values generalizing slot with
  | nil => rfl
  | cons value rest ih => rw [attemptAll, List.length_cons, ih, List.length_cons]

theorem attemptAll_append (slot : Slot kind) (before after : List UInt32) :
    slot.attemptAll (before ++ after) =
      ⟨(slot.attemptAll before).answers ++
          ((slot.attemptAll before).slot.attemptAll after).answers,
        ((slot.attemptAll before).slot.attemptAll after).slot⟩ := by
  induction before generalizing slot with
  | nil => rfl
  | cons value rest ih => rw [List.cons_append, attemptAll, ih, attemptAll, List.cons_append]

theorem answer_attempts (kind : SlotKind) (before after : List UInt32) (value : UInt32) :
    (attempts kind (before ++ value :: after)).answers[before.length]? =
      some ((attempts kind before).slot.attempt value).1 := by
  have behind : (attemptAll ({} : Slot kind) before).answers.length ≤ before.length :=
    Nat.le_of_eq (length_answers _ _)
  rw [attempts, attemptAll_append, List.getElem?_append_right behind, length_answers, Nat.sub_self]
  rfl

theorem slot_attempts_append (kind : SlotKind) (before : List UInt32) (value : UInt32) :
    (attempts kind (before ++ [value])).slot = ((attempts kind before).slot.attempt value).2 := by
  rw [attempts, attemptAll_append]
  rfl

theorem get?_attempts (kind : SlotKind) (values : List UInt32) :
    (attempts kind values).slot.get? = kind.firstAdmissible? values := by
  rw [attempts, get?_attemptAll]
  rfl

/-! A slot whose value is admissible is told from an unresolved one by its number. -/

def Sound (slot : Slot kind) : Prop :=
  ∀ value, slot.get? = some value → kind.Admissible value

theorem sound_attempts (kind : SlotKind) (values : List UInt32) :
    (attempts kind values).slot.Sound := by
  intro value held
  rw [get?_attempts] at held
  simpa using List.find?_some held

theorem Sound.raw_eq_sentinel_iff {slot : Slot kind} (sound : slot.Sound) :
    slot.raw = kind.sentinel ↔ slot.state = .unresolved := by
  obtain ⟨_ | value⟩ := slot
  · exact iff_of_true rfl rfl
  · have admissible := sound value rfl
    refine iff_of_false ?_ nofun
    -- An index is not negative, and an admissible offset is not zero.
    cases kind with
    | classDefIndex =>
        simp only [raw, SlotKind.sentinel, noIndex]
        omega
    | annotationDirectoryOffset =>
        intro same
        exact admissible (UInt32.toNat_inj.1 (Int.ofNat_inj.1 same))

theorem Sound.get?_eq_of_raw_eq {left right : Slot kind} (leftSound : left.Sound)
    (rightSound : right.Sound) (same : left.raw = right.raw) : left.get? = right.get? := by
  have agree : left.state = .unresolved ↔ right.state = .unresolved := by
    rw [← leftSound.raw_eq_sentinel_iff, ← rightSound.raw_eq_sentinel_iff, same]
  obtain ⟨_ | first⟩ := left
  · rw [get?_eq_none_iff.2 (agree.1 rfl), get?_eq_none_iff.2 rfl]
  · obtain ⟨_ | second⟩ := right
    · cases agree.2 rfl
    · have equal : first = second := UInt32.toNat_inj.1 (Int.ofNat_inj.1 same)
      rw [equal]

/-- Attempts on a fresh slot resolve it to the first admissible value, if there is one. An attempt
with a sentinel is refused as such, one with another value behind the first admissible one is
refused with both of them, and neither changes the slot. At any time the number of the slot is the
sentinel of its kind exactly if the slot is unresolved, so the number tells the value. -/
theorem first_admissible_settles (kind : SlotKind) (values : List UInt32) :
    (attempts kind values).slot.get? = kind.firstAdmissible? values ∧
    (attempts kind values).answers.length = values.length ∧
    (∀ before value after, values = before ++ value :: after →
      (¬ kind.Admissible value →
        (attempts kind values).answers[before.length]? =
            some (.error (.sentinelValue kind value)) ∧
          (attempts kind (before ++ [value])).slot = (attempts kind before).slot) ∧
      (kind.Admissible value → ∀ kept, kind.firstAdmissible? before = some kept →
        (attempts kind values).answers[before.length]? =
            some (.error (.alreadyAssigned kind kept value)) ∧
          (attempts kind (before ++ [value])).slot = (attempts kind before).slot) ∧
      (kind.Admissible value → kind.firstAdmissible? before = none →
        (attempts kind values).answers[before.length]? = some (.ok ()) ∧
          (attempts kind (before ++ [value])).slot.state = .resolved value)) ∧
    ((attempts kind values).slot.raw =
        (match kind with
        | .classDefIndex => -1
        | .annotationDirectoryOffset => 0) ↔
      (attempts kind values).slot.state = .unresolved) ∧
    ∀ others, (attempts kind values).slot.raw = (attempts kind others).slot.raw →
      (attempts kind values).slot.get? = (attempts kind others).slot.get? := by
  refine ⟨get?_attempts kind values, length_answers _ _, ?_, ?_, ?_⟩
  · rintro before value after rfl
    rw [answer_attempts, slot_attempts_append, ← get?_attempts]
    refine ⟨fun sentinel => ?_, fun admissible kept settled => ?_, fun admissible free => ?_⟩
    · rw [attempt_of_inadmissible sentinel]
      exact ⟨rfl, rfl⟩
    · rw [attempt_of_resolved admissible settled]
      exact ⟨rfl, rfl⟩
    · rw [attempt_of_unresolved admissible free]
      exact ⟨rfl, rfl⟩
  · cases kind <;> exact (sound_attempts _ values).raw_eq_sentinel_iff
  · intro others same
    exact (sound_attempts kind values).get?_eq_of_raw_eq (sound_attempts kind others) same

/-- Zero is refused before and after the first other offset. -/
example : (attempts .annotationDirectoryOffset [0, 8, 0, 12]).answers =
    [.error (.sentinelValue .annotationDirectoryOffset 0), .ok (),
      .error (.sentinelValue .annotationDirectoryOffset 0),
      .error (.alreadyAssigned .annotationDirectoryOffset 8 12)] := rfl

end Slot

end ClassTable
