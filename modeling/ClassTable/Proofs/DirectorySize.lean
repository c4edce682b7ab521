import ClassTable.ClassDef.Draft
import ClassTable.Proofs.Sets

/-!
The size of an annotation directory, compared with the members that a class holds in its four
groups. The size counts the members of the merged groups. A member that is merged after another one
of its identity is lost there, and if it alone is annotated, its annotations count for nothing.
-/

namespace ClassTable.ClassDef

variable {definition : ClassDef}

def groupedAnnotations (definition : ClassDef) : Nat :=
  definition.staticFields.toList.countP (fun field => field.annotations ≠ []) +
    definition.instanceFields.toList.countP (fun field => field.annotations ≠ []) +
    (definition.directMethods.toList.countP (fun method => method.annotations ≠ []) +
      definition.virtualMethods.toList.countP fun method => method.annotations ≠ [])

/-- The number of members with annotations that share their identity with a member of the group
before theirs: instance fields with a static field, and virtual methods with a direct one. -/
def hiddenAnnotations (definition : ClassDef) : Nat :=
  (definition.instanceFields.toList.filter fun field =>
      SortedSet.Listed definition.staticFields.toList field).countP
        (fun field => field.annotations ≠ []) +
    (definition.virtualMethods.toList.filter fun method =>
      SortedSet.Listed definition.directMethods.toList method).countP
        fun method => method.annotations ≠ []

def mergedAnnotations (definition : ClassDef) : Nat :=
  definition.allFields.toList.countP (fun field => field.annotations ≠ []) +
    definition.allMethods.toList.countP fun method => method.annotations ≠ []

theorem annotatedMembers_eq_mergedAnnotations (definition : ClassDef) :
    definition.annotatedMembers = definition.mergedAnnotations := by
  have fields : definition.allFields.toList.countP Field.isAnnotated =
      definition.allFields.toList.countP fun field => field.annotations ≠ [] :=
    List.countP_congr fun field _ => Field.isAnnotated_iff.trans decide_eq_true_iff.symm
  have methods : definition.allMethods.toList.countP Method.isAnnotated =
      definition.allMethods.toList.countP fun method => method.annotations ≠ [] :=
    List.countP_congr fun method _ => Method.isAnnotated_iff.trans decide_eq_true_iff.symm
  rw [annotatedMembers, mergedAnnotations, fields, methods]

theorem mergedAnnotations_add_hidden (definition : ClassDef) :
    definition.mergedAnnotations + definition.hiddenAnnotations =
      definition.groupedAnnotations := by
  have fields := SortedSet.countP_merged definition.staticFields definition.instanceFields
    fun field => field.annotations ≠ []
  have methods := SortedSet.countP_merged definition.directMethods definition.virtualMethods
    fun method => method.annotations ≠ []
  rw [mergedAnnotations, hiddenAnnotations, groupedAnnotations, ← fields, ← methods, allFields,
    allMethods]
  omega

theorem directoryBytes?_eq_some_iff {records : Nat} {word : UInt32} :
    directoryBytes? records = some word ↔ word.toNat = 16 + 8 * records := by
  have eight : (8 : UInt32).toNat = 8 := rfl
  have sixteen : (16 : UInt32).toNat = 16 := rfl
  simp only [directoryBytes?, Option.bind_eq_bind, Option.bind_eq_some_iff,
    Word.ofNat?_eq_some_iff, Word.checkedMul_eq_some_iff, Word.checkedAdd_eq_some_iff, eight,
    sixteen]
  constructor
  · rintro ⟨count, counted, bytes, product, sum⟩
    omega
  · -- Neither the count nor the product is more than the sum, so they fit where it does.
    intro exactly
    have bound : word.toNat < Word.size := word.toNat_lt
    obtain ⟨count, counted⟩ := Word.exists_toNat_eq (show records < Word.size by omega)
    obtain ⟨bytes, product⟩ := Word.exists_toNat_eq (show records * 8 < Word.size by omega)
    exact ⟨count, counted, bytes, by rw [product, counted], by omega⟩

theorem directoryBytes?_eq_none_iff {records : Nat} :
    directoryBytes? records = none ↔ Word.size ≤ 16 + 8 * records := by
  rw [← Nat.not_lt, Option.eq_none_iff_forall_ne_some]
  simp only [ne_eq, directoryBytes?_eq_some_iff]
  constructor
  · intro unsaid small
    obtain ⟨word, exactly⟩ := Word.exists_toNat_eq small
    exact unsaid word exactly
  · intro large word exactly
    exact large (exactly ▸ word.toNat_lt)

theorem toNat_directoryBytes (records : Nat) :
    (directoryBytes records).toNat = min (16 + 8 * records) (Word.size - 1) := by
  rw [directoryBytes]
  cases fits : directoryBytes? records with
  | some word =>
      have exactly := directoryBytes?_eq_some_iff.1 fits
      have bound : word.toNat < Word.size := word.toNat_lt
      rw [Option.getD_some, exactly, Nat.min_eq_left (by omega)]
  | none =>
      have large := directoryBytes?_eq_none_iff.1 fits
      rw [Option.getD_none, UInt32.toNat_ofNatLT, Nat.min_eq_right (by omega)]

theorem toNat_directorySize (definition : ClassDef) : definition.directorySize.toNat =
    min (16 + 8 * definition.mergedAnnotations) (Word.size - 1) := by
  rw [directorySize, toNat_directoryBytes, annotatedMembers_eq_mergedAnnotations]

theorem hasDirectory_iff : definition.hasDirectory = true ↔
    definition.annotations ≠ [] ∨ 0 < definition.groupedAnnotations := by
  have annotated : 0 < definition.groupedAnnotations ↔
      (∃ field ∈ definition.staticFields.toList, field.annotations ≠ []) ∨
      (∃ field ∈ definition.instanceFields.toList, field.annotations ≠ []) ∨
      (∃ method ∈ definition.directMethods.toList, method.annotations ≠ []) ∨
      ∃ method ∈ definition.virtualMethods.toList, method.annotations ≠ [] := by
    rw [groupedAnnotations]
    simp only [Nat.add_pos_iff_pos_or_pos, List.countP_pos_iff, decide_eq_true_iff, or_assoc]
  simp only [hasDirectory, annotated, Bool.or_eq_true, List.any_eq_true, Bool.not_eq_true',
    List.isEmpty_eq_false_iff, Field.isAnnotated_iff, Method.isAnnotated_iff, ne_eq, or_assoc]

/-- The size of a directory has room for all annotated members of the four groups, and tells like
them whether there is a directory, unless an annotated member is hidden by one of its identity. -/
theorem directory_of_groups (definition : ClassDef) :
    definition.mergedAnnotations + definition.hiddenAnnotations = definition.groupedAnnotations ∧
    (definition.directorySize.toNat = 16 + 8 * definition.groupedAnnotations ↔
      definition.hiddenAnnotations = 0 ∧ 16 + 8 * definition.groupedAnnotations < Word.size) ∧
    ((definition.hasDirectory = true ↔
        definition.annotations ≠ [] ∨ 16 < definition.directorySize.toNat) ↔
      definition.annotations ≠ [] ∨ 0 < definition.mergedAnnotations ∨
        definition.hiddenAnnotations = 0) := by
  have parts := definition.mergedAnnotations_add_hidden
  rw [hasDirectory_iff, toNat_directorySize]
  refine ⟨parts, ?_, ?_⟩
  · simp only [Word.size, UInt32.size]
    omega
  · by_cases plain : definition.annotations = []
    · simp only [plain, ne_eq, not_true_eq_false, false_or, Word.size, UInt32.size]
      omega
    · simp only [ne_eq, plain, not_false_eq_true, true_or]

def overlaid : Draft where
  type := ⟨"La;"⟩
  flags := .none
  staticFields := [{ definingClass := ⟨"La;"⟩, name := "f", type := ⟨"I"⟩, flags := .staticBit }]
  instanceFields := [{ definingClass := ⟨"La;"⟩, name := "f", type := ⟨"I"⟩, flags := .none,
                       annotations := [⟨"LTag;"⟩] }]

/-- A class whose annotated field is hidden needs a directory, but gets the size of one without
records. -/
theorem overlaid_undercounted : overlaid.build.groupedAnnotations = 1 ∧
    overlaid.build.directorySize = 16 ∧ overlaid.build.hasDirectory = true ∧
    ¬ (overlaid.build.hasDirectory = true ↔
      overlaid.build.annotations ≠ [] ∨ 16 < overlaid.build.directorySize.toNat) := by
  have size : overlaid.build.directorySize = 16 := by cbv
  have needed : overlaid.build.hasDirectory = true := by cbv
  refine ⟨by cbv, size, needed, ?_⟩
  rw [size, needed]
  simp [overlaid, Draft.build, Draft.buildWith]

end ClassTable.ClassDef
