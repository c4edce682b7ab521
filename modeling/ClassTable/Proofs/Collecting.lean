import ClassTable.Member
import ClassTable.Proofs.Stability
import Mathlib.Data.List.Permutation

/-!
Sets as what is left of a list when it is collected. A set is the collection of its own items, and a
merged set that of the items of both sets, one after the other. Two collections are equal when the
lists have the same items up to comparison, in whatever order and however often.
-/

namespace ClassTable.SortedSet

variable {α : Type} [Ord α] [Std.TransOrd α] {list left right : List α} {item : α}

theorem ofList_toList (set : SortedSet α) : ofList set.toList = set := by
  have sorted : set.toList.Pairwise fun left right => (compare left right).isLE = true :=
    set.pairwise_toList.imp fun below => by rw [below]; rfl
  have distinct : set.toList.Pairwise fun left right => compare left right ≠ .eq :=
    set.pairwise_toList.imp fun below => by rw [below]; simp
  apply ext_toList
  rw [toList_ofList_of_pairwise sorted, dropRepeats_of_pairwise distinct]

theorem mem_toList_iff (set : SortedSet α) :
    item ∈ set.toList ↔
      set.toList.find? (fun other => compare other item == .eq) = some item := by
  rw [← mem_ofList_iff, ofList_toList]

theorem eq_of_compare_eq {set : SortedSet α} {first second : α} (firstMember : first ∈ set.toList)
    (secondMember : second ∈ set.toList) (equal : compare first second = .eq) :
    first = second := by
  have firstFound := (mem_toList_iff set).1 firstMember
  simp only [Std.TransCmp.congr_right equal] at firstFound
  exact Option.some.inj (firstFound.symm.trans ((mem_toList_iff set).1 secondMember))

theorem merged_eq_ofList (left right : SortedSet α) :
    left.merged right = ofList (left.toList ++ right.toList) := by
  apply eq_of_mem_iff
  intro item
  rw [mem_merged_iff, mem_ofList_iff, List.find?_append, mem_toList_iff left,
    mem_toList_iff right]
  -- The merge takes the left copy of an item, and so does the search for the first one.
  cases found : left.toList.find? fun other => compare other item == .eq with
  | some first =>
      have member : Listed left.toList item :=
        ⟨first, List.mem_of_find?_eq_some found, by simpa using List.find?_some found⟩
      simp [member]
  | none =>
      have absent : ¬ Listed left.toList item := by
        rintro ⟨first, member, equal⟩
        simpa [equal] using List.find?_eq_none.1 found first member
      simp [absent]

theorem listed_merged_iff {left right : SortedSet α} :
    Listed (left.merged right).toList item ↔
      Listed left.toList item ∨ Listed right.toList item := by
  rw [merged_eq_ofList, listed_ofList_iff, listed_append_iff]

theorem not_listed_of_lt {first : α} {rest : List α}
    (ascending : (first :: rest).Pairwise fun left right => compare left right = .lt)
    (below : compare item first = .lt) : ¬ Listed (first :: rest) item := by
  have under : ∀ other ∈ first :: rest, compare item other = .lt := by
    refine List.forall_mem_cons.2 ⟨below, fun other later => ?_⟩
    exact Std.TransCmp.lt_trans below ((List.pairwise_cons.1 ascending).1 other later)
  rintro ⟨other, member, equal⟩
  rw [Std.OrientedCmp.gt_of_lt (under other member)] at equal
  cases equal

theorem listed_tail_iff {first : α} {rest : List α}
    (ascending : (first :: rest).Pairwise fun left right => compare left right = .lt) :
    Listed rest item ↔ Listed (first :: rest) item ∧ compare first item ≠ .eq := by
  rw [listed_cons_iff]
  constructor
  · rintro ⟨other, member, equal⟩
    have below := (List.pairwise_cons.1 ascending).1 other member
    rw [Std.TransCmp.congr_right equal] at below
    exact ⟨.inr ⟨other, member, equal⟩, by simp [below]⟩
  · rintro ⟨equal | listed, different⟩
    · exact absurd equal different
    · exact listed

theorem forall₂_of_listed_iff
    (leftAscending : left.Pairwise fun left right => compare left right = .lt)
    (rightAscending : right.Pairwise fun left right => compare left right = .lt)
    (same : ∀ item, Listed left item ↔ Listed right item) :
    List.Forall₂ (fun left right => compare left right = .eq) left right := by
  induction left generalizing right with
  | nil =>
      cases right with
      | nil => exact .nil
      | cons first rest =>
          have listed := (same first).2 ⟨first, List.mem_cons_self, Std.ReflCmp.compare_self⟩
          simp [Listed] at listed
  | cons first rest ih =>
      have firstListed := (same first).1 ⟨first, List.mem_cons_self, Std.ReflCmp.compare_self⟩
      cases right with
      | nil => simp [Listed] at firstListed
      | cons other others =>
          have otherListed := (same other).2 ⟨other, List.mem_cons_self, Std.ReflCmp.compare_self⟩
          -- Neither list begins below the other, for what it begins with is in the other one too.
          have equal : compare first other = .eq := by
            cases outcome : compare first other with
            | eq => rfl
            | lt => exact absurd firstListed (not_listed_of_lt rightAscending outcome)
            | gt =>
                have below := Std.OrientedCmp.lt_of_gt outcome
                exact absurd otherListed (not_listed_of_lt leftAscending below)
          refine .cons equal (ih leftAscending.of_cons rightAscending.of_cons fun item => ?_)
          rw [listed_tail_iff leftAscending, listed_tail_iff rightAscending, same,
            Std.TransCmp.congr_left equal]

theorem listed_iff_of_forall₂
    (same : List.Forall₂ (fun left right => compare left right = .eq) left right) :
    Listed left item ↔ Listed right item := by
  induction same with
  | nil => rfl
  | cons equal _ ih => rw [listed_cons_iff, listed_cons_iff, Std.TransCmp.congr_left equal, ih]

omit [Std.TransOrd α] in
theorem beq_iff_forall₂ {left right : SortedSet α} : (left == right) = true ↔
    List.Forall₂ (fun left right => compare left right = .eq) left.toList right.toList := by
  change sameItems left right = true ↔ _
  rw [sameItems, List.forall₂_iff_zip, length_toList, length_toList]
  simp [size]

theorem beq_iff_listed {left right : SortedSet α} :
    (left == right) = true ↔ ∀ item, Listed left.toList item ↔ Listed right.toList item := by
  rw [beq_iff_forall₂]
  exact ⟨fun same _ => listed_iff_of_forall₂ same,
    forall₂_of_listed_iff left.pairwise_toList right.pairwise_toList⟩

variable [BEq α] [Std.LawfulBEqOrd α]

omit [Std.TransOrd α] in
theorem listed_iff_beq : Listed list item ↔ ∃ given ∈ list, (given == item) = true := by
  simp only [Listed, Std.LawfulBEqCmp.compare_eq_iff_beq]

theorem mem_ofList_iff_first : item ∈ (ofList list).toList ↔
    ∃ before after, list = before ++ item :: after ∧
      ∀ earlier ∈ before, (earlier == item) = false := by
  rw [mem_ofList_iff, List.find?_eq_some_iff_append]
  simp [Std.LawfulBEqCmp.compare_eq_iff_beq]

/-- A list that is collected ascends strictly, has an item for exactly the listed ones, and keeps of
equal items the one that is listed first. Collecting a set gives that set. What is collected from
two lists is equal exactly when an item that is in one list has an equal one in the other. -/
theorem ofList_collects (list : List α) :
    ((ofList list).toList.Pairwise fun first second => compare first second = .lt) ∧
    (∀ item, (∃ kept ∈ (ofList list).toList, (kept == item) = true) ↔
      ∃ given ∈ list, (given == item) = true) ∧
    (∀ item, item ∈ (ofList list).toList ↔ ∃ before after, list = before ++ item :: after ∧
      ∀ earlier ∈ before, (earlier == item) = false) ∧
    (∀ set : SortedSet α, ofList set.toList = set) ∧
    ∀ other : List α, (ofList list == ofList other) = true ↔
      ∀ item, (∃ given ∈ list, (given == item) = true) ↔
        ∃ given ∈ other, (given == item) = true := by
  refine ⟨pairwise_toList _, fun item => ?_, fun item => mem_ofList_iff_first, ofList_toList,
    fun other => ?_⟩
  · rw [← listed_iff_beq, listed_ofList_iff, listed_iff_beq]
  · simp only [beq_iff_listed, listed_ofList_iff, ← listed_iff_beq]

def repeatedMethods : List Method :=
  let method : Method :=
    { definingClass := ⟨"La;"⟩, name := "m", prototype := ⟨[], ⟨"V"⟩⟩, flags := .privateBit }
  [method, { method with name := "k" }, { method with flags := .publicBit }]

/-- The first copy of a method is collected, and from the reversed list the other one, into an equal
set. -/
theorem repeatedMethods_collected :
    (ofList repeatedMethods).toList.map (fun method => (method.name, method.flags)) =
        [("k", .privateBit), ("m", .privateBit)] ∧
      (ofList repeatedMethods.reverse).toList.map (fun method => (method.name, method.flags)) =
        [("k", .privateBit), ("m", .publicBit)] ∧
      (ofList repeatedMethods == ofList repeatedMethods.reverse) = true := by
  refine ⟨by cbv, by cbv, ?_⟩
  exact ((ofList_collects repeatedMethods).2.2.2.2 repeatedMethods.reverse).2 (by simp)

/-- A merged set is what is collected from the items of the left set and then of the right one, down
to what comparison does not see. It ascends strictly, has one item for each that the left or the
right set has an equal one of, and it is the left set's item where that has one. -/
theorem merged_collects (left right : SortedSet α) :
    left.merged right = ofList (left.toList ++ right.toList) ∧
    ((left.merged right).toList.Pairwise fun first second => compare first second = .lt) ∧
    (∀ item, (∃! kept, kept ∈ (left.merged right).toList ∧ (kept == item) = true) ↔
      (∃ given ∈ left.toList, (given == item) = true) ∨
        ∃ given ∈ right.toList, (given == item) = true) ∧
    ∀ item, item ∈ (left.merged right).toList ↔ item ∈ left.toList ∨
      item ∈ right.toList ∧ ¬ ∃ given ∈ left.toList, (given == item) = true := by
  refine ⟨merged_eq_ofList left right, pairwise_toList _, fun item => ?_, fun item => ?_⟩
  · rw [← listed_iff_beq, ← listed_iff_beq, ← listed_merged_iff]
    constructor
    · rintro ⟨kept, ⟨member, same⟩, _⟩
      exact ⟨kept, member, Std.LawfulBEqCmp.compare_eq_iff_beq.2 same⟩
    · rintro ⟨kept, member, equal⟩
      refine ⟨kept, ⟨member, Std.LawfulBEqCmp.compare_eq_iff_beq.1 equal⟩, ?_⟩
      rintro other ⟨otherMember, same⟩
      have otherEqual : compare other item = .eq := Std.LawfulBEqCmp.compare_eq_iff_beq.2 same
      exact eq_of_compare_eq otherMember member
        (Std.TransCmp.eq_trans otherEqual (Std.OrientedCmp.eq_symm equal))
  · rw [mem_merged_iff, listed_iff_beq]

def annotatedFields : SortedSet Field :=
  let field : Field :=
    { definingClass := ⟨"La;"⟩, name := "f", type := ⟨"I"⟩, flags := .staticBit,
      annotations := [⟨"LTag;"⟩] }
  ofList [field, { field with name := "h", annotations := [] }]

def bareFields : SortedSet Field :=
  let field : Field :=
    { definingClass := ⟨"La;"⟩, name := "f", type := ⟨"I"⟩, flags := .none }
  ofList [field, { field with name := "g" }]

theorem annotatedFields_merged :
    annotatedFields.merged bareFields =
        ofList (annotatedFields.toList ++ bareFields.toList) ∧
      (annotatedFields.merged bareFields).toList.map
          (fun field => (field.name, field.flags, field.annotations)) =
        [("f", .staticBit, [⟨"LTag;"⟩]), ("g", .none, []), ("h", .staticBit, [])] :=
  ⟨(merged_collects annotatedFields bareFields).1, by cbv⟩

end ClassTable.SortedSet
