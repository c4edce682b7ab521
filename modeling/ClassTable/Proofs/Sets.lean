import ClassTable.SortedSet
import Mathlib.Data.List.Perm.Basic

/-!
The items of sorted sets. Up to comparison, a set built from a list has the items of the list, and a
merged set has those of the left set and those of the right set that the left one lacks. Sets with
the same items are the same.
-/

namespace ClassTable.SortedSet

variable {α : Type} [Ord α]

def Listed (list : List α) (item : α) : Prop :=
  ∃ listed ∈ list, compare listed item = .eq

instance (list : List α) (item : α) : Decidable (Listed list item) :=
  inferInstanceAs (Decidable (∃ listed ∈ list, compare listed item = .eq))

theorem listed_cons_iff {first item : α} {rest : List α} :
    Listed (first :: rest) item ↔ compare first item = .eq ∨ Listed rest item := by
  simp [Listed]

theorem listed_append_iff {left right : List α} {item : α} :
    Listed (left ++ right) item ↔ Listed left item ∨ Listed right item := by
  simp only [Listed, List.mem_append, or_and_right, exists_or]

theorem length_toList (set : SortedSet α) : set.toList.length = set.size := by
  simp [toList, size]

variable [Std.TransOrd α]

theorem nodup_of_ascending {list : List α}
    (ascending : list.Pairwise fun left right => compare left right = .lt) : list.Nodup := by
  refine ascending.imp ?_
  rintro left _ below rfl
  simp [Std.ReflCmp.compare_self] at below

theorem mem_of_mem_ofList {item : α} {list : List α} (found : item ∈ (ofList list).toList) :
    item ∈ list := by
  rw [ofList, toList_ofAscending] at found
  exact (List.mergeSort_perm list _).subset (mem_of_mem_dropRepeats found)

theorem listed_dropRepeats {list : List α} {item : α} (member : item ∈ list) :
    Listed (dropRepeats list) item := by
  fun_induction dropRepeats list generalizing item with
  | case1 => cases member
  | case2 first => exact ⟨item, member, Std.ReflCmp.compare_self⟩
  | case3 first next rest equal ih =>
      rcases List.mem_cons.1 member with rfl | later
      · exact ih List.mem_cons_self
      · rcases List.mem_cons.1 later with rfl | beyond
        · obtain ⟨kept, found, same⟩ := ih (List.mem_cons_self (a := first))
          exact ⟨kept, found, Std.TransCmp.eq_trans same equal⟩
        · exact ih (List.mem_cons_of_mem _ beyond)
  | case4 first next rest different ih =>
      rcases List.mem_cons.1 member with rfl | later
      · exact ⟨item, List.mem_cons_self, Std.ReflCmp.compare_self⟩
      · exact listed_cons_iff.2 (.inr (ih later))

theorem listed_ofList_iff {list : List α} {item : α} :
    Listed (ofList list).toList item ↔ Listed list item := by
  constructor
  · rintro ⟨kept, found, same⟩
    exact ⟨kept, mem_of_mem_ofList found, same⟩
  · rintro ⟨given, member, same⟩
    have sorted := (List.mergeSort_perm list fun left right => (compare left right).isLE).symm
    obtain ⟨kept, found, equal⟩ := listed_dropRepeats (sorted.subset member)
    rw [ofList, toList_ofAscending]
    exact ⟨kept, found, Std.TransCmp.eq_trans equal same⟩

theorem exists_key_ofList_iff {κ : Type} {key : α → κ}
    (compared : ∀ {left right : α}, compare left right = .eq ↔ key left = key right)
    {list : List α} {wanted : κ} :
    (∃ item ∈ (ofList list).toList, key item = wanted) ↔ ∃ item ∈ list, key item = wanted := by
  constructor
  · rintro ⟨item, kept, named⟩
    exact ⟨item, mem_of_mem_ofList kept, named⟩
  · rintro ⟨item, given, rfl⟩
    obtain ⟨kept, found, equal⟩ := listed_ofList_iff.2 ⟨item, given, compared.2 rfl⟩
    exact ⟨kept, found, compared.1 equal⟩

omit [Std.TransOrd α] in
theorem dropRepeats_of_pairwise {list : List α}
    (distinct : list.Pairwise fun left right => compare left right ≠ .eq) :
    dropRepeats list = list := by
  fun_induction dropRepeats list with
  | case1 => rfl
  | case2 => rfl
  | case3 first next rest equal ih =>
      exact absurd equal ((List.pairwise_cons.1 distinct).1 next List.mem_cons_self)
  | case4 first next rest different ih => rw [ih (List.pairwise_cons.1 distinct).2]

omit [Std.TransOrd α] in
theorem nodup_key_iff {κ : Type} {key : α → κ}
    (compared : ∀ {left right : α}, compare left right = .eq ↔ key left = key right)
    {list : List α} :
    (list.map key).Nodup ↔ list.Pairwise fun left right => compare left right ≠ .eq := by
  rw [List.Nodup, List.pairwise_map]
  simp only [ne_eq, compared]

theorem compare_ne_eq_symm {left right : α} (differ : compare left right ≠ .eq) :
    compare right left ≠ .eq :=
  fun equal => differ (Std.OrientedCmp.eq_symm equal)

theorem perm_ofList {list : List α}
    (distinct : list.Pairwise fun left right => compare left right ≠ .eq) :
    (ofList list).toList.Perm list := by
  have sorted := List.mergeSort_perm list fun left right => (compare left right).isLE
  rw [ofList, toList_ofAscending,
    dropRepeats_of_pairwise (sorted.symm.pairwise distinct compare_ne_eq_symm)]
  exact sorted

/-- Merging keeps the left list whole, and of the right list what the left one lacks. -/
theorem perm_mergeLists {left right : List α}
    (leftAscending : left.Pairwise fun left right => compare left right = .lt)
    (rightAscending : right.Pairwise fun left right => compare left right = .lt) :
    (mergeLists left right).Perm (left ++ right.filter fun item => ¬ Listed left item) := by
  fun_induction mergeLists left right with
  | case1 right => simp [Listed]
  | case2 left nonempty => simp
  | case3 leftItem left rightItem right below ih =>
      obtain ⟨_, leftTail⟩ := List.pairwise_cons.1 leftAscending
      obtain ⟨rightLeast, _⟩ := List.pairwise_cons.1 rightAscending
      have under : ∀ item ∈ rightItem :: right, compare leftItem item = .lt := by
        refine List.forall_mem_cons.2 ⟨below, fun item later => ?_⟩
        exact Std.TransCmp.lt_trans below (rightLeast item later)
      have same : (rightItem :: right).filter (fun item => ¬ Listed (leftItem :: left) item) =
          (rightItem :: right).filter fun item => ¬ Listed left item :=
        List.filter_congr fun item member => by simp [listed_cons_iff, under item member]
      rw [same]
      exact (ih leftTail rightAscending).cons leftItem
  | case4 leftItem left rightItem right equal ih =>
      obtain ⟨_, leftTail⟩ := List.pairwise_cons.1 leftAscending
      obtain ⟨rightLeast, rightTail⟩ := List.pairwise_cons.1 rightAscending
      have under : ∀ item ∈ right, compare leftItem item = .lt :=
        fun item later => Std.TransCmp.lt_of_eq_of_lt equal (rightLeast item later)
      have same : (rightItem :: right).filter (fun item => ¬ Listed (leftItem :: left) item) =
          right.filter fun item => ¬ Listed left item := by
        rw [List.filter_cons_of_neg (by simp [listed_cons_iff, equal])]
        exact List.filter_congr fun item member => by simp [listed_cons_iff, under item member]
      rw [same]
      exact (ih leftTail rightTail).cons leftItem
  | case5 leftItem left rightItem right above ih =>
      obtain ⟨leftLeast, _⟩ := List.pairwise_cons.1 leftAscending
      obtain ⟨_, rightTail⟩ := List.pairwise_cons.1 rightAscending
      have exceeds : ∀ item ∈ leftItem :: left, compare item rightItem = .gt := by
        have below : compare rightItem leftItem = .lt := Std.OrientedCmp.lt_of_gt above
        refine List.forall_mem_cons.2 ⟨above, fun item later => ?_⟩
        exact Std.OrientedCmp.gt_of_lt (Std.TransCmp.lt_trans below (leftLeast item later))
      have lacking : ¬ Listed (leftItem :: left) rightItem := by
        rintro ⟨other, member, equal⟩
        rw [exceeds other member] at equal
        cases equal
      rw [List.filter_cons_of_pos (by simpa using lacking)]
      exact ((ih leftAscending rightTail).cons rightItem).trans List.perm_middle.symm

theorem perm_merged (left right : SortedSet α) : (left.merged right).toList.Perm
    (left.toList ++ right.toList.filter fun item => ¬ Listed left.toList item) := by
  rw [merged, toList_ofAscending]
  exact perm_mergeLists left.pairwise_toList right.pairwise_toList

/-- A merged set holds the left set's items, and the right set's that equal none of these. -/
theorem mem_merged_iff {left right : SortedSet α} {item : α} :
    item ∈ (left.merged right).toList ↔
      item ∈ left.toList ∨ item ∈ right.toList ∧ ¬ Listed left.toList item := by
  rw [(perm_merged left right).mem_iff, List.mem_append, List.mem_filter, decide_eq_true_iff]

theorem countP_merged (left right : SortedSet α) (test : α → Bool) :
    (left.merged right).toList.countP test +
        (right.toList.filter fun item => Listed left.toList item).countP test =
      left.toList.countP test + right.toList.countP test := by
  have divided := right.toList.countP_eq_countP_filter_add test
    fun item => decide (Listed left.toList item)
  rw [(perm_merged left right).countP_eq, List.countP_append, divided]
  simp only [decide_not]
  omega

theorem exists_key_merged_iff {κ : Type} {key : α → κ}
    (compared : ∀ {left right : α}, compare left right = .eq ↔ key left = key right)
    (left right : SortedSet α) (wanted : κ) :
    (∃ item ∈ (left.merged right).toList, key item = wanted) ↔
      (∃ item ∈ left.toList, key item = wanted) ∨ ∃ item ∈ right.toList, key item = wanted := by
  constructor
  · rintro ⟨item, member, named⟩
    rcases mem_merged_iff.1 member with inLeft | ⟨inRight, _⟩
    · exact .inl ⟨item, inLeft, named⟩
    · exact .inr ⟨item, inRight, named⟩
  · rintro (⟨item, inLeft, named⟩ | ⟨item, inRight, rfl⟩)
    · exact ⟨item, mem_merged_iff.2 (.inl inLeft), named⟩
    · by_cases listed : Listed left.toList item
      · obtain ⟨other, inLeft, equal⟩ := listed
        exact ⟨other, mem_merged_iff.2 (.inl inLeft), compared.1 equal⟩
      · exact ⟨item, mem_merged_iff.2 (.inr ⟨inRight, listed⟩), rfl⟩

theorem size_merged_eq_add_iff (left right : SortedSet α) :
    (left.merged right).size = left.size + right.size ↔
      ∀ item ∈ right.toList, ¬ Listed left.toList item := by
  have lengths := (perm_merged left right).length_eq
  rw [List.length_append] at lengths
  rw [← length_toList, ← length_toList, ← length_toList, lengths, Nat.add_left_cancel_iff,
    List.length_filter_eq_length_iff]
  simp

theorem size_merged_eq_add_iff_key {κ : Type} {key : α → κ}
    (compared : ∀ {left right : α}, compare left right = .eq ↔ key left = key right)
    (left right : SortedSet α) :
    (left.merged right).size = left.size + right.size ↔
      ∀ wanted, ¬ ((∃ item ∈ left.toList, key item = wanted) ∧
        ∃ item ∈ right.toList, key item = wanted) := by
  rw [size_merged_eq_add_iff]
  constructor
  · rintro apart wanted ⟨⟨first, inLeft, rfl⟩, second, inRight, same⟩
    exact apart second inRight ⟨first, inLeft, compared.2 same.symm⟩
  · rintro apart second inRight ⟨first, inLeft, equal⟩
    exact apart (key first) ⟨⟨first, inLeft, rfl⟩, second, inRight, (compared.1 equal).symm⟩

theorem eq_of_perm_of_ascending {left right : List α}
    (leftAscending : left.Pairwise fun left right => compare left right = .lt)
    (rightAscending : right.Pairwise fun left right => compare left right = .lt)
    (same : left.Perm right) : left = right := by
  apply same.eq_of_pairwise _ leftAscending rightAscending
  intro first second _ _ below above
  have circle : compare first first = .lt := Std.TransCmp.lt_trans below above
  have self : compare first first = .eq := Std.ReflCmp.compare_self
  rw [circle] at self
  cases self

theorem eq_of_perm {left right : SortedSet α} (same : left.toList.Perm right.toList) :
    left = right :=
  ext_toList (eq_of_perm_of_ascending left.pairwise_toList right.pairwise_toList same)

theorem eq_of_mem_iff {left right : SortedSet α}
    (same : ∀ item, item ∈ left.toList ↔ item ∈ right.toList) : left = right :=
  eq_of_perm ((List.perm_ext_iff_of_nodup (nodup_of_ascending left.pairwise_toList)
    (nodup_of_ascending right.pairwise_toList)).2 same)

theorem ofList_eq_of_perm {left right : List α} (permuted : left.Perm right)
    (distinct : left.Pairwise fun left right => compare left right ≠ .eq) :
    ofList left = ofList right := by
  apply eq_of_perm
  exact ((perm_ofList distinct).trans permuted).trans
    (perm_ofList (permuted.pairwise distinct compare_ne_eq_symm)).symm

end ClassTable.SortedSet
