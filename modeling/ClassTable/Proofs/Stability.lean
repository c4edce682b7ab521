import ClassTable.Proofs.Sets
import Mathlib.Data.List.Basic

/-!
Which of several items that a sort does not tell apart comes first. A stable sort leaves them in the
order in which they are listed, so of items that compare as equal a set holds the one listed first.
-/

namespace ClassTable

namespace StableSort

variable {α : Type} {below : α → α → Bool} {list : List α}

/-- Items of which each is below the others stay as they are listed. -/
theorem filter_mergeSort
    (trans : ∀ first second third, below first second = true → below second third = true →
      below first third = true)
    (total : ∀ first second, (below first second || below second first) = true)
    {alike : α → Bool}
    (tied : ∀ first second, alike first = true → alike second = true → below first second = true) :
    (list.mergeSort below).filter alike = list.filter alike := by
  have sorted : (list.filter alike).Pairwise fun first second => below first second = true := by
    refine List.pairwise_of_forall_mem_list fun first firstMember second secondMember => ?_
    exact tied first second (List.mem_filter.1 firstMember).2 (List.mem_filter.1 secondMember).2
  have within := (List.sublist_mergeSort trans total sorted List.filter_sublist).filter alike
  rw [List.filter_filter] at within
  simp only [Bool.and_self] at within
  have lengths := ((List.mergeSort_perm list below).filter alike).length_eq
  exact (within.eq_of_length lengths.symm).symm

/-- A list that is sorted twice ascends by the later key, and by the earlier one where the later
key does not tell two items apart. -/
theorem pairwise_mergeSort {earlier : α → α → Prop}
    (trans : ∀ first second third, below first second = true → below second third = true →
      below first third = true)
    (total : ∀ first second, (below first second || below second first) = true)
    (listed : list.Pairwise earlier) :
    (list.mergeSort below).Pairwise fun first second =>
      below second first = true → earlier first second := by
  rw [List.pairwise_iff_forall_sublist]
  intro first second found back
  have forth : below first second = true :=
    List.pairwise_iff_forall_sublist.1 (List.pairwise_mergeSort trans total list) found
  -- The two stand in one group of items that the sort does not tell apart.
  let alike : α → Bool := fun item => below first item && below item first
  have tied : ∀ left right, alike left = true → alike right = true → below left right = true := by
    intro left right leftAlike rightAlike
    simp only [alike, Bool.and_eq_true] at leftAlike rightAlike
    exact trans left first right leftAlike.2 rightAlike.1
  have self : below first first = true := trans first second first forth back
  have group : [first, second].filter alike = [first, second] := by
    simp [alike, self, forth, back]
  have together := found.filter alike
  rw [group, filter_mergeSort trans total tied] at together
  exact List.pairwise_iff_forall_sublist.1 listed (together.trans List.filter_sublist)

end StableSort

namespace SortedSet

variable {α : Type} [Ord α] [Std.TransOrd α] {list : List α} {item : α}

/-- Of a sorted list, the items are kept that none before them is equal to. -/
theorem mem_dropRepeats_iff
    (sorted : list.Pairwise fun left right => (compare left right).isLE = true) :
    item ∈ dropRepeats list ↔ list.find? (fun other => compare other item == .eq) = some item := by
  fun_induction dropRepeats list with
  | case1 => simp
  | case2 first =>
      rw [List.mem_singleton, List.find?_singleton]
      constructor
      · rintro rfl
        simp [Std.ReflCmp.compare_self]
      · intro found
        split at found
        · exact (Option.some.inj found).symm
        · cases found
  | case3 first next rest equal ih =>
      have shorter : (first :: rest).Pairwise fun left right =>
          (compare left right).isLE = true :=
        sorted.sublist (.cons_cons _ (List.sublist_cons_self _ _))
      rw [ih shorter, List.find?_cons, List.find?_cons, List.find?_cons,
        Std.TransCmp.congr_left equal]
      cases compare next item == .eq <;> rfl
  | case4 first next rest different ih =>
      obtain ⟨least, tail⟩ := List.pairwise_cons.1 sorted
      have above : item ∈ dropRepeats (next :: rest) → compare first item = .lt := by
        have step : compare first next = .lt := by
          have atMost := least next List.mem_cons_self
          revert different atMost
          cases compare first next <;> simp
        intro kept
        rcases List.mem_cons.1 (mem_of_mem_dropRepeats kept) with rfl | later
        · exact step
        · exact Std.TransCmp.lt_of_lt_of_isLE step ((List.pairwise_cons.1 tail).1 item later)
      rw [List.mem_cons, List.find?_cons]
      cases same : compare first item == .eq with
      | true =>
          rw [beq_iff_eq] at same
          constructor
          · rintro (rfl | kept)
            · rfl
            · rw [above kept] at same
              cases same
          · intro found
            exact .inl (Option.some.inj found).symm
      | false =>
          rw [← ih tail, or_iff_right]
          rintro rfl
          simp [Std.ReflCmp.compare_self] at same

theorem isLE_total (first second : α) :
    ((compare first second).isLE || (compare second first).isLE) = true := by
  have swapped : compare second first = (compare first second).swap := Std.OrientedCmp.eq_swap
  rw [swapped]
  cases compare first second <;> rfl

theorem toList_ofList_of_pairwise
    (sorted : list.Pairwise fun left right => (compare left right).isLE = true) :
    (ofList list).toList = dropRepeats list := by
  rw [ofList, toList_ofAscending, List.mergeSort_of_pairwise sorted]

/-- A set built from a list holds the items that are listed before all that equal them. -/
theorem mem_ofList_iff :
    item ∈ (ofList list).toList ↔
      list.find? (fun other => compare other item == .eq) = some item := by
  have trans : ∀ first second third : α, (compare first second).isLE = true →
      (compare second third).isLE = true → (compare first third).isLE = true :=
    fun _ _ _ => Std.TransCmp.isLE_trans
  have tied : ∀ first second : α, (compare first item == .eq) = true →
      (compare second item == .eq) = true → (compare first second).isLE = true := by
    intro first second firstEqual secondEqual
    rw [beq_iff_eq] at firstEqual secondEqual
    rw [Std.TransCmp.eq_trans firstEqual (Std.OrientedCmp.eq_symm secondEqual)]
    rfl
  rw [ofList, toList_ofAscending,
    mem_dropRepeats_iff (List.pairwise_mergeSort trans isLE_total list), ← List.head?_filter,
    StableSort.filter_mergeSort trans isLE_total tied, List.head?_filter]

end SortedSet

end ClassTable
