/-!
Sets kept as strictly ascending arrays. A set is built once, from a list or from two sets; of items
that compare as equal it keeps the first. Items are looked up by halving the array.
-/

namespace ClassTable

structure SortedSet (α : Type) [Ord α] where
  items : Array α
  ascending : items.toList.Pairwise fun left right => compare left right = .lt

namespace SortedSet

variable {α : Type} [Ord α]

def toList (set : SortedSet α) : List α :=
  set.items.toList

theorem pairwise_toList (set : SortedSet α) :
    set.toList.Pairwise fun left right => compare left right = .lt :=
  set.ascending

@[ext] theorem ext_toList {left right : SortedSet α} (same : left.toList = right.toList) :
    left = right := by
  obtain ⟨⟨leftItems⟩, _⟩ := left
  obtain ⟨⟨rightItems⟩, _⟩ := right
  cases (show leftItems = rightItems from same)
  rfl

def ofAscending (items : List α)
    (ascending : items.Pairwise fun left right => compare left right = .lt) : SortedSet α :=
  ⟨items.toArray, by simpa using ascending⟩

@[simp] theorem toList_ofAscending (items : List α)
    (ascending : items.Pairwise fun left right => compare left right = .lt) :
    (ofAscending items ascending).toList = items := by
  simp [ofAscending, toList]

def empty : SortedSet α :=
  ofAscending [] .nil

def singleton (item : α) : SortedSet α :=
  ofAscending [item] (List.pairwise_singleton _ _)

def size (set : SortedSet α) : Nat :=
  set.items.size

def isEmpty (set : SortedSet α) : Bool :=
  set.items.isEmpty

def first? (set : SortedSet α) : Option α :=
  set.items[0]?

/-- The place of an item among those from `low` up to, but not at, `high`. -/
def search (items : Array α) (item : α) (low high : Nat) (bound : high ≤ items.size) : Option Nat :=
  if narrow : low < high then
    have inside : (low + high) / 2 < items.size := by omega
    match compare items[(low + high) / 2] item with
    | .eq => some ((low + high) / 2)
    | .lt => search items item ((low + high) / 2 + 1) high bound
    | .gt => search items item low ((low + high) / 2) (by omega)
  else none
termination_by high - low

def position? (set : SortedSet α) (item : α) : Option Nat :=
  search set.items item 0 set.items.size (Nat.le_refl _)

def contains (set : SortedSet α) (item : α) : Bool :=
  (set.position? item).isSome

/-- A list without the items that compare as equal to the item kept before them. -/
def dropRepeats : List α → List α
  | [] => []
  | [item] => [item]
  | item :: next :: rest =>
    if compare item next = .eq then dropRepeats (item :: rest)
    else item :: dropRepeats (next :: rest)

theorem mem_of_mem_dropRepeats {item : α} {list : List α} (found : item ∈ dropRepeats list) :
    item ∈ list := by
  fun_induction dropRepeats list with
  | case1 => exact found
  | case2 => exact found
  | case3 first next rest equal ih =>
    rcases List.mem_cons.1 (ih found) with rfl | later
    · exact List.mem_cons_self
    · exact List.mem_cons_of_mem _ (List.mem_cons_of_mem _ later)
  | case4 first next rest different ih =>
    rcases List.mem_cons.1 found with rfl | later
    · exact List.mem_cons_self
    · exact List.mem_cons_of_mem _ (ih later)

/-- Two ascending lists as one; where both have an item, the left one is taken. -/
def mergeLists : List α → List α → List α
  | [], right => right
  | left, [] => left
  | leftItem :: left, rightItem :: right =>
    match compare leftItem rightItem with
    | .lt => leftItem :: mergeLists left (rightItem :: right)
    | .eq => leftItem :: mergeLists left right
    | .gt => rightItem :: mergeLists (leftItem :: left) right
termination_by left right => left.length + right.length

theorem mem_of_mem_mergeLists {item : α} {left right : List α}
    (found : item ∈ mergeLists left right) : item ∈ left ∨ item ∈ right := by
  fun_induction mergeLists left right with
  | case1 right => exact .inr found
  | case2 left nonempty => exact .inl found
  | case3 leftItem left rightItem right below ih =>
    rcases List.mem_cons.1 found with rfl | later
    · exact .inl List.mem_cons_self
    · exact (ih later).imp_left (List.mem_cons_of_mem _)
  | case4 leftItem left rightItem right equal ih =>
    rcases List.mem_cons.1 found with rfl | later
    · exact .inl List.mem_cons_self
    · exact (ih later).imp (List.mem_cons_of_mem _) (List.mem_cons_of_mem _)
  | case5 leftItem left rightItem right above ih =>
    rcases List.mem_cons.1 found with rfl | later
    · exact .inr List.mem_cons_self
    · exact (ih later).imp_right (List.mem_cons_of_mem _)

def sameItems (left right : SortedSet α) : Bool :=
  left.items.size == right.items.size &&
    (left.toList.zip right.toList).all fun (leftItem, rightItem) =>
      compare leftItem rightItem == .eq

instance : BEq (SortedSet α) := ⟨sameItems⟩

/-! Items are told apart by their comparison. Where `==` agrees with it, the same is done by `==`. -/

section Equality

variable [BEq α] [Std.LawfulBEqOrd α]

theorem beq_eq_compare_beq (left right : α) : (left == right) = (compare left right == .eq) :=
  Bool.eq_iff_iff.2 (Std.LawfulBEqCmp.compare_eq_iff_beq.symm.trans beq_iff_eq.symm)

theorem dropRepeats_cons_cons (item next : α) (rest : List α) :
    dropRepeats (item :: next :: rest) =
      if item == next then dropRepeats (item :: rest) else item :: dropRepeats (next :: rest) := by
  simp only [dropRepeats, beq_eq_compare_beq, beq_iff_eq]

theorem mergeLists_cons_cons (leftItem rightItem : α) (left right : List α) :
    mergeLists (leftItem :: left) (rightItem :: right) =
      if (compare leftItem rightItem).isLE then
        leftItem :: mergeLists left (if leftItem == rightItem then right else rightItem :: right)
      else rightItem :: mergeLists (leftItem :: left) right := by
  rw [mergeLists, beq_eq_compare_beq]
  cases compare leftItem rightItem <;> rfl

theorem beq_list_eq (left right : List α) : (left == right) =
    (left.length == right.length && (left.zip right).all fun (leftItem, rightItem) =>
      compare leftItem rightItem == .eq) := by
  induction left generalizing right with
  | nil => cases right <;> rfl
  | cons leftItem left ih =>
    cases right with
    | nil => rfl
    | cons rightItem right =>
      have lengths : ((leftItem :: left).length == (rightItem :: right).length) =
          (left.length == right.length) := by simp
      rw [List.cons_beq_cons, ih, beq_eq_compare_beq, List.zip_cons_cons, List.all_cons, lengths]
      exact Bool.and_left_comm _ _ _

theorem beq_eq_beq_toList (left right : SortedSet α) :
    (left == right) = (left.toList == right.toList) :=
  (beq_list_eq left.toList right.toList).symm

end Equality

variable [Std.TransOrd α]

theorem pairwise_dropRepeats {list : List α}
    (sorted : list.Pairwise fun left right => (compare left right).isLE = true) :
    (dropRepeats list).Pairwise fun left right => compare left right = .lt := by
  fun_induction dropRepeats list with
  | case1 => exact .nil
  | case2 => exact List.pairwise_singleton _ _
  | case3 first next rest equal ih =>
    apply ih
    exact sorted.sublist (.cons_cons _ (List.sublist_cons_self _ _))
  | case4 first next rest different ih =>
    obtain ⟨least, tail⟩ := List.pairwise_cons.1 sorted
    refine List.pairwise_cons.2 ⟨fun item found => ?_, ih tail⟩
    have below : compare first next = .lt := by
      have atMost := least next (by simp)
      revert different atMost
      cases compare first next <;> simp
    rcases List.mem_cons.1 (mem_of_mem_dropRepeats found) with rfl | later
    · exact below
    · exact Std.TransCmp.lt_of_lt_of_isLE below ((List.pairwise_cons.1 tail).1 item later)

theorem pairwise_mergeLists {left right : List α}
    (leftAscending : left.Pairwise fun left right => compare left right = .lt)
    (rightAscending : right.Pairwise fun left right => compare left right = .lt) :
    (mergeLists left right).Pairwise fun left right => compare left right = .lt := by
  fun_induction mergeLists left right with
  | case1 => exact rightAscending
  | case2 => exact leftAscending
  | case3 leftItem left rightItem right below ih =>
    obtain ⟨leftLeast, leftTail⟩ := List.pairwise_cons.1 leftAscending
    obtain ⟨rightLeast, _⟩ := List.pairwise_cons.1 rightAscending
    refine List.pairwise_cons.2 ⟨fun item found => ?_, ih leftTail rightAscending⟩
    rcases mem_of_mem_mergeLists found with inLeft | inRight
    · exact leftLeast item inLeft
    · rcases List.mem_cons.1 inRight with rfl | later
      · exact below
      · exact Std.TransCmp.lt_trans below (rightLeast item later)
  | case4 leftItem left rightItem right equal ih =>
    obtain ⟨leftLeast, leftTail⟩ := List.pairwise_cons.1 leftAscending
    obtain ⟨rightLeast, rightTail⟩ := List.pairwise_cons.1 rightAscending
    refine List.pairwise_cons.2 ⟨fun item found => ?_, ih leftTail rightTail⟩
    rcases mem_of_mem_mergeLists found with inLeft | inRight
    · exact leftLeast item inLeft
    · exact Std.TransCmp.lt_of_eq_of_lt equal (rightLeast item inRight)
  | case5 leftItem left rightItem right above ih =>
    obtain ⟨leftLeast, _⟩ := List.pairwise_cons.1 leftAscending
    obtain ⟨rightLeast, rightTail⟩ := List.pairwise_cons.1 rightAscending
    have below : compare rightItem leftItem = .lt := Std.OrientedCmp.lt_of_gt above
    refine List.pairwise_cons.2 ⟨fun item found => ?_, ih leftAscending rightTail⟩
    rcases mem_of_mem_mergeLists found with inLeft | inRight
    · rcases List.mem_cons.1 inLeft with rfl | later
      · exact below
      · exact Std.TransCmp.lt_trans below (leftLeast item later)
    · exact rightLeast item inRight

/-- The set of the items of a list. The sort is stable, so that the first of equal items is kept. -/
def ofList (list : List α) : SortedSet α :=
  ofAscending (dropRepeats (list.mergeSort fun left right => (compare left right).isLE))
    (pairwise_dropRepeats (List.pairwise_mergeSort
      (fun _ _ _ => Std.TransCmp.isLE_trans)
      (fun left right => by
        have swapped : compare right left = (compare left right).swap := Std.OrientedCmp.eq_swap
        rw [swapped]
        cases compare left right <;> rfl)
      list))

def merged (left right : SortedSet α) : SortedSet α :=
  ofAscending (mergeLists left.toList right.toList)
    (pairwise_mergeLists left.pairwise_toList right.pairwise_toList)

omit [Std.TransOrd α] in
theorem pairwise_map_of_compare {list : List α}
    (ascending : list.Pairwise fun left right => compare left right = .lt) (change : α → α)
    (keeps : ∀ left right, compare (change left) (change right) = compare left right) :
    (list.map change).Pairwise fun left right => compare left right = .lt := by
  rw [List.pairwise_map]
  exact ascending.imp fun below => by rw [keeps]; exact below

omit [Std.TransOrd α] in
def mapKeeping (set : SortedSet α) (change : α → α)
    (keeps : ∀ left right, compare (change left) (change right) = compare left right) :
    SortedSet α :=
  ofAscending (set.toList.map change) (pairwise_map_of_compare set.pairwise_toList change keeps)

omit [Std.TransOrd α] in
@[simp] theorem toList_mapKeeping (set : SortedSet α) (change : α → α)
    (keeps : ∀ left right, compare (change left) (change right) = compare left right) :
    (set.mapKeeping change keeps).toList = set.toList.map change := by
  rw [mapKeeping, toList_ofAscending]

end SortedSet

end ClassTable
