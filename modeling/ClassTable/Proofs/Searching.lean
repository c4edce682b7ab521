import ClassTable.ClassDef.Draft
import ClassTable.Proofs.Collecting

/-!
Looking up items in sorted sets. Halving an ascending array finds an item exactly where one stands
that compares as equal, and there are as many items before it as compare as less. What is found in
one of two sets is found in the merged set, and nothing else is.
-/

namespace ClassTable.SortedSet

variable {α : Type} [Ord α] [Std.TransOrd α] {items : Array α} {item : α}

theorem compare_getElem
    (ascending : items.toList.Pairwise fun left right => compare left right = .lt)
    {first second : Nat} (firstInside : first < items.size) (secondInside : second < items.size) :
    compare items[first] items[second] = compare first second := by
  have ordered := List.pairwise_iff_getElem.1 ascending
  rcases Nat.lt_trichotomy first second with before | rfl | behind
  · rw [Nat.compare_eq_lt.2 before]
    exact ordered first second firstInside secondInside before
  · exact Std.ReflCmp.compare_self.trans (Nat.compare_eq_eq.2 rfl).symm
  · rw [Nat.compare_eq_gt.2 behind]
    exact Std.OrientedCmp.gt_of_lt (ordered second first secondInside firstInside behind)

theorem compare_getElem_item
    (ascending : items.toList.Pairwise fun left right => compare left right = .lt)
    {middle place : Nat} (middleInside : middle < items.size) (inside : place < items.size)
    (equal : compare items[place] item = .eq) :
    compare items[middle] item = compare middle place := by
  rw [← Std.TransCmp.congr_right equal]
  exact compare_getElem ascending middleInside inside

theorem search_eq_some_iff
    (ascending : items.toList.Pairwise fun left right => compare left right = .lt)
    {low high place : Nat} {bound : high ≤ items.size} :
    search items item low high bound = some place ↔
      low ≤ place ∧ place < high ∧ ∃ inside : place < items.size,
        compare items[place] item = .eq := by
  -- Where an equal item stands, its place compares with the middle as the items do, so the half that
  -- is left out does not have it.
  fun_induction search items item low high bound with
  | case1 low high bound narrow inside equal =>
      rw [Option.some_inj]
      constructor
      · rintro rfl
        exact ⟨by omega, by omega, inside, equal⟩
      · rintro ⟨_, _, placeInside, placeEqual⟩
        rw [compare_getElem_item ascending inside placeInside placeEqual] at equal
        exact Nat.compare_eq_eq.1 equal
  | case2 low high bound narrow inside below ih =>
      rw [ih]
      constructor
      · rintro ⟨_, before, found⟩
        exact ⟨by omega, before, found⟩
      · rintro ⟨_, before, placeInside, equal⟩
        rw [compare_getElem_item ascending inside placeInside equal] at below
        exact ⟨Nat.compare_eq_lt.1 below, before, placeInside, equal⟩
  | case3 low high bound narrow inside above ih =>
      rw [ih]
      constructor
      · rintro ⟨behind, _, found⟩
        exact ⟨behind, by omega, found⟩
      · rintro ⟨behind, _, placeInside, equal⟩
        rw [compare_getElem_item ascending inside placeInside equal] at above
        exact ⟨behind, Nat.compare_eq_gt.1 above, placeInside, equal⟩
  | case4 low high bound wide =>
      constructor
      · intro found
        cases found
      · rintro ⟨_, _, _⟩
        omega

theorem position?_eq_some_iff {set : SortedSet α} {place : Nat} :
    set.position? item = some place ↔
      ∃ held, set.toList[place]? = some held ∧ compare held item = .eq := by
  rw [position?, search_eq_some_iff set.ascending]
  constructor
  · rintro ⟨_, _, inside, equal⟩
    exact ⟨set.items[place], List.getElem?_eq_getElem inside, equal⟩
  · rintro ⟨held, found, equal⟩
    obtain ⟨inside, rfl⟩ := List.getElem?_eq_some_iff.1 found
    exact ⟨Nat.zero_le _, inside, inside, equal⟩

theorem contains_iff_listed {set : SortedSet α} :
    set.contains item = true ↔ Listed set.toList item := by
  simp only [contains, Option.isSome_iff_exists, position?_eq_some_iff, Listed,
    List.mem_iff_getElem?]
  constructor
  · rintro ⟨place, held, found, equal⟩
    exact ⟨held, ⟨place, found⟩, equal⟩
  · rintro ⟨held, ⟨place, found⟩, equal⟩
    exact ⟨place, held, found, equal⟩

/-- As many items of an ascending list are below an item as stand before the one that equals it. -/
theorem countP_lt_eq_place {list : List α} {held : α} {place : Nat}
    (ascending : list.Pairwise fun left right => compare left right = .lt)
    (found : list[place]? = some held) (equal : compare held item = .eq) :
    list.countP (fun other => compare other item == .lt) = place := by
  induction list generalizing place with
  | nil => cases found
  | cons first rest ih =>
      obtain ⟨least, tail⟩ := List.pairwise_cons.1 ascending
      cases place with
      | zero =>
          cases found
          rw [List.countP_eq_zero]
          rintro other member below
          rcases List.mem_cons.1 member with rfl | later
          · simp [equal] at below
          · have above := Std.OrientedCmp.gt_of_lt (least other later)
            rw [Std.TransCmp.congr_right equal] at above
            simp [above] at below
      | succ place =>
          have below := least held (List.mem_of_getElem? found)
          rw [Std.TransCmp.congr_right equal] at below
          rw [List.countP_cons_of_pos (by simp [below]), ih tail found]

/-- Looking up an item tells what the list of a set's items does: whether one of them compares as
equal, and where it stands, which is behind the items that compare as less. -/
structure Locates (set : SortedSet α) (item : α) : Prop where
  place : ∀ place, set.position? item = some place ↔
    ∃ held, set.toList[place]? = some held ∧ compare held item = .eq
  found : set.contains item = true ↔ ∃ held ∈ set.toList, compare held item = .eq
  rank : set.contains item = true →
    set.position? item = some (set.toList.countP fun other => compare other item == .lt)

theorem locates (set : SortedSet α) (item : α) : set.Locates item where
  place := fun _ => position?_eq_some_iff
  found := contains_iff_listed
  rank := by
    intro present
    obtain ⟨place, located⟩ := Option.isSome_iff_exists.1 present
    obtain ⟨held, found, equal⟩ := position?_eq_some_iff.1 located
    rw [located, countP_lt_eq_place set.pairwise_toList found equal]

theorem contains_merged (left right : SortedSet α) (item : α) :
    (left.merged right).contains item = (left.contains item || right.contains item) := by
  rw [Bool.eq_iff_iff, Bool.or_eq_true, contains_iff_listed, contains_iff_listed,
    contains_iff_listed, listed_merged_iff]

end ClassTable.SortedSet

namespace ClassTable.ClassDef

/-- Every set, be it built from a list or merged from two sets, tells of an item what the list of its
own items does, whatever the item holds that comparison does not see. So the merged members of a
class have what the static or the instance fields have, and what the direct or the virtual methods
have, and nothing else. -/
theorem lookups_locate :
    (∀ (α : Type) [Ord α] [Std.TransOrd α] (set : SortedSet α) (item : α), set.Locates item) ∧
    ∀ definition : ClassDef,
      (∀ field, definition.allFields.contains field =
        (definition.staticFields.contains field || definition.instanceFields.contains field)) ∧
      ∀ method, definition.allMethods.contains method =
        (definition.directMethods.contains method || definition.virtualMethods.contains method) :=
  ⟨fun _ _ _ => SortedSet.locates, fun _ =>
    ⟨SortedSet.contains_merged _ _, SortedSet.contains_merged _ _⟩⟩

def threeFields : ClassDef :=
  let field (name : String) (flags : AccessFlags) : Field :=
    { definingClass := ⟨"La;"⟩, name, type := ⟨"I"⟩, flags }
  (Draft.build
    { type := ⟨"La;"⟩, flags := .none,
      staticFields := [field "h" .staticBit, field "f" .staticBit],
      instanceFields := [field "g" .none] }).toClassDef

def disguised : Field :=
  { definingClass := ⟨"La;"⟩, name := "g", type := ⟨"I"⟩, flags := .publicBit,
    annotations := [⟨"LTag;"⟩] }

theorem disguised_located :
    threeFields.instanceFields.position? disguised = some 0 ∧
      threeFields.allFields.position? disguised = some 1 ∧
      threeFields.allFields.contains disguised = true ∧
      threeFields.staticFields.contains disguised = false := by
  have found : threeFields.instanceFields.contains disguised = true := by cbv
  have merged := (lookups_locate.2 threeFields).1 disguised
  rw [found, Bool.or_true] at merged
  have rank := (lookups_locate.1 Field threeFields.allFields disguised).rank merged
  exact ⟨by cbv, rank.trans (by cbv), merged, by cbv⟩

end ClassTable.ClassDef
