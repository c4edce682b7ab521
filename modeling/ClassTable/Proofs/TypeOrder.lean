import ClassTable.Proofs.Numbering

/-!
How far the numbering of a pool departs from the order of the types. A node is listed under the
first of the wanted nodes that leads to it, so it comes before a node that is wanted earlier than
itself only if that one, or one wanted earlier still, leads to it.
-/

namespace ClassTable.Precedence

variable {α : Type} {nodes : List α} {next : α → List α}

theorem Emits.divided {left right order result : List α}
    (run : Emits nodes next (left ++ right) order result) :
    ∃ middle, Emits nodes next left order middle ∧ Emits nodes next right middle result := by
  induction left generalizing order with
  | nil => exact ⟨order, .done order, run⟩
  | cons node rest ih =>
      cases run with
      | skip idle later =>
          obtain ⟨middle, first, last⟩ := ih later
          exact ⟨middle, .skip idle first, last⟩
      | list known fresh below later =>
          obtain ⟨middle, first, last⟩ := ih later
          exact ⟨middle, .list known fresh below first, last⟩

variable [DecidableEq α]

theorem Emits.rooted_of_before {before after result : List α} {node earlier : α}
    (run : Emits nodes next (before ++ node :: after) [] result) (known : node ∈ nodes)
    (sooner : result.idxOf earlier < result.idxOf node) :
    ∃ root ∈ before ++ [node], root ∈ nodes ∧
      Relation.ReflTransGen (Edge nodes next) root earlier := by
  rw [List.append_cons] at run
  obtain ⟨middle, first, last⟩ := run.divided
  obtain ⟨rest, rfl⟩ := last.grows
  have reached : node ∈ middle := first.covers node (by simp) known
  have listed : earlier ∈ middle := by
    have inside := List.idxOf_lt_length_iff.2 reached
    rw [List.idxOf_append, List.idxOf_append, if_pos reached] at sooner
    by_contra absent
    rw [if_neg absent] at sooner
    omega
  exact first.rooted listed (by simp)

end ClassTable.Precedence

namespace ClassTable.Pool

variable {pool : Pool} {order : List Descriptor}

theorem exists_subtype_of_before {lower upper : Descriptor} (sorted : pool.precedence = .ok order)
    (pooled : lower ∈ pool.types) (below : compare lower upper = .lt)
    (sooner : order.idxOf upper < order.idxOf lower) :
    ∃ subtype ∈ pool.types, (compare subtype lower).isLE = true ∧
      Relation.TransGen pool.Extends subtype upper := by
  obtain ⟨before, after, split⟩ := List.append_of_mem pooled
  have run := depthFirst_of_precedence sorted
  rw [DepthFirst] at run
  nth_rewrite 2 [split] at run
  obtain ⟨root, wanted, known, leads⟩ := run.rooted_of_before pooled sooner
  rw [edge_eq_extends] at leads
  have atMost : (compare root lower).isLE = true := by
    have ascending := pool.pairwise_types
    rw [split, List.append_cons, List.pairwise_append, List.pairwise_append] at ascending
    rcases List.mem_append.1 wanted with earlier | last
    · rw [ascending.1.2.2 root earlier lower List.mem_cons_self]
      rfl
    · rw [List.mem_singleton.1 last]
      exact Std.ReflCmp.isLE_rfl
  have different : root ≠ upper := by
    rintro rfl
    rw [Std.OrientedCmp.gt_of_lt below] at atMost
    cases atMost
  exact ⟨root, known, atMost, (Relation.reflTransGen_iff_eq_or_transGen.1 leads).resolve_left
    different.symm⟩

/-- The indices depart from the order of the types only where the hierarchy forces them to: of two
pooled types, the upper one gets the lower index only if a class whose type is not above the lower
one has the upper one among its supertypes. -/
theorem supertype_of_index_lt (success : pool.assignIndices.result = .ok order) :
    ∀ lower ∈ pool.types, ∀ upper ∈ pool.types, compare lower upper = .lt →
      ∃ lowerIndex upperIndex,
        pool.assignIndices.pool.index? lower = some lowerIndex ∧
        pool.assignIndices.pool.index? upper = some upperIndex ∧
        (upperIndex < lowerIndex → ∃ subtype ∈ pool.types,
          (compare subtype lower).isLE = true ∧
            Relation.TransGen pool.Extends subtype upper) := by
  rcases pool.assignIndices_cases with
    ⟨failure, failed⟩ | ⟨found, plan, sorted, planned, result, placed⟩
  · rw [failed] at success
    cases success
  intro lower lowerPooled upper upperPooled below
  obtain ⟨lowerIndex, lowerPlace, lowerIndexed⟩ := exists_index_of_mem sorted planned lowerPooled
  obtain ⟨upperIndex, upperPlace, upperIndexed⟩ := exists_index_of_mem sorted planned upperPooled
  rw [placed]
  refine ⟨lowerIndex, upperIndex, lowerIndexed, upperIndexed, fun sooner => ?_⟩
  rw [UInt32.lt_iff_toNat_lt, lowerPlace, upperPlace] at sooner
  exact exists_subtype_of_before sorted lowerPooled below sooner

def forked : Pool :=
  let first : Draft := { type := ⟨"La;"⟩, flags := .none, superclass := some ⟨"Lc;"⟩ }
  let second : Draft := { type := ⟨"Lb;"⟩, flags := .none, interfaces := [⟨"Le;"⟩] }
  let middle : Draft := { type := ⟨"Lc;"⟩, flags := .none, superclass := some ⟨"Ld;"⟩ }
  let root : Draft := { type := ⟨"Ld;"⟩, flags := .none }
  let other : Draft := { type := ⟨"Le;"⟩, flags := .none }
  ⟨.ofList ([first, second, middle, root, other].map Draft.build)⟩

/-- `Ld;` has a lower index than `Lb;`, and the class `La;` has it among its supertypes. -/
theorem forked_departs :
    forked.assignIndices.result =
        .ok [⟨"Ld;"⟩, ⟨"Lc;"⟩, ⟨"La;"⟩, ⟨"Le;"⟩, ⟨"Lb;"⟩] ∧
      forked.assignIndices.pool.index? ⟨"Lb;"⟩ = some 4 ∧
      forked.assignIndices.pool.index? ⟨"Ld;"⟩ = some 0 ∧
      ∃ subtype ∈ forked.types, (compare subtype ⟨"Lb;"⟩).isLE = true ∧
        Relation.TransGen forked.Extends subtype ⟨"Ld;"⟩ := by
  have numbered : forked.assignIndices.result =
      .ok [⟨"Ld;"⟩, ⟨"Lc;"⟩, ⟨"La;"⟩, ⟨"Le;"⟩, ⟨"Lb;"⟩] := by cbv
  have lower : forked.assignIndices.pool.index? ⟨"Lb;"⟩ = some 4 := by cbv
  have upper : forked.assignIndices.pool.index? ⟨"Ld;"⟩ = some 0 := by cbv
  have types : forked.types = [⟨"La;"⟩, ⟨"Lb;"⟩, ⟨"Lc;"⟩, ⟨"Ld;"⟩, ⟨"Le;"⟩] := by cbv
  obtain ⟨lowerIndex, upperIndex, lowerKnown, upperKnown, forced⟩ :=
    supertype_of_index_lt numbered ⟨"Lb;"⟩ (by simp [types]) ⟨"Ld;"⟩ (by simp [types]) (by cbv)
  cases lower.symm.trans lowerKnown
  cases upper.symm.trans upperKnown
  exact ⟨numbered, lower, upper, forced (by decide)⟩

end ClassTable.Pool
