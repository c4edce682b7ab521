import Mathlib.Data.List.Forall2
import Mathlib.Data.List.Perm.Basic

/-!
Outcomes of computations that may fail, taken apart: when a sequence of steps succeeds, and with
what.
-/

namespace ClassTable.Outcome

variable {ε α β : Type}

theorem bind_eq_ok_iff {first : Except ε α} {second : α → Except ε β} {result : β} :
    first >>= second = .ok result ↔ ∃ value, first = .ok value ∧ second value = .ok result := by
  cases first with
  | error failure => simp [bind, Except.bind]
  | ok value => simp [bind, Except.bind]

theorem bind_eq_error_iff {first : Except ε α} {second : α → Except ε β} {failure : ε} :
    first >>= second = .error failure ↔
      first = .error failure ∨ ∃ value, first = .ok value ∧ second value = .error failure := by
  cases first with
  | error cause => simp [bind, Except.bind]
  | ok value => simp [bind, Except.bind]

theorem exists_bind_eq_ok_iff {first : Except ε α} {second : α → Except ε β} :
    (∃ result, first >>= second = .ok result) ↔
      ∃ value, first = .ok value ∧ ∃ result, second value = .ok result := by
  simp only [bind_eq_ok_iff]
  rw [exists_comm]
  simp only [exists_and_left]

theorem map_eq_ok_iff {first : Except ε α} {change : α → β} {result : β} :
    change <$> first = .ok result ↔ ∃ value, first = .ok value ∧ change value = result := by
  cases first with
  | error failure => simp [Functor.map, Except.map]
  | ok value => simp [Functor.map, Except.map]

theorem map_eq_error_iff {first : Except ε α} {change : α → β} {failure : ε} :
    change <$> first = .error failure ↔ first = .error failure := by
  cases first with
  | error cause => simp [Functor.map, Except.map]
  | ok value => simp [Functor.map, Except.map]

theorem mapError_eq_error_iff {ε' : Type} {change : ε → ε'} {first : Except ε α} {failure : ε'} :
    first.mapError change = .error failure ↔
      ∃ cause, first = .error cause ∧ change cause = failure := by
  cases first <;> simp [Except.mapError]

theorem mapError_eq_ok_iff {ε' : Type} {change : ε → ε'} {first : Except ε α} {result : α} :
    first.mapError change = .ok result ↔ first = .ok result := by
  cases first <;> simp [Except.mapError]

theorem mapM_eq_ok_iff {step : α → Except ε β} {items : List α} {results : List β} :
    items.mapM step = .ok results ↔
      List.Forall₂ (fun item result => step item = .ok result) items results := by
  induction items generalizing results with
  | nil => simp [pure, Except.pure, eq_comm]
  | cons item rest ih =>
      rw [List.mapM_cons, bind_eq_ok_iff, List.forall₂_cons_left_iff]
      constructor
      · rintro ⟨value, stepped, remaining⟩
        obtain ⟨values, restStepped, listed⟩ := bind_eq_ok_iff.1 remaining
        exact ⟨value, values, stepped, ih.1 restStepped, (Except.ok.inj listed).symm⟩
      · rintro ⟨value, values, stepped, restStepped, rfl⟩
        exact ⟨value, stepped, bind_eq_ok_iff.2 ⟨values, ih.2 restStepped, rfl⟩⟩

/-- A sequence of steps fails as the first step that fails. -/
theorem mapM_eq_error_iff {step : α → Except ε β} {items : List α} {failure : ε} :
    items.mapM step = .error failure ↔ ∃ before item after, items = before ++ item :: after ∧
      (∀ earlier ∈ before, ∃ result, step earlier = .ok result) ∧ step item = .error failure := by
  induction items with
  | nil => simp [pure, Except.pure]
  | cons item rest ih =>
      have later : ∀ value, (rest.mapM step >>= fun values => pure (value :: values)) =
          .error failure ↔ rest.mapM step = .error failure := by
        intro value
        rw [bind_eq_error_iff]
        simp [pure, Except.pure]
      rw [List.mapM_cons, bind_eq_error_iff]
      simp only [later, ih]
      constructor
      · rintro (failed | ⟨value, stepped, before, other, after, rfl, fine, failed⟩)
        · exact ⟨[], item, rest, rfl, by simp, failed⟩
        · exact ⟨item :: before, other, after, rfl,
            List.forall_mem_cons.2 ⟨⟨value, stepped⟩, fine⟩, failed⟩
      · rintro ⟨_ | ⟨first, before⟩, other, after, split, fine, failed⟩
        · cases split
          exact .inl failed
        · cases split
          obtain ⟨⟨value, stepped⟩, others⟩ := List.forall_mem_cons.1 fine
          exact .inr ⟨value, stepped, before, other, after, rfl, others, failed⟩

theorem exists_forall₂_iff {relation : α → β → Prop} {items : List α} :
    (∃ results, List.Forall₂ relation items results) ↔
      ∀ item ∈ items, ∃ result, relation item result := by
  induction items with
  | nil => simp
  | cons item rest ih =>
      rw [List.forall_mem_cons, ← ih]
      constructor
      · rintro ⟨_, found⟩
        obtain ⟨result, results, first, others, _⟩ := List.forall₂_cons_left_iff.1 found
        exact ⟨⟨result, first⟩, results, others⟩
      · rintro ⟨⟨result, first⟩, results, others⟩
        exact ⟨result :: results, .cons first others⟩

theorem exists_mapM_eq_ok_iff {step : α → Except ε β} {items : List α} :
    (∃ results, items.mapM step = .ok results) ↔
      ∀ item ∈ items, ∃ result, step item = .ok result := by
  simp only [mapM_eq_ok_iff]
  exact exists_forall₂_iff

theorem map_eq_map_of_forall₂ {γ : Type} {relation : α → β → Prop} {left : α → γ} {right : β → γ}
    {items : List α} {results : List β} (related : List.Forall₂ relation items results)
    (same : ∀ item result, relation item result → left item = right result) :
    items.map left = results.map right := by
  rw [← List.forall₂_eq_eq_eq, List.forall₂_map_left_iff, List.forall₂_map_right_iff]
  exact related.imp same

theorem forall₂_filter {relation : α → β → Prop} {left : α → Bool} {right : β → Bool}
    {items : List α} {results : List β} (related : List.Forall₂ relation items results)
    (same : ∀ item result, relation item result → left item = right result) :
    List.Forall₂ relation (items.filter left) (results.filter right) := by
  induction related with
  | nil => exact .nil
  | cons first _ ih =>
      rw [List.filter_cons, List.filter_cons, same _ _ first]
      split
      · exact .cons first ih
      · exact ih

theorem exists_of_mem_right {relation : α → β → Prop} {items : List α} {results : List β}
    (related : List.Forall₂ relation items results) {result : β} (member : result ∈ results) :
    ∃ item ∈ items, relation item result := by
  induction related with
  | nil => cases member
  | cons first _ ih =>
      rcases List.mem_cons.1 member with rfl | later
      · exact ⟨_, List.mem_cons_self, first⟩
      · obtain ⟨item, listed, found⟩ := ih later
        exact ⟨item, List.mem_cons_of_mem _ listed, found⟩

theorem exists_of_mem_left {relation : α → β → Prop} {items : List α} {results : List β}
    (related : List.Forall₂ relation items results) {item : α} (member : item ∈ items) :
    ∃ result ∈ results, relation item result :=
  exists_of_mem_right related.flip member

theorem forall₂_comp {γ : Type} {first : α → β → Prop} {second : β → γ → Prop}
    {through : α → γ → Prop} {items : List α} {middle : List β} {results : List γ}
    (entered : List.Forall₂ first items middle) (left : List.Forall₂ second middle results)
    (joined : ∀ item value result, first item value → second value result → through item result) :
    List.Forall₂ through items results := by
  induction entered generalizing results with
  | nil =>
      cases left
      exact .nil
  | cons step _ ih =>
      cases left with
      | cons next others => exact .cons (joined _ _ _ step next) (ih others)

/-- Steps on reordered items, each of which gives what its counterpart gives, give reordered
results. -/
theorem mapM_of_perm {step : α → Except ε β} {same : α → α → Prop} {items listed others : List α}
    {results : List β} (success : items.mapM step = .ok results) (permuted : items.Perm listed)
    (related : List.Forall₂ same listed others)
    (keeps : ∀ item other result, same item other → step item = .ok result →
      step other = .ok result) :
    ∃ reordered, others.mapM step = .ok reordered ∧ results.Perm reordered := by
  obtain ⟨reordered, stepped, order⟩ :=
    List.perm_comp_forall₂ permuted.symm (mapM_eq_ok_iff.1 success)
  refine ⟨reordered, mapM_eq_ok_iff.2 ?_, order.symm⟩
  exact forall₂_comp related.flip stepped fun other item result => keeps item other result

end ClassTable.Outcome
