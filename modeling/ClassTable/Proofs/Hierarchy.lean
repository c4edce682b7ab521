import ClassTable.Proofs.Numbering

/-!
What the numbering sees of a pool: for each type, the pooled types that its class names, each where
it is named first. Two pools in which these agree are numbered alike, or fail at the same type. All
that a walk passes over does not count: a node that is not known, and one that is wanted again.
-/

namespace ClassTable.Precedence

variable {α : Type} [DecidableEq α] {nodes : List α} {next other : α → List α}
  {path wanted order : List α}

def distinctKnown (nodes wanted : List α) : List α :=
  (wanted.filter (· ∈ nodes)).eraseDups

theorem extend_append (left right : List α) :
    extend nodes next path (left ++ right) order =
      extend nodes next path left order >>= extend nodes next path right := by
  induction left generalizing order with
  | nil =>
      rw [List.nil_append, extend]
      rfl
  | cons node rest ih =>
      rw [List.cons_append, extend, extend]
      split
      · exact ih
      split
      · rfl
      split
      · cases extend nodes next (node :: path) (next node) order with
        | error closing => rfl
        | ok below => exact ih
      · exact ih

theorem extend_cons (node : α) (rest : List α) :
    extend nodes next path (node :: rest) order =
      extend nodes next path [node] order >>= extend nodes next path rest :=
  extend_append [node] rest

theorem extend_of_idle {node : α} {rest : List α}
    (idle : node ∈ order ∨ node ∉ path ∧ node ∉ nodes) :
    extend nodes next path (node :: rest) order = extend nodes next path rest order := by
  rw [extend]
  split
  next => rfl
  next fresh =>
    obtain ⟨outside, unknown⟩ := idle.resolve_left fresh
    rw [dif_neg outside, dif_neg unknown]

/-- The outcome of a walk, be it an order or an error, does not depend on nodes that are passed
over. -/
theorem extend_filter {keep : α → Bool}
    (idle : ∀ node ∈ wanted, keep node = false → node ∈ order ∨ node ∉ path ∧ node ∉ nodes) :
    extend nodes next path (wanted.filter keep) order = extend nodes next path wanted order := by
  induction wanted generalizing order with
  | nil => rfl
  | cons node rest ih =>
      obtain ⟨idleNode, idleRest⟩ := List.forall_mem_cons.1 idle
      cases kept : keep node with
      | false =>
          rw [List.filter_cons_of_neg (by simp [kept]), extend_of_idle (idleNode kept)]
          exact ih idleRest
      | true =>
          rw [List.filter_cons_of_pos kept, extend_cons, extend_cons node rest]
          cases first : extend nodes next path [node] order with
          | error closing => rfl
          | ok grown =>
              -- A node that is passed over stays so while the order grows.
              refine ih fun later member dropped => ?_
              exact (idleRest later member dropped).imp_left fun listed =>
                (emits_of_extend first).subset listed

theorem extend_eraseDups (inside : path ⊆ nodes) (wanted order : List α) :
    extend nodes next path wanted.eraseDups order = extend nodes next path wanted order := by
  match wanted with
  | [] => rfl
  | node :: rest =>
      rw [List.eraseDups_cons, extend_cons, extend_cons node rest]
      cases first : extend nodes next path [node] order with
      | error closing => rfl
      | ok grown =>
          have shorter : (rest.filter fun later => !later == node).length < rest.length + 1 :=
            Nat.lt_succ_of_le (List.length_filter_le _ _)
          -- Once the node has been walked over, it is passed over wherever it is wanted again.
          refine (extend_eraseDups inside _ grown).trans (extend_filter ?_)
          intro later _ repeated
          have same : later = node := by simpa using repeated
          rw [same]
          by_cases known : node ∈ nodes
          · exact .inl ((emits_of_extend first).covers node List.mem_cons_self known)
          · exact .inr ⟨fun begun => known (inside begun), known⟩
termination_by wanted.length

theorem extend_distinctKnown (inside : path ⊆ nodes) :
    extend nodes next path (distinctKnown nodes wanted) order =
      extend nodes next path wanted order := by
  rw [distinctKnown, extend_eraseDups inside]
  refine extend_filter fun node _ unknown => .inr ?_
  have absent : node ∉ nodes := by simpa using unknown
  exact ⟨fun begun => absent (inside begun), absent⟩

theorem extend_eq_of_distinctKnown {left right : List α} (inside : path ⊆ nodes)
    (same : distinctKnown nodes left = distinctKnown nodes right) :
    extend nodes next path left order = extend nodes next path right order := by
  rw [← extend_distinctKnown inside, same, extend_distinctKnown inside]

theorem extend_congr (inside : path ⊆ nodes)
    (same : ∀ node ∈ nodes, distinctKnown nodes (next node) = distinctKnown nodes (other node)) :
    extend nodes next path wanted order = extend nodes other path wanted order := by
  fun_induction extend nodes next path wanted order with
  | case1 => rw [extend]
  | case2 path node rest order listed ih =>
      rw [extend_of_idle (.inl listed)]
      exact ih inside
  | case3 path node rest order fresh begun =>
      rw [extend, if_neg fresh, dif_pos begun]
  | case4 path node rest order fresh outside known closing below ih =>
      have deeper : node :: path ⊆ nodes := List.cons_subset.2 ⟨known, inside⟩
      have otherBelow := (ih deeper).symm.trans below
      rw [extend_eq_of_distinctKnown deeper (same node known)] at otherBelow
      rw [extend, if_neg fresh, dif_neg outside, dif_pos known, otherBelow]
  | case5 path node rest order fresh outside known grown below ihBelow ihRest =>
      have deeper : node :: path ⊆ nodes := List.cons_subset.2 ⟨known, inside⟩
      have otherBelow := (ihBelow deeper).symm.trans below
      rw [extend_eq_of_distinctKnown deeper (same node known)] at otherBelow
      rw [extend, if_neg fresh, dif_neg outside, dif_pos known, otherBelow]
      exact ihRest inside
  | case6 path node rest order fresh outside unknown ih =>
      rw [extend_of_idle (.inr ⟨outside, unknown⟩)]
      exact ih inside

theorem order_congr
    (same : ∀ node ∈ nodes, distinctKnown nodes (next node) = distinctKnown nodes (other node)) :
    Precedence.order nodes next = Precedence.order nodes other :=
  extend_congr (List.nil_subset nodes) same

end ClassTable.Precedence

namespace ClassTable.Pool

variable {pool left right : Pool} {order : List Descriptor}

/-- The pooled types among the superclass and then the interfaces of a class, each where the class
names it first. -/
def pooledSupertypes (pool : Pool) (type : Descriptor) : List Descriptor :=
  Precedence.distinctKnown pool.types (pool.supertypes type)

structure SameHierarchy (left right : Pool) : Prop where
  types : ∀ type, type ∈ left.types ↔ type ∈ right.types
  supertypes : ∀ type ∈ left.types, left.pooledSupertypes type = right.pooledSupertypes type

theorem precedence_of_sameHierarchy (same : SameHierarchy left right) :
    left.precedence = right.precedence := by
  have types := types_eq_of_mem_iff same.types
  have supertypes := same.supertypes
  simp only [pooledSupertypes, ← types] at supertypes
  rw [precedence, precedence, Precedence.order_congr supertypes, types]

theorem result_assignIndices (pool : Pool) : pool.assignIndices.result =
    pool.precedence >>= fun order => (fun _ => order) <$> pool.planIndices 0 order := by
  cases sorted : pool.precedence with
  | error failure => rw [assignIndices_of_cycle sorted]; rfl
  | ok order =>
      cases planned : pool.planIndices 0 order with
      | error failure =>
          rw [assignIndices_of_taken sorted planned]
          simp only [bind, Except.bind, planned]
          rfl
      | ok plan =>
          rw [(assignIndices_of_plan sorted planned).1]
          simp only [bind, Except.bind, planned]
          rfl

theorem planIndices_congr {position : Nat}
    (same : ∀ type ∈ order, left.index? type = right.index? type) :
    left.planIndices position order = right.planIndices position order := by
  induction order generalizing position with
  | nil => rfl
  | cons type rest ih =>
      obtain ⟨first, others⟩ := List.forall_mem_cons.1 same
      rw [planIndices, planIndices, first, ih others]

theorem index?_assignIndices_iff {type : Descriptor} {index : UInt32}
    (unindexed : ∀ entry ∈ pool.toList, entry.index.get? = none) :
    pool.assignIndices.pool.index? type = some index ↔
      ∃ order, pool.assignIndices.result = .ok order ∧ order[index.toNat]? = some type := by
  rcases pool.assignIndices_cases with
    ⟨failure, failed⟩ | ⟨order, plan, sorted, planned, result, placed⟩
  · rw [failed, index?_of_unindexed unindexed]
    simp
  · rw [placed, result, index?_placeAll_iff sorted planned]
    simp

/-- The numbering does not see more of the classes than their pooled supertypes: two pools of one
hierarchy, with no class numbered yet, get the same order or the same error, which is a cycle at the
same type, and every class the same index. -/
theorem assignIndices_of_sameHierarchy (same : SameHierarchy left right)
    (leftFresh : ∀ entry ∈ left.toList, entry.index.get? = none)
    (rightFresh : ∀ entry ∈ right.toList, entry.index.get? = none) :
    left.assignIndices.result = right.assignIndices.result ∧
    (∀ type, left.assignIndices.pool.index? type = right.assignIndices.pool.index? type) ∧
    (left.size ≤ Word.size → (∃ order, left.assignIndices.result = .ok order) ∨
      ∃ type, left.assignIndices.result = .error (.hierarchyCycle type)) := by
  have results : left.assignIndices.result = right.assignIndices.result := by
    rw [result_assignIndices, result_assignIndices, precedence_of_sameHierarchy same]
    refine congrArg _ (funext fun order => congrArg _ (planIndices_congr fun type _ => ?_))
    rw [index?_of_unindexed leftFresh, index?_of_unindexed rightFresh]
  refine ⟨results, fun type => Option.ext fun index => ?_, fun fits => ?_⟩
  · rw [index?_assignIndices_iff leftFresh, index?_assignIndices_iff rightFresh, results]
  · cases sorted : left.precedence with
    | error failure =>
        obtain ⟨type, _, rfl⟩ := precedence_eq_error_iff.1 sorted
        exact .inr ⟨type, by rw [assignIndices_of_cycle sorted]⟩
    | ok order =>
        have short : 0 + order.length ≤ Word.size := by
          rw [Nat.zero_add, length_of_precedence sorted]
          exact fits
        obtain ⟨plan, planned⟩ :=
          exists_planIndices short fun type _ => index?_of_unindexed leftFresh type
        exact .inl ⟨order, (assignIndices_of_plan sorted planned).1⟩

def plain (root : Option Descriptor) : Pool :=
  let bottom : Draft :=
    { type := ⟨"La;"⟩, flags := .none, superclass := some ⟨"Lc;"⟩, interfaces := [⟨"Lb;"⟩] }
  let left : Draft := { type := ⟨"Lb;"⟩, flags := .none, superclass := some ⟨"Lc;"⟩ }
  let top : Draft := { type := ⟨"Lc;"⟩, flags := .none, superclass := root }
  ⟨.ofList ([bottom, left, top].map Draft.build)⟩

/-- The hierarchy of `plain` with flags and annotations, with types that are not pooled, and with
supertypes that are named twice and as interfaces only. -/
def dressed (root : Option Descriptor) : Pool :=
  let bottom : Draft :=
    { type := ⟨"La;"⟩, flags := .publicBit, annotations := [⟨"LTag;"⟩],
      interfaces := [⟨"Lx;"⟩, ⟨"Lc;"⟩, ⟨"Lb;"⟩, ⟨"Lc;"⟩] }
  let left : Draft :=
    { type := ⟨"Lb;"⟩, flags := .none, superclass := some ⟨"Lc;"⟩, interfaces := [⟨"Lc;"⟩] }
  let top : Draft :=
    { type := ⟨"Lc;"⟩, flags := .none, superclass := some ⟨"Lx;"⟩, interfaces := root.toList }
  ⟨.ofList ([bottom, left, top].map Draft.build)⟩

theorem unindexed_of_build (drafts : List Draft) :
    ∀ entry ∈ (⟨.ofList (drafts.map Draft.build)⟩ : Pool).toList, entry.index.get? = none := by
  intro entry pooled
  obtain ⟨draft, _, rfl⟩ := List.mem_map.1 (SortedSet.mem_of_mem_ofList pooled)
  rfl

theorem plain_dressed :
    ((plain none).SameHierarchy (dressed none) ∧
      (plain none).assignIndices.result = .ok [⟨"Lc;"⟩, ⟨"Lb;"⟩, ⟨"La;"⟩] ∧
      (dressed none).assignIndices.result = .ok [⟨"Lc;"⟩, ⟨"Lb;"⟩, ⟨"La;"⟩]) ∧
    ((plain (some ⟨"Lb;"⟩)).SameHierarchy (dressed (some ⟨"Lb;"⟩)) ∧
      (plain (some ⟨"Lb;"⟩)).assignIndices.result = .error (.hierarchyCycle ⟨"Lc;"⟩) ∧
      (dressed (some ⟨"Lb;"⟩)).assignIndices.result = .error (.hierarchyCycle ⟨"Lc;"⟩)) := by
  have straight : (plain none).SameHierarchy (dressed none) := by
    have listed : (plain none).types = [⟨"La;"⟩, ⟨"Lb;"⟩, ⟨"Lc;"⟩] := by cbv
    have same : (dressed none).types = [⟨"La;"⟩, ⟨"Lb;"⟩, ⟨"Lc;"⟩] := by cbv
    refine ⟨by simp [listed, same], ?_⟩
    simp only [listed, List.forall_mem_cons]
    exact ⟨by cbv, by cbv, by cbv, by simp⟩
  have cyclic : (plain (some ⟨"Lb;"⟩)).SameHierarchy (dressed (some ⟨"Lb;"⟩)) := by
    have listed : (plain (some ⟨"Lb;"⟩)).types = [⟨"La;"⟩, ⟨"Lb;"⟩, ⟨"Lc;"⟩] := by cbv
    have same : (dressed (some ⟨"Lb;"⟩)).types = [⟨"La;"⟩, ⟨"Lb;"⟩, ⟨"Lc;"⟩] := by cbv
    refine ⟨by simp [listed, same], ?_⟩
    simp only [listed, List.forall_mem_cons]
    exact ⟨by cbv, by cbv, by cbv, by simp⟩
  have ordered : (plain none).assignIndices.result = .ok [⟨"Lc;"⟩, ⟨"Lb;"⟩, ⟨"La;"⟩] := by cbv
  have failed : (plain (some ⟨"Lb;"⟩)).assignIndices.result =
      .error (.hierarchyCycle ⟨"Lc;"⟩) := by cbv
  have agree (root : Option Descriptor) (same : (plain root).SameHierarchy (dressed root)) :=
    assignIndices_of_sameHierarchy same (unindexed_of_build _) (unindexed_of_build _)
  refine ⟨⟨straight, ordered, ?_⟩, cyclic, failed, ?_⟩
  · rw [← ordered, (agree none straight).1]
  · rw [← failed, (agree _ cyclic).1]

end ClassTable.Pool
