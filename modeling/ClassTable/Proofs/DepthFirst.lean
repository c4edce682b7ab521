import ClassTable.Precedence
import Mathlib.Logic.Relation

/-!
Correctness of the depth-first numbering. The executable walk is compared with two descriptions of
its own: the graph that the nodes span, and the post-order that a walk without a path would give.
-/

namespace ClassTable.Precedence

variable {α : Type} {nodes : List α} {next : α → List α}

def Edge (nodes : List α) (next : α → List α) (source target : α) : Prop :=
  source ∈ nodes ∧ target ∈ next source ∧ target ∈ nodes

/-- The depth-first post-order: what an order becomes when nodes are wanted in turn. A node that is
new is listed after everything that it points to has been. -/
inductive Emits (nodes : List α) (next : α → List α) : List α → List α → List α → Prop
  | done (order : List α) : Emits nodes next [] order order
  | skip {node : α} {rest order result : List α} (idle : node ∈ order ∨ node ∉ nodes)
      (later : Emits nodes next rest order result) : Emits nodes next (node :: rest) order result
  | list {node : α} {rest order below result : List α} (known : node ∈ nodes)
      (fresh : node ∉ order) (first : Emits nodes next (next node) order below)
      (later : Emits nodes next rest (below ++ [node]) result) :
      Emits nodes next (node :: rest) order result

theorem Emits.unique {wanted order left right : List α}
    (leftRun : Emits nodes next wanted order left)
    (rightRun : Emits nodes next wanted order right) : left = right := by
  induction leftRun generalizing right with
  | done order =>
      cases rightRun
      rfl
  | skip idle later ih =>
      cases rightRun with
      | skip _ rightLater => exact ih rightLater
      | list known fresh _ _ =>
          rcases idle with listed | unknown
          · exact absurd listed fresh
          · exact absurd known unknown
  | list known fresh first later ihFirst ihLater =>
      cases rightRun with
      | skip idle _ =>
          rcases idle with listed | unknown
          · exact absurd listed fresh
          · exact absurd known unknown
      | list _ _ rightFirst rightLater =>
          have same := ihFirst rightFirst
          subst same
          exact ihLater rightLater

theorem Emits.grows {wanted order result : List α} (run : Emits nodes next wanted order result) :
    order <+: result := by
  induction run with
  | done => exact List.prefix_rfl
  | skip _ _ ih => exact ih
  | list _ _ _ _ ihFirst ihLater => exact (ihFirst.trans (List.prefix_append _ _)).trans ihLater

theorem Emits.subset {wanted order result : List α} (run : Emits nodes next wanted order result) :
    order ⊆ result :=
  run.grows.subset

theorem Emits.covers {wanted order result : List α} (run : Emits nodes next wanted order result) :
    ∀ node ∈ wanted, node ∈ nodes → node ∈ result := by
  induction run with
  | done => simp
  | skip idle later ih =>
      intro node member known
      rcases List.mem_cons.1 member with rfl | rest
      · exact later.subset (idle.resolve_right (not_not_intro known))
      · exact ih node rest known
  | list _ _ _ later _ ihLater =>
      intro node member known
      rcases List.mem_cons.1 member with rfl | rest
      · exact later.subset (List.mem_append_right _ (List.mem_singleton_self _))
      · exact ihLater node rest known

theorem Emits.rooted {wanted order result : List α} (run : Emits nodes next wanted order result)
    {node : α} (listed : node ∈ result) (fresh : node ∉ order) :
    ∃ root ∈ wanted, root ∈ nodes ∧ Relation.ReflTransGen (Edge nodes next) root node := by
  induction run with
  | done => exact absurd listed fresh
  | skip _ _ ih =>
      obtain ⟨root, member, leads⟩ := ih listed fresh
      exact ⟨root, List.mem_cons_of_mem _ member, leads⟩
  | @list first rest order below result known _ _ _ ihBelow ihLater =>
      by_cases early : node ∈ below ++ [first]
      · rcases List.mem_append.1 early with inBelow | last
        · obtain ⟨root, pointed, rootKnown, leads⟩ := ihBelow inBelow fresh
          exact ⟨first, List.mem_cons_self, known, .head ⟨known, pointed, rootKnown⟩ leads⟩
        · cases List.mem_singleton.1 last
          exact ⟨node, List.mem_cons_self, known, .refl⟩
      · obtain ⟨root, member, leads⟩ := ihLater listed early
        exact ⟨root, List.mem_cons_of_mem _ member, leads⟩

theorem avoids_snoc {path order : List α} {node : α} (apart : ∀ other ∈ path, other ∉ order)
    (outside : node ∉ path) : ∀ other ∈ path, other ∉ order ++ [node] := by
  intro other member listed
  rcases List.mem_append.1 listed with old | new
  · exact apart other member old
  · exact outside (List.mem_singleton.1 new ▸ member)

variable [DecidableEq α]

structure Topological (nodes : List α) (next : α → List α) (order : List α) : Prop where
  known : order ⊆ nodes
  unique : order.Nodup
  behind : ∀ source ∈ order, ∀ target, Edge nodes next source target →
    order.idxOf target < order.idxOf source

theorem Topological.nil : Topological nodes next [] where
  known := by simp
  unique := List.nodup_nil
  behind := by simp

theorem Topological.closed {order : List α} {source target : α}
    (sorted : Topological nodes next order) (listed : source ∈ order)
    (edge : Edge nodes next source target) : target ∈ order :=
  List.idxOf_lt_length_iff.1 (Nat.lt_trans (sorted.behind source listed target edge)
    (List.idxOf_lt_length_iff.2 listed))

theorem Topological.reached {order : List α} {source target : α}
    (sorted : Topological nodes next order) (listed : source ∈ order)
    (leads : Relation.ReflTransGen (Edge nodes next) source target) : target ∈ order := by
  induction leads with
  | refl => exact listed
  | tail _ edge ih => exact sorted.closed ih edge

theorem Topological.snoc {order : List α} {node : α} (sorted : Topological nodes next order)
    (known : node ∈ nodes) (fresh : node ∉ order)
    (closed : ∀ target ∈ next node, target ∈ nodes → target ∈ order) :
    Topological nodes next (order ++ [node]) where
  known := by
    intro other member
    rcases List.mem_append.1 member with old | new
    · exact sorted.known old
    · exact List.mem_singleton.1 new ▸ known
  unique := by
    rw [List.nodup_append]
    refine ⟨sorted.unique, by simp, ?_⟩
    intro other old last new same
    subst same
    exact fresh (List.mem_singleton.1 new ▸ old)
  behind := by
    intro source member target edge
    rcases List.mem_append.1 member with old | new
    · have earlier := sorted.behind source old target edge
      have listed := sorted.closed old edge
      simpa [List.idxOf_append, old, listed] using earlier
    · have same := List.mem_singleton.1 new
      subst same
      have listed := closed target edge.2.1 edge.2.2
      simpa [List.idxOf_append, fresh, listed] using List.idxOf_lt_length_iff.2 listed

theorem Topological.before_of_path {order : List α} {source target : α}
    (sorted : Topological nodes next order) (complete : nodes ⊆ order)
    (path : Relation.TransGen (Edge nodes next) source target) :
    order.idxOf target < order.idxOf source := by
  induction path with
  | single edge => exact sorted.behind source (complete edge.1) _ edge
  | tail _ edge ih => exact Nat.lt_trans (sorted.behind _ (complete edge.1) _ edge) ih

theorem Topological.acyclic {order : List α} (sorted : Topological nodes next order)
    (complete : nodes ⊆ order) (node : α) :
    ¬ Relation.TransGen (Edge nodes next) node node :=
  fun cycle => Nat.lt_irrefl _ (sorted.before_of_path complete cycle)

theorem emits_of_extend {path wanted order result : List α}
    (success : extend nodes next path wanted order = .ok result) :
    Emits nodes next wanted order result := by
  fun_induction extend nodes next path wanted order generalizing result with
  | case1 path order =>
      cases success
      exact .done _
  | case2 path node rest order listed ih => exact .skip (.inl listed) (ih success)
  | case3 => cases success
  | case4 => cases success
  | case5 path node rest order fresh _ known below first ihFirst ihLater =>
      exact .list known fresh (ihFirst first) (ihLater success)
  | case6 path node rest order _ _ unknown ih => exact .skip (.inr unknown) (ih success)

/-- No node whose numbering has begun and not ended is listed by the walk below it. -/
theorem extend_avoids_path {path wanted order result : List α}
    (success : extend nodes next path wanted order = .ok result)
    (apart : ∀ node ∈ path, node ∉ order) : ∀ node ∈ path, node ∉ result := by
  fun_induction extend nodes next path wanted order generalizing result with
  | case1 path order =>
      cases success
      exact apart
  | case2 path node rest order listed ih => exact ih success apart
  | case3 => cases success
  | case4 => cases success
  | case5 path node rest order fresh begun known below first ihFirst ihLater =>
      have apartBelow := ihFirst first (List.forall_mem_cons.2 ⟨fresh, apart⟩)
      exact ihLater success (avoids_snoc (List.forall_mem_cons.1 apartBelow).2 begun)
  | case6 path node rest order _ _ unknown ih => exact ih success apart

theorem topological_of_extend {path wanted order result : List α}
    (success : extend nodes next path wanted order = .ok result)
    (apart : ∀ node ∈ path, node ∉ order) (sorted : Topological nodes next order) :
    Topological nodes next result := by
  fun_induction extend nodes next path wanted order generalizing result with
  | case1 path order =>
      cases success
      exact sorted
  | case2 path node rest order listed ih => exact ih success apart sorted
  | case3 => cases success
  | case4 => cases success
  | case5 path node rest order fresh begun known below first ihFirst ihLater =>
      have apartNode : ∀ other ∈ node :: path, other ∉ order :=
        List.forall_mem_cons.2 ⟨fresh, apart⟩
      have apartBelow := extend_avoids_path first apartNode
      apply ihLater success
      · exact avoids_snoc (List.forall_mem_cons.1 apartBelow).2 begun
      · exact (ihFirst first apartNode sorted).snoc known (apartBelow node List.mem_cons_self)
          (emits_of_extend first).covers
  | case6 path node rest order _ _ unknown ih => exact ih success apart sorted

/-- An order that is extended has the nodes that it had and all that the wanted nodes lead to. -/
theorem mem_of_extend_iff {path wanted order result : List α} {node : α}
    (success : extend nodes next path wanted order = .ok result)
    (sorted : Topological nodes next result) : node ∈ result ↔
      node ∈ order ∨ node ∈ nodes ∧
        ∃ root ∈ wanted, Relation.ReflTransGen (Edge nodes next) root node := by
  have run := emits_of_extend success
  constructor
  · intro listed
    by_cases old : node ∈ order
    · exact .inl old
    · obtain ⟨root, member, _, leads⟩ := run.rooted listed old
      exact .inr ⟨sorted.known listed, root, member, leads⟩
  · rintro (old | ⟨known, root, member, leads⟩)
    · exact run.subset old
    · have rootKnown : root ∈ nodes := by
        rcases leads.cases_head with rfl | ⟨_, edge, _⟩
        · exact known
        · exact edge.1
      exact sorted.reached (run.covers root member rootKnown) leads

theorem cycle_of_extend {path wanted order : List α} {closing : α}
    (failure : extend nodes next path wanted order = .error closing) (known : path ⊆ nodes)
    (leads : ∀ begun ∈ path, ∀ node ∈ wanted, node ∈ nodes →
      Relation.TransGen (Edge nodes next) begun node) :
    Relation.TransGen (Edge nodes next) closing closing := by
  -- The invariant is that the path leads to what is wanted, so a wanted node on it leads to itself.
  fun_induction extend nodes next path wanted order with
  | case1 => cases failure
  | case2 path node rest order _ ih =>
      exact ih failure known fun begun onPath other member =>
        leads begun onPath other (List.mem_cons_of_mem _ member)
  | case3 path node rest order _ begun =>
      cases failure
      exact leads _ begun _ List.mem_cons_self (known begun)
  | case4 path node rest order _ _ inside closing below ih =>
      cases failure
      apply ih below
      · exact List.cons_subset.2 ⟨inside, known⟩
      · intro begun onPath target pointed targetKnown
        have edge : Edge nodes next node target := ⟨inside, pointed, targetKnown⟩
        rcases List.mem_cons.1 onPath with rfl | earlier
        · exact .single edge
        · exact (leads begun earlier node List.mem_cons_self inside).tail edge
  | case5 path node rest order _ _ _ below _ _ ihLater =>
      exact ihLater failure known fun begun onPath other member =>
        leads begun onPath other (List.mem_cons_of_mem _ member)
  | case6 path node rest order _ _ _ ih =>
      exact ih failure known fun begun onPath other member =>
        leads begun onPath other (List.mem_cons_of_mem _ member)

theorem topological_of_order {result : List α} (success : order nodes next = .ok result) :
    Topological nodes next result :=
  topological_of_extend success (by simp) .nil

theorem subset_of_order {result : List α} (success : order nodes next = .ok result) :
    nodes ⊆ result :=
  fun node member => (emits_of_extend success).covers node member member

theorem perm_of_order {result : List α} (unique : nodes.Nodup)
    (success : order nodes next = .ok result) : result.Perm nodes :=
  (List.perm_ext_iff_of_nodup (topological_of_order success).unique unique).2 fun _ =>
    ⟨fun member => (topological_of_order success).known member,
      fun member => subset_of_order success member⟩

theorem cycle_of_order {closing : α} (failure : order nodes next = .error closing) :
    Relation.TransGen (Edge nodes next) closing closing :=
  cycle_of_extend failure (by simp) (by simp)

theorem exists_error_order_iff :
    (∃ closing, order nodes next = .error closing) ↔
      ∃ node, Relation.TransGen (Edge nodes next) node node := by
  constructor
  · rintro ⟨closing, failure⟩
    exact ⟨closing, cycle_of_order failure⟩
  · rintro ⟨node, cycle⟩
    cases outcome : order nodes next with
    | error closing => exact ⟨closing, rfl⟩
    | ok result =>
        exact absurd cycle
          ((topological_of_order outcome).acyclic (subset_of_order outcome) node)

end ClassTable.Precedence
