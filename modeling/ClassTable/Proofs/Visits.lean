import ClassTable.Proofs.Hierarchy

/-!
The numbering as visits that call each other and mark their nodes, with room for only so many of them
at a time. Whatever the graph is like, room for one visit more than there are nodes is enough, no
node is opened twice, and the visits end as the walk of the numbering does.
-/

namespace ClassTable.Precedence

variable {α : Type}

inductive Mark where
  | begun
  | done
  deriving DecidableEq

/-- What visits leave behind: the marks, the latest first, the order, and the nodes that were opened,
which is to say that what they point to was visited. -/
structure Progress (α : Type) where
  marks : List (α × Mark) := []
  order : List α := []
  opened : List α := []

def Progress.begin (progress : Progress α) (node : α) : Progress α where
  marks := (node, .begun) :: progress.marks
  order := progress.order
  opened := progress.opened ++ [node]

def Progress.finish (progress : Progress α) (node : α) : Progress α where
  marks := (node, .done) :: progress.marks
  order := progress.order ++ [node]
  opened := progress.opened

namespace Progress

variable (progress : Progress α) (node : α)

@[simp] theorem order_begin : (progress.begin node).order = progress.order := rfl

@[simp] theorem opened_begin : (progress.begin node).opened = progress.opened ++ [node] := rfl

@[simp] theorem order_finish : (progress.finish node).order = progress.order ++ [node] := rfl

@[simp] theorem opened_finish : (progress.finish node).opened = progress.opened := rfl

end Progress

def visitEach (visit : α → Progress α → Option (Except α Unit × Progress α)) :
    List α → Progress α → Option (Except α Unit × Progress α)
  | [], progress => some (.ok (), progress)
  | node :: rest, progress => do
    match ← visit node progress with
    | (.error closing, after) => return (.error closing, after)
    | (.ok (), after) => visitEach visit rest after

theorem visitEach_singleton
    (visit : α → Progress α → Option (Except α Unit × Progress α)) (node : α)
    (progress : Progress α) : visitEach visit [node] progress = visit node progress := by
  rw [visitEach]
  rcases visit node progress with _ | ⟨_ | _, after⟩ <;> rfl

theorem visitEach_mono {visit other : α → Progress α → Option (Except α Unit × Progress α)}
    (grows : ∀ node progress result, visit node progress = some result →
      other node progress = some result)
    {wanted : List α} {progress : Progress α} {result : Except α Unit × Progress α}
    (visited : visitEach visit wanted progress = some result) :
    visitEach other wanted progress = some result := by
  induction wanted generalizing progress with
  | nil => exact visited
  | cons node rest ih =>
      rw [visitEach] at visited ⊢
      obtain ⟨⟨closing | _, after⟩, first, later⟩ := Option.bind_eq_some_iff.1 visited
      · rw [grows node progress _ first]
        exact later
      · rw [grows node progress _ first]
        exact ih later

variable [DecidableEq α]

def Progress.mark? (progress : Progress α) (node : α) : Option Mark :=
  (progress.marks.find? fun marked => marked.1 == node).map Prod.snd

@[simp] theorem Progress.mark?_begin (progress : Progress α) (node other : α) :
    (progress.begin node).mark? other =
      if other = node then some .begun else progress.mark? other := by
  rw [mark?, begin, List.find?_cons]
  by_cases same : other = node
  · simp [same]
  · simp [same, beq_eq_false_iff_ne.2 (Ne.symm same), mark?]

@[simp] theorem Progress.mark?_finish (progress : Progress α) (node other : α) :
    (progress.finish node).mark? other =
      if other = node then some .done else progress.mark? other := by
  rw [mark?, finish, List.find?_cons]
  by_cases same : other = node
  · simp [same]
  · simp [same, beq_eq_false_iff_ne.2 (Ne.symm same), mark?]

def leave (node : α) : Except α Unit × Progress α → Except α Unit × Progress α
  | (.ok (), after) => (.ok (), after.finish node)
  | (.error closing, after) => (.error closing, after)

/-- Visits a node, with room for so many visits that are open at a time. A node whose visit has begun
and not ended is an error, one that is done or not known is passed over, and any other is opened.
There is no result if the room is not enough. -/
def visit (nodes : List α) (next : α → List α) :
    Nat → α → Progress α → Option (Except α Unit × Progress α)
  | 0, _, _ => none
  | room + 1, node, progress =>
    match progress.mark? node with
    | some .done => some (.ok (), progress)
    | some .begun => some (.error node, progress)
    | none =>
      if node ∈ nodes then
        (visitEach (visit nodes next room) (next node) (progress.begin node)).map (leave node)
      else some (.ok (), progress)

/-- The visits that take place when all nodes are visited in turn: how many visits are open, this one
included, the node, and what the visits before it have left behind. -/
inductive Arises (nodes : List α) (next : α → List α) : Nat → α → Progress α → Prop
  | root {node : α} {earlier later : List α} {room : Nat} {before : Progress α}
      (listed : nodes = earlier ++ node :: later)
      (passed : visitEach (visit nodes next room) earlier {} = some (.ok (), before)) :
      Arises nodes next 1 node before
  | nested {depth : Nat} {node target : α} {earlier later : List α} {room : Nat}
      {caller before : Progress α} (outer : Arises nodes next depth node caller)
      (fresh : caller.mark? node = none) (known : node ∈ nodes)
      (pointed : next node = earlier ++ target :: later)
      (passed : visitEach (visit nodes next room) earlier (caller.begin node) =
        some (.ok (), before)) :
      Arises nodes next (depth + 1) target before

variable {nodes : List α} {next : α → List α} {path wanted rest : List α} {node closing : α}
  {before middle after progress : Progress α} {ending : Except α Unit} {room : Nat}

theorem visit_of_done (enough : 0 < room) (marked : progress.mark? node = some .done) :
    visit nodes next room node progress = some (.ok (), progress) := by
  obtain ⟨less, rfl⟩ := Nat.exists_eq_add_one.2 enough
  rw [visit, marked]

theorem visit_of_begun (enough : 0 < room) (marked : progress.mark? node = some .begun) :
    visit nodes next room node progress = some (.error node, progress) := by
  obtain ⟨less, rfl⟩ := Nat.exists_eq_add_one.2 enough
  rw [visit, marked]

theorem visit_of_unknown (enough : 0 < room) (fresh : progress.mark? node = none)
    (unknown : node ∉ nodes) : visit nodes next room node progress = some (.ok (), progress) := by
  obtain ⟨less, rfl⟩ := Nat.exists_eq_add_one.2 enough
  rw [visit, fresh]
  exact if_neg unknown

theorem visit_of_known (fresh : progress.mark? node = none) (known : node ∈ nodes) :
    visit nodes next (room + 1) node progress =
      (visitEach (visit nodes next room) (next node) (progress.begin node)).map (leave node) := by
  rw [visit, fresh]
  exact if_pos known

theorem visit_mono {larger : Nat} (atLeast : room ≤ larger) {result : Except α Unit × Progress α}
    (visited : visit nodes next room node progress = some result) :
    visit nodes next larger node progress = some result := by
  induction room generalizing larger node progress result with
  | zero => cases visited
  | succ room ih =>
      obtain ⟨larger, rfl⟩ := Nat.exists_eq_add_of_le' (Nat.le_of_add_left_le atLeast)
      have grows : ∀ node progress result, visit nodes next room node progress = some result →
          visit nodes next larger node progress = some result :=
        fun _ _ _ => ih (Nat.le_of_succ_le_succ atLeast)
      rw [visit] at visited ⊢
      split at visited
      next marked => exact visited
      next marked => exact visited
      next fresh =>
        split at visited
        next known =>
          obtain ⟨outcome, below, left⟩ := Option.map_eq_some_iff.1 visited
          rw [if_pos known, visitEach_mono grows below]
          exact congrArg some left
        next unknown =>
          rw [if_neg unknown]
          exact visited

/-- What visits keep while those of the nodes of a path are open: the path is begun, the order is
done, and the nodes that bear a mark are those that were opened, each of them once. -/
structure Consistent (nodes : List α) (next : α → List α) (path : List α)
    (progress : Progress α) : Prop where
  begun : ∀ node, progress.mark? node = some .begun ↔ node ∈ path
  done : ∀ node, progress.mark? node = some .done ↔ node ∈ progress.order
  opened : ∀ node, node ∈ progress.opened ↔ progress.mark? node ≠ none
  once : progress.opened.Nodup
  known : path ⊆ nodes
  unique : path.Nodup
  sorted : Topological nodes next progress.order

namespace Consistent

theorem start (nodes : List α) (next : α → List α) : Consistent nodes next [] {} where
  begun := by simp [Progress.mark?]
  done := by simp [Progress.mark?]
  opened := by simp [Progress.mark?]
  once := List.nodup_nil
  known := by simp
  unique := List.nodup_nil
  sorted := .nil

theorem mark?_eq_none_iff (consistent : Consistent nodes next path progress) :
    progress.mark? node = none ↔ node ∉ path ∧ node ∉ progress.order := by
  rw [← consistent.begun, ← consistent.done]
  rcases progress.mark? node with _ | _ | _ <;> simp

theorem opened_subset (consistent : Consistent nodes next path progress) :
    progress.opened ⊆ nodes := by
  intro node opened
  have marked := (consistent.opened node).1 opened
  rw [ne_eq, consistent.mark?_eq_none_iff, not_and_or, not_not, not_not] at marked
  rcases marked with begun | done
  · exact consistent.known begun
  · exact consistent.sorted.known done

theorem begin (consistent : Consistent nodes next path progress)
    (fresh : progress.mark? node = none) (known : node ∈ nodes) :
    Consistent nodes next (node :: path) (progress.begin node) where
  begun := by
    intro other
    rw [Progress.mark?_begin, List.mem_cons, ← consistent.begun]
    split <;> simp_all
  done := by
    intro other
    rw [Progress.mark?_begin, Progress.order_begin, ← consistent.done]
    split <;> simp_all
  opened := by
    intro other
    rw [Progress.mark?_begin, Progress.opened_begin, List.mem_append, consistent.opened]
    split <;> simp_all
  once := by
    have closed : node ∉ progress.opened := by simp [consistent.opened, fresh]
    simpa using consistent.once.concat closed
  known := List.cons_subset.2 ⟨known, consistent.known⟩
  unique := List.nodup_cons.2 ⟨(consistent.mark?_eq_none_iff.1 fresh).1, consistent.unique⟩
  sorted := consistent.sorted

theorem finish (consistent : Consistent nodes next (node :: path) progress)
    (closed : ∀ target ∈ next node, target ∈ nodes → target ∈ progress.order) :
    Consistent nodes next path (progress.finish node) where
  begun := by
    intro other
    have outside := (List.nodup_cons.1 consistent.unique).1
    have begun := consistent.begun other
    rw [Progress.mark?_finish]
    rw [List.mem_cons] at begun
    split <;> simp_all
  done := by
    intro other
    rw [Progress.mark?_finish, Progress.order_finish, List.mem_append, ← consistent.done]
    split <;> simp_all
  opened := by
    intro other
    have begun := (consistent.begun node).2 List.mem_cons_self
    rw [Progress.mark?_finish, Progress.opened_finish, consistent.opened]
    split <;> simp_all
  once := consistent.once
  known := (List.cons_subset.1 consistent.known).2
  unique := (List.nodup_cons.1 consistent.unique).2
  sorted := by
    have begun := (consistent.begun node).2 List.mem_cons_self
    have fresh : node ∉ progress.order := by
      rw [← consistent.done, begun]
      simp
    exact consistent.sorted.snoc (consistent.known List.mem_cons_self) fresh closed

end Consistent

/-- Visits of wanted nodes in turn, with any room that is enough for the nodes that are not on the
path, end as the walk ends and list what it lists. -/
structure Runs (nodes : List α) (next : α → List α) (path wanted : List α) (before : Progress α)
    (ending : Except α Unit) (after : Progress α) : Prop where
  visited : ∀ room, unopened nodes path < room →
    visitEach (visit nodes next room) wanted before = some (ending, after)
  walked : extend nodes next path wanted before.order = ending.map fun _ => after.order
  consistent : ∃ begun, Consistent nodes next begun after ∧ (ending = .ok () → begun = path)

namespace Runs

theorem done (consistent : Consistent nodes next path before) :
    Runs nodes next path [] before (.ok ()) before where
  visited := fun _ _ => rfl
  walked := by
    rw [extend]
    rfl
  consistent := ⟨path, consistent, fun _ => rfl⟩

theorem pass
    (first : ∀ room, unopened nodes path < room →
      visit nodes next room node before = some (.ok (), middle))
    (walked : extend nodes next path (node :: rest) before.order =
      extend nodes next path rest middle.order)
    (later : Runs nodes next path rest middle ending after) :
    Runs nodes next path (node :: rest) before ending after where
  visited := by
    intro room enough
    rw [visitEach, first room enough]
    exact later.visited room enough
  walked := walked.trans later.walked
  consistent := later.consistent

theorem stop {begun : List α}
    (first : ∀ room, unopened nodes path < room →
      visit nodes next room node before = some (.error closing, after))
    (walked : extend nodes next path (node :: rest) before.order = .error closing)
    (consistent : Consistent nodes next begun after) :
    Runs nodes next path (node :: rest) before (.error closing) after where
  visited := by
    intro room enough
    rw [visitEach, first room enough]
    rfl
  walked := walked
  consistent := ⟨begun, consistent, nofun⟩

theorem unique {reached : Progress α} {other : Except α Unit}
    (runs : Runs nodes next path wanted before ending after)
    (visited : visitEach (visit nodes next room) wanted before = some (other, reached)) :
    other = ending ∧ reached = after := by
  -- More room changes no result, and both visits have the same one where there is room for both.
  have larger : room ≤ room + unopened nodes path + 1 := by omega
  have more := visitEach_mono (fun _ _ _ => visit_mono larger) visited
  rw [runs.visited _ (by omega)] at more
  cases more
  exact ⟨rfl, rfl⟩

theorem consistent_of_passed (runs : Runs nodes next path wanted before (.ok ()) after) :
    Consistent nodes next path after := by
  obtain ⟨begun, consistent, same⟩ := runs.consistent
  exact same rfl ▸ consistent

end Runs

theorem visit_of_runs (known : node ∈ nodes) (outside : node ∉ path)
    (fresh : before.mark? node = none)
    (runs : Runs nodes next (node :: path) (next node) (before.begin node) ending after)
    (enough : unopened nodes path < room) :
    visit nodes next room node before = some (leave node (ending, after)) := by
  -- The visit takes room for one, but there is one node less to open below it.
  have fewer := unopened_cons_lt known outside
  obtain ⟨less, rfl⟩ := Nat.exists_eq_add_one.2 (Nat.zero_lt_of_lt enough)
  rw [visit_of_known fresh known, runs.visited less (by omega), Option.map_some]

theorem exists_runs (consistent : Consistent nodes next path before) (wanted : List α) :
    ∃ ending after, Runs nodes next path wanted before ending after := by
  obtain ⟨order, listed⟩ : ∃ order, order = before.order := ⟨_, rfl⟩
  -- The induction is on the walk; the visits follow it, with the path as the nodes that are begun.
  fun_induction extend nodes next path wanted order generalizing before with
  | case1 path order => exact ⟨.ok (), before, .done consistent⟩
  | case2 path node rest order member ih =>
      subst listed
      obtain ⟨ending, after, later⟩ := ih consistent rfl
      refine ⟨ending, after, .pass (fun room enough => ?_) (extend_of_idle (.inl member)) later⟩
      exact visit_of_done (Nat.zero_lt_of_lt enough) ((consistent.done node).2 member)
  | case3 path node rest order fresh begun =>
      subst listed
      refine ⟨.error node, before, .stop (fun room enough => ?_) ?_ consistent⟩
      · exact visit_of_begun (Nat.zero_lt_of_lt enough) ((consistent.begun node).2 begun)
      · rw [extend, if_neg fresh, dif_pos begun]
  | case4 path node rest order fresh outside known closing failed ih =>
      subst listed
      have unmarked := consistent.mark?_eq_none_iff.2 ⟨outside, fresh⟩
      obtain ⟨ending, after, runs⟩ := ih (consistent.begin unmarked known) rfl
      obtain ⟨begun, consistentAfter, _⟩ := runs.consistent
      obtain rfl : ending = .error closing := by
        have walked := failed.symm.trans runs.walked
        cases ending <;> cases walked
        rfl
      refine ⟨.error closing, after, .stop (fun room enough => ?_) ?_ consistentAfter⟩
      · exact visit_of_runs known outside unmarked runs enough
      · rw [extend, if_neg fresh, dif_neg outside, dif_pos known, failed]
  | case5 path node rest order fresh outside known grown passed ihBelow ihRest =>
      subst listed
      have unmarked := consistent.mark?_eq_none_iff.2 ⟨outside, fresh⟩
      obtain ⟨ending, below, runs⟩ := ihBelow (consistent.begin unmarked known) rfl
      obtain ⟨rfl, rfl⟩ : ending = .ok () ∧ grown = below.order := by
        have walked := passed.symm.trans runs.walked
        cases ending <;> cases walked
        exact ⟨rfl, rfl⟩
      have covered := (emits_of_extend passed).covers
      obtain ⟨ending, after, later⟩ := ihRest (runs.consistent_of_passed.finish covered) rfl
      refine ⟨ending, after, .pass (fun room enough => ?_) ?_ later⟩
      · exact visit_of_runs known outside unmarked runs enough
      · rw [extend, if_neg fresh, dif_neg outside, dif_pos known, passed]
        rfl
  | case6 path node rest order fresh outside unknown ih =>
      subst listed
      have unmarked := consistent.mark?_eq_none_iff.2 ⟨outside, fresh⟩
      obtain ⟨ending, after, later⟩ := ih consistent rfl
      refine ⟨ending, after, .pass (fun room enough => ?_) ?_ later⟩
      · exact visit_of_unknown (Nat.zero_lt_of_lt enough) unmarked unknown
      · exact extend_of_idle (.inr ⟨outside, unknown⟩)

/-- When a visit arises, the nodes whose visits are open make a path, which is one shorter than the
number of the visits that are open then. -/
theorem Arises.consistent {depth : Nat} (arises : Arises nodes next depth node before) :
    ∃ path, Consistent nodes next path before ∧ path.length + 1 = depth := by
  induction arises with
  | root listed passed =>
      obtain ⟨ending, after, runs⟩ := exists_runs (.start nodes next) _
      obtain ⟨rfl, rfl⟩ := runs.unique passed
      exact ⟨[], runs.consistent_of_passed, rfl⟩
  | nested outer fresh known pointed passed ih =>
      obtain ⟨path, consistent, length⟩ := ih
      obtain ⟨ending, after, runs⟩ := exists_runs (consistent.begin fresh known) _
      obtain ⟨rfl, rfl⟩ := runs.unique passed
      exact ⟨_ :: path, runs.consistent_of_passed, by rw [List.length_cons, length]⟩

theorem unopened_add_length_le (known : path ⊆ nodes) (unique : path.Nodup) :
    unopened nodes path + path.length ≤ nodes.length := by
  have inside : path ⊆ nodes.filter (· ∈ path) := fun node member =>
    List.mem_filter.2 ⟨known member, decide_eq_true member⟩
  have shorter := (List.subperm_of_subset unique inside).length_le
  have divided := nodes.length_eq_countP_add_countP (· ∈ path)
  rw [← List.countP_eq_length_filter] at shorter
  simp only [decide_eq_true_eq] at divided
  rw [unopened]
  omega

/-- What the visit of a node does. It ends as the walk over this node does, with the nodes that are
begun on the path. If it succeeds, it lists, each once, the nodes that are not done among the node
itself and those that it leads to, and it leaves the same nodes begun. -/
structure Visited (nodes : List α) (next : α → List α) (node : α) (before : Progress α)
    (ending : Except α Unit) (after : Progress α) : Prop where
  walked : ∃ path, (∀ other, other ∈ path ↔ before.mark? other = some .begun) ∧
    extend nodes next path [node] before.order = ending.map fun _ => after.order
  listed : ending = .ok () → ∃ added, after.order = before.order ++ added ∧ added.Nodup ∧
    ∀ other, other ∈ added ↔ other ∈ nodes ∧
      Relation.ReflTransGen (Edge nodes next) node other ∧ before.mark? other ≠ some .done
  begun : ending = .ok () → ∀ other,
    after.mark? other = some .begun ↔ before.mark? other = some .begun

theorem visited_of_runs (consistent : Consistent nodes next path before)
    (runs : Runs nodes next path [node] before ending after) :
    Visited nodes next node before ending after where
  walked := ⟨path, fun other => (consistent.begun other).symm, runs.walked⟩
  listed := by
    rintro rfl
    have success : extend nodes next path [node] before.order = .ok after.order := runs.walked
    have sorted := runs.consistent_of_passed.sorted
    obtain ⟨added, grown⟩ := (emits_of_extend success).grows
    obtain ⟨_, once, apart⟩ := List.nodup_append.1 (grown ▸ sorted.unique)
    refine ⟨added, grown.symm, once, fun other => ?_⟩
    have reached : other ∈ after.order ↔ _ := mem_of_extend_iff success sorted
    rw [← grown, List.mem_append] at reached
    constructor
    · intro new
      have fresh : other ∉ before.order := fun old => apart other old other new rfl
      obtain ⟨known, root, member, leads⟩ := (reached.1 (.inr new)).resolve_left fresh
      cases List.mem_singleton.1 member
      exact ⟨known, leads, fun done => fresh ((consistent.done other).1 done)⟩
    · rintro ⟨known, leads, undone⟩
      have fresh : other ∉ before.order := fun old => undone ((consistent.done other).2 old)
      have listed := reached.2 (.inr ⟨known, node, List.mem_singleton_self node, leads⟩)
      exact listed.resolve_left fresh
  begun := by
    rintro rfl
    intro other
    rw [runs.consistent_of_passed.begun, consistent.begun]

end ClassTable.Precedence

namespace ClassTable.Pool

/-- The numbering as visits that mark the pooled types. With room for one visit more than there are
classes, and with any larger room, the visits of all types in turn end as the search for an order
does, and no class is opened twice. Whatever the hierarchy is like, when a visit arises on the way,
at most as many visits are open as there are classes and one more, itself included. It ends with the
room that is left, and it lists the supertypes that are not done and leaves begun what was begun. -/
theorem visits_bounded (pool : Pool) :
    (∃ ending after,
      (∀ room, pool.size < room →
        Precedence.visitEach (Precedence.visit pool.types pool.supertypes room) pool.types {} =
          some (ending, after)) ∧
      pool.precedence = (ending.map fun _ => after.order).mapError .hierarchyCycle ∧
      after.opened.Nodup ∧ after.opened ⊆ pool.types) ∧
    ∀ depth type before, Precedence.Arises pool.types pool.supertypes depth type before →
      depth ≤ pool.size + 1 ∧
      ∃ ending after,
        (∀ room, pool.size + 1 < room + depth →
          Precedence.visit pool.types pool.supertypes room type before = some (ending, after)) ∧
        Precedence.Visited pool.types pool.supertypes type before ending after := by
  constructor
  · obtain ⟨ending, after, runs⟩ :=
      Precedence.exists_runs (.start pool.types pool.supertypes) pool.types
    obtain ⟨begun, consistent, _⟩ := runs.consistent
    refine ⟨ending, after, fun room enough => runs.visited room ?_, ?_, consistent.once,
      consistent.opened_subset⟩
    · have fits := Precedence.unopened_add_length_le (List.nil_subset pool.types) List.nodup_nil
      rw [length_types] at fits
      exact Nat.lt_of_le_of_lt fits enough
    · exact congrArg (Except.mapError PoolError.hierarchyCycle) runs.walked
  · intro depth type before arises
    obtain ⟨path, consistent, rfl⟩ := arises.consistent
    obtain ⟨ending, after, runs⟩ := Precedence.exists_runs consistent [type]
    have fits := Precedence.unopened_add_length_le consistent.known consistent.unique
    rw [length_types] at fits
    refine ⟨by omega, ending, after, fun room enough => ?_,
      Precedence.visited_of_runs consistent runs⟩
    exact (Precedence.visitEach_singleton _ type before).symm.trans (runs.visited room (by omega))

/-- With as much room as there are classes, the visits of a cycle may not get to their end. -/
example : Precedence.visitEach
    (Precedence.visit twisted.types twisted.supertypes twisted.size) twisted.types {} = none := by
  cbv

def twistedProgress : Precedence.Progress Descriptor :=
  ((Precedence.Progress.begin {} ⟨"La;"⟩).begin ⟨"Lb;"⟩).begin ⟨"Lc;"⟩

theorem twistedProgress_arises :
    Precedence.Arises twisted.types twisted.supertypes 4 ⟨"Lb;"⟩ twistedProgress := by
  have listed : twisted.types = [] ++ ⟨"La;"⟩ :: [⟨"Lb;"⟩, ⟨"Lc;"⟩] := by cbv
  have outside : twisted.supertypes ⟨"La;"⟩ = [] ++ ⟨"Lb;"⟩ :: [] := by cbv
  have first : twisted.supertypes ⟨"Lb;"⟩ = [] ++ ⟨"Lc;"⟩ :: [] := by cbv
  have second : twisted.supertypes ⟨"Lc;"⟩ = [] ++ ⟨"Lb;"⟩ :: [] := by cbv
  have none (progress : Precedence.Progress Descriptor) : Precedence.visitEach
      (Precedence.visit twisted.types twisted.supertypes 0) [] progress =
        some (.ok (), progress) := rfl
  have entered : Precedence.Arises twisted.types twisted.supertypes 2 ⟨"Lb;"⟩ _ :=
    .nested (.root listed (none {})) rfl (by simp [listed]) outside (none _)
  have inside : Precedence.Arises twisted.types twisted.supertypes 3 ⟨"Lc;"⟩ _ :=
    .nested entered (by cbv) (by simp [listed]) first (none _)
  exact .nested inside (by cbv) (by simp [listed]) second (none _)

def diamondProgress : Precedence.Progress Descriptor where
  marks := [(⟨"Lc;"⟩, .done), (⟨"Ld;"⟩, .done), (⟨"Ld;"⟩, .begun), (⟨"Lc;"⟩, .begun),
    (⟨"La;"⟩, .begun)]
  order := [⟨"Ld;"⟩, ⟨"Lc;"⟩]
  opened := [⟨"La;"⟩, ⟨"Lc;"⟩, ⟨"Ld;"⟩]

theorem diamondProgress_arises :
    Precedence.Arises diamond.types diamond.supertypes 2 ⟨"Lb;"⟩ diamondProgress := by
  have listed : diamond.types = [] ++ ⟨"La;"⟩ :: [⟨"Lb;"⟩, ⟨"Lc;"⟩, ⟨"Ld;"⟩] := by cbv
  have pointed : diamond.supertypes ⟨"La;"⟩ = [⟨"Lc;"⟩] ++ ⟨"Lb;"⟩ :: [⟨"Lc;"⟩] := by cbv
  have none : Precedence.visitEach (Precedence.visit diamond.types diamond.supertypes 0) [] {} =
      some (.ok (), {}) := rfl
  have passed : Precedence.visitEach (Precedence.visit diamond.types diamond.supertypes 3)
      [⟨"Lc;"⟩] (Precedence.Progress.begin {} ⟨"La;"⟩) = some (.ok (), diamondProgress) := by cbv
  exact .nested (.root listed none) rfl (by simp [listed]) pointed passed

/-- The deepest visit that three classes allow, which closes a cycle, and one that adds a class to
an order. -/
theorem twisted_and_diamond_visited :
    (Precedence.Arises twisted.types twisted.supertypes 4 ⟨"Lb;"⟩ twistedProgress ∧
      4 ≤ twisted.size + 1 ∧ ∀ room, twisted.size + 1 < room + 4 →
        Precedence.visit twisted.types twisted.supertypes room ⟨"Lb;"⟩ twistedProgress =
          some (.error ⟨"Lb;"⟩, twistedProgress)) ∧
    Precedence.Arises diamond.types diamond.supertypes 2 ⟨"Lb;"⟩ diamondProgress ∧
      2 ≤ diamond.size + 1 ∧ ∃ after, after.order = [⟨"Ld;"⟩, ⟨"Lc;"⟩, ⟨"Lb;"⟩] ∧
        Precedence.Visited diamond.types diamond.supertypes ⟨"Lb;"⟩ diamondProgress (.ok ())
          after := by
  constructor
  · obtain ⟨depth, ending, after, visited, _⟩ :=
      (visits_bounded twisted).2 4 ⟨"Lb;"⟩ twistedProgress twistedProgress_arises
    have failed : Precedence.visit twisted.types twisted.supertypes 1 ⟨"Lb;"⟩ twistedProgress =
        some (.error ⟨"Lb;"⟩, twistedProgress) := by cbv
    cases (visited 1 (by cbv)).symm.trans failed
    exact ⟨twistedProgress_arises, depth, visited⟩
  · obtain ⟨depth, ending, after, visited, outcome⟩ :=
      (visits_bounded diamond).2 2 ⟨"Lb;"⟩ diamondProgress diamondProgress_arises
    have passed : (Precedence.visit diamond.types diamond.supertypes 4 ⟨"Lb;"⟩ diamondProgress).map
        (fun result => (result.1, result.2.order)) =
          some (.ok (), [⟨"Ld;"⟩, ⟨"Lc;"⟩, ⟨"Lb;"⟩]) := by cbv
    rw [visited 4 (by cbv), Option.map_some, Option.some_inj, Prod.mk.injEq] at passed
    obtain ⟨rfl, listed⟩ := passed
    exact ⟨diamondProgress_arises, depth, after, listed, outcome⟩

end ClassTable.Pool
