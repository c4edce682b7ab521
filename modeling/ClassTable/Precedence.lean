/-!
Depth-first numbering of a directed graph. Nodes are visited in a given order; before a node is
numbered, the nodes that it points to are, in the order in which it names them. A node that leads
back to one whose numbering has begun and not ended closes a cycle, and no order is found.
-/

namespace ClassTable.Precedence

variable {α : Type} [DecidableEq α]

def unopened (nodes path : List α) : Nat :=
  nodes.countP (· ∉ path)

theorem unopened_cons_lt {nodes path : List α} {node : α} (known : node ∈ nodes)
    (fresh : node ∉ path) : unopened nodes (node :: path) < unopened nodes path := by
  unfold unopened
  induction nodes with
  | nil => simp at known
  | cons first rest ih =>
    have weaker : rest.countP (fun other => decide (other ∉ node :: path)) ≤
        rest.countP (fun other => decide (other ∉ path)) :=
      List.countP_mono_left fun other _ outside => by simp_all
    by_cases same : first = node
    · subst same
      simp only [List.countP_cons, List.mem_cons, true_or, not_true_eq_false, decide_false,
        Bool.false_eq_true, ↓reduceIte, fresh, not_false_eq_true, decide_true]
      simp only [List.mem_cons] at weaker
      omega
    · have := ih (by simpa [Ne.symm same] using known)
      simp only [List.countP_cons, List.mem_cons, same, false_or] at this ⊢
      omega

/-- Extends an order by the wanted nodes and by all that they lead to. The path holds the nodes
whose numbering has begun and not ended, the latest first; if one of them is wanted, it is the
error. -/
def extend (nodes : List α) (next : α → List α) (path : List α) :
    List α → List α → Except α (List α)
  | [], order => .ok order
  | node :: rest, order =>
    if node ∈ order then extend nodes next path rest order
    else if _begun : node ∈ path then .error node
    else if _known : node ∈ nodes then
      match extend nodes next (node :: path) (next node) order with
      | .error closing => .error closing
      | .ok order => extend nodes next path rest (order ++ [node])
    else extend nodes next path rest order
termination_by wanted => (unopened nodes path, wanted.length)
decreasing_by
  all_goals simp_wf
  · exact .right _ (by omega)
  · exact .left _ _ (unopened_cons_lt _known _begun)
  · exact .right _ (by omega)
  · exact .right _ (by omega)

def order (nodes : List α) (next : α → List α) : Except α (List α) :=
  extend nodes next [] nodes []

end ClassTable.Precedence
