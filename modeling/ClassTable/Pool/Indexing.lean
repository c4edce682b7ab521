import ClassTable.Pool.Basic
import ClassTable.Precedence

/-!
The pass that gives every class its place in the class definition table. A class comes after those
of its supertypes that are in the pool; apart from that, classes are numbered in the order of their
types. A failed pass writes nothing.
-/

namespace ClassTable.Pool

def supertypes (pool : Pool) (type : Descriptor) : List Descriptor :=
  match pool.get? type with
  | none => []
  | some entry => entry.supertypes

def precedence (pool : Pool) : Except PoolError (List Descriptor) :=
  (Precedence.order pool.types pool.supertypes).mapError .hierarchyCycle

def index? (pool : Pool) (type : Descriptor) : Option UInt32 :=
  (pool.get? type).bind fun entry => entry.index.get?

/-- The index of every type of an order, counted from a position. A class that has an index keeps
it, and so has no place in the plan. -/
def planIndices (pool : Pool) (position : Nat) :
    List Descriptor → Except PoolError (List (Descriptor × UInt32))
  | [] => .ok []
  | type :: rest =>
    match Word.ofNat? position with
    | none => .error .tooManyClasses
    | some index =>
      match pool.index? type with
      | some current => .error (.slot (.alreadyAssigned .classDefIndex current index))
      | none => ((type, index) :: ·) <$> pool.planIndices (position + 1) rest

def assignIndices (pool : Pool) : Pass (List Descriptor) :=
  match pool.precedence with
  | .error failure => ⟨.error failure, pool, []⟩
  | .ok order =>
    match pool.planIndices 0 order with
    | .error failure => ⟨.error failure, pool, []⟩
    | .ok plan =>
      let written := write .classDefIndex plan pool
      match written.result with
      | .error failure => ⟨.error failure, written.pool, written.events⟩
      | .ok () => ⟨.ok order, written.pool, written.events ++ [.indicesAssigned order.length]⟩

end ClassTable.Pool
