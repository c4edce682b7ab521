import ClassTable.ClassDef.Basic
import ClassTable.LogEvent

/-!
The pool of the classes of one output file. A pool holds at most one entry for each type, in the
order of the types. An operation returns its result, the pool as it leaves it and what it reports.
-/

namespace ClassTable

structure Pool where
  entries : SortedSet Entry := .empty

inductive PoolError where
  | duplicateClass (type : Descriptor)
  | hierarchyCycle (type : Descriptor)
  | indexUnassigned (type : Descriptor)
  | tooManyClasses
  | offsetOverflow (type : Descriptor)
  | slot (error : SlotError)
  deriving DecidableEq, Repr

def PoolError.message : PoolError → String
  | duplicateClass type => "Class " ++ type.text ++ " has already been interned"
  | hierarchyCycle type => "Class hierarchy cycle detected at " ++ type.text
  | indexUnassigned type => "Class " ++ type.text ++ " has no class definition index yet"
  | tooManyClasses => "Too many classes for a 32-bit class definition index"
  | offsetOverflow type => "Annotation directory offset overflowed after " ++ type.text
  | slot error => error.message

structure Pass (α : Type) where
  result : Except PoolError α
  pool : Pool
  events : List LogEvent := []

namespace Pool

def toList (pool : Pool) : List Entry :=
  pool.entries.toList

def size (pool : Pool) : Nat :=
  pool.entries.size

def isEmpty (pool : Pool) : Bool :=
  pool.entries.isEmpty

def types (pool : Pool) : List Descriptor :=
  pool.toList.map fun entry => entry.type

def get? (pool : Pool) (type : Descriptor) : Option Entry :=
  pool.toList.find? fun entry => entry.type == type

def intern (pool : Pool) (entry : Entry) : Pass Entry :=
  match pool.get? entry.type with
  | some _ => ⟨.error (.duplicateClass entry.type), pool, []⟩
  | none => ⟨.ok entry, ⟨pool.entries.merged (.singleton entry)⟩, [.interned entry.type]⟩

def replace (pool : Pool) (entry : Entry) : Pool :=
  ⟨pool.entries.mapKeeping (fun old => if old.type = entry.type then entry else old) (by
    have keeps : ∀ old : Entry, (if old.type = entry.type then entry else old).type = old.type := by
      intro old; split <;> simp_all
    intro left right
    rw [Entry.compare_def, Entry.compare_def, keeps, keeps])⟩

def writeEvent (type : Descriptor) (value : UInt32) : SlotKind → LogEvent
  | .classDefIndex => .indexAssigned type value
  | .annotationDirectoryOffset => .offsetAssigned type value

/-- Writes planned addresses of one kind, one class after another. A refused address ends the
writing, and what was written before it stays. -/
def write (kind : SlotKind) : List (Descriptor × UInt32) → Pool → Pass Unit
  | [], pool => ⟨.ok (), pool, []⟩
  | (type, value) :: rest, pool =>
    match pool.get? type with
    | none => write kind rest pool
    | some entry =>
      match entry.assign kind value with
      | .error refusal => ⟨.error (.slot refusal), pool, []⟩
      | .ok assigned =>
        let later := write kind rest (pool.replace assigned)
        { later with events := writeEvent type value kind :: later.events }

/-- The entries in the order of their indices, those with equal indices in the order of types. -/
def byIndex (pool : Pool) : Except PoolError (List Entry) := do
  let indexed ← pool.toList.mapM fun entry =>
    match entry.index.get? with
    | some index => .ok (index, entry)
    | none => .error (.indexUnassigned entry.type)
  return (indexed.mergeSort fun left right => decide (left.1 ≤ right.1)).map Prod.snd

end Pool

end ClassTable
