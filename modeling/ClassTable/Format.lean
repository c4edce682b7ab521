import ClassTable.Constant

/-!
Document formats, as far as the descriptions of classes need them. A format says what the nodes of
its documents may be taken for; how records are put together from nodes is the same for all formats.
Reading may fail, and a format may keep account of what has been read: it happens in a monad of the
format's own.
-/

namespace ClassTable

structure Format (m : Type → Type) (ν : Type) where
  text? : ν → m String
  items? : ν → m (List ν)
  /-- The node itself, unless it stands for the absence of a value. -/
  present? : ν → m (Option ν)
  /-- Those members of a node whose names are among the given ones, no name twice. -/
  members? : List String → ν → m (List (String × ν))
  constant? : ν → m Constant

/-- A monad in which an activity may come to nothing. -/
class Fallible (m : Type → Type) extends Monad m, Alternative m

instance : Fallible Option := {}

instance {σ : Type} : Fallible (StateT σ Option) := {}

/-- A way to read values of a type that is the same for all formats. -/
abbrev Reader (α : Type) :=
  {m : Type → Type} → [Fallible m] → {ν : Type} → Format m ν → ν → m α

namespace Format

variable {m : Type → Type} {ν α : Type}

def distinct : List String → Bool
  | [] => true
  | name :: rest => !rest.contains name && distinct rest

def known? (names : List String) (members : List (String × ν)) : Option (List (String × ν)) :=
  let known := members.filter fun (name, _) => names.contains name
  if distinct (known.map Prod.fst) then some known else none

def list? [Monad m] (format : Format m ν) (read : ν → m α) (node : ν) : m (List α) := do
  let items ← format.items? node
  items.mapM read

def option? [Monad m] (format : Format m ν) (read : ν → m α) (node : ν) : m (Option α) := do
  match ← format.present? node with
  | none => return none
  | some node => some <$> read node

def required [Alternative m] (members : List (String × ν)) (name : String) (read : ν → m α) : m α :=
  match members.lookup name with
  | none => failure
  | some node => read node

def optional [Pure m] (members : List (String × ν)) (name : String) (default : α) (read : ν → m α) :
    m α :=
  match members.lookup name with
  | none => pure default
  | some node => read node

end Format

end ClassTable
