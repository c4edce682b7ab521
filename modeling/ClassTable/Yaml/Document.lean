import ClassTable.Text.Utf8
import ClassTable.Yaml.Node
import ClassTable.Yaml.Scanner

/-!
YAML documents. A text holds exactly one. Its directives come before its start mark and say what tag
handles stand for; nothing but end marks may follow it. Whoever reads a document may follow aliases,
but only so often as the size of the document allows.
-/

namespace ClassTable.Yaml

/-- The tokens with numbers for the names of anchors. An anchor gets the number of names that are
known before it; an alias stands for the latest number of its name, which must be known. -/
def numberAnchors (known : List (String × Nat)) : List NamedToken → Option (List NumberedToken)
  | [] => some []
  | .alias name :: rest => do
    let number ← known.lookup name
    (numberAnchors known rest).map (.alias number :: ·)
  | token :: rest =>
    let number := known.length
    let known :=
      match token with
      | .anchor name => (name, number) :: known.filter fun (other, _) => other != name
      | _ => known
    (numberAnchors known rest).map (token.relabel (fun _ => number) :: ·)

mutual
def Node.anchored : Node → List (Nat × Node)
  | .alias _ => []
  | .scalar properties text style =>
    properties.anchor.toList.map (·, .scalar properties text style)
  | .sequence properties items =>
    properties.anchor.toList.map (·, .sequence properties items) ++ anchoredItems items
  | .mapping properties entries =>
    properties.anchor.toList.map (·, .mapping properties entries) ++ anchoredEntries entries

def anchoredItems : List Node → List (Nat × Node)
  | [] => []
  | item :: rest => item.anchored ++ anchoredItems rest

def anchoredEntries : List (Node × Node) → List (Nat × Node)
  | [] => []
  | (key, value) :: rest => key.anchored ++ value.anchored ++ anchoredEntries rest
end

mutual
/-- The size of a node: a collection counts its start and its end beside what it holds, and every
other node is one. -/
def Node.size : Node → Nat
  | .alias _ | .scalar .. => 1
  | .sequence _ items => 2 + sizeOfItems items
  | .mapping _ entries => 2 + sizeOfEntries entries

def sizeOfItems : List Node → Nat
  | [] => 0
  | item :: rest => item.size + sizeOfItems rest

def sizeOfEntries : List (Node × Node) → Nat
  | [] => 0
  | (key, value) :: rest => key.size + value.size + sizeOfEntries rest
end

/-- Reading that may fail and that may follow only so many aliases more. -/
abbrev Reading := StateT Nat Option

def Reading.follow : Reading Unit := do
  let left ← get
  if left = 0 then failure else set (left - 1)

structure View where
  numbered : List (Nat × Node)
  node : Node

namespace View

def focus (view : View) (node : Node) : View :=
  { view with node }

/-- The node that is seen: an alias shows the latest node that bears its number. -/
def target (view : View) : Reading Node :=
  match view.node with
  | .alias number => do
    Reading.follow
    match view.numbered.lookup number with
    | some node => return node
    | none => failure
  | node => return node

def aliasLimit (view : View) : Nat :=
  100 * view.node.size

end View

/-- The tag handles that directives define, and the tokens behind them. A version must be one of
those that this notation is for, it may be stated once, and no handle may be defined twice. -/
def directives? (versionSeen : Bool) (handles : TagHandles) :
    List NumberedToken → Option (TagHandles × List NumberedToken)
  | .version major minor :: rest =>
    if versionSeen || major != 1 || (minor != 1 && minor != 2) then none
    else directives? true handles rest
  | .tagHandle handle tagPrefix :: rest =>
    if (handles.lookup handle).isSome then none
    else directives? versionSeen ((handle, tagPrefix) :: handles) rest
  | tokens => some (handles, tokens)

def hasDocumentContent : List NumberedToken → Bool
  | [] | .version .. :: _ | .tagHandle .. :: _ | .documentStart :: _ | .documentEnd :: _ => false
  | _ => true

def root? (tokens : List NumberedToken) : Option Node := do
  let (defined, rest) ← directives? false [] tokens
  let handles := defined ++ TagHandles.predefined
  let (root, behind) ←
    match rest with
    | .documentStart :: content =>
      if hasDocumentContent content then do
        let (node, ⟨after, _⟩) ← node? handles true false content
        some (node, after)
      else some (Node.empty, content)
    | [] => none
    | content =>
      if content.length < tokens.length then none
      else do
        let (node, ⟨after, _⟩) ← node? handles true false content
        some (node, after)
  if behind.all (· == .documentEnd) then some root else none

def ofChars? (chars : List Char) : Option View := do
  let tokens ← tokens? chars
  let root ← root? (← numberAnchors [] tokens)
  return ⟨root.anchored.reverse, root⟩

def ofSymbols? (symbols : List Text.Symbol) : Option View := do
  ofChars? (← symbols.mapM id)

end ClassTable.Yaml
