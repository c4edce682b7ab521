import ClassTable.Yaml.Token

/-!
The tree of a YAML document. Where a node may stand and none is written, there is an empty plain
scalar. Anchors are numbers here; an alias stands for the node that bears its number.
-/

namespace ClassTable.Yaml

structure Properties where
  anchor : Option Nat := none
  tag : Option TagText := none
  deriving DecidableEq, Repr

inductive Node where
  | scalar (properties : Properties) (text : String) (style : Style)
  | sequence (properties : Properties) (items : List Node)
  | mapping (properties : Properties) (entries : List (Node × Node))
  | alias (number : Nat)

def Node.empty (properties : Properties := {}) : Node :=
  .scalar properties "" .plain

abbrev NumberedToken := Token Nat

abbrev TagHandles := List (String × TagText)

namespace TagHandles

def predefined : TagHandles :=
  [("!", TagText.ofChars ['!']), ("!!", TagText.ofChars "tag:yaml.org,2002:".toList)]

def resolve? (handles : TagHandles) (handle : String) (suffix : TagText) : Option TagText :=
  if handle = "" then some suffix else (handles.lookup handle).map (· ++ suffix)

end TagHandles

abbrev Fewer (tokens : List NumberedToken) :=
  { rest : List NumberedToken // rest.length < tokens.length }

abbrev NotMore (tokens : List NumberedToken) :=
  { rest : List NumberedToken // rest.length ≤ tokens.length }

def hasBlockItem : List NumberedToken → Bool
  | .blockEntry :: _ | .blockEnd :: _ => false
  | _ => true

def hasIndentlessItem : List NumberedToken → Bool
  | .blockEntry :: _ | .key :: _ | .value :: _ | .blockEnd :: _ => false
  | _ => true

def hasBlockContent : List NumberedToken → Bool
  | .key :: _ | .value :: _ | .blockEnd :: _ => false
  | _ => true

mutual
/-- The node at the front of tokens. Block collections may be written only within block collections,
and sequences that are not indented only within block mappings. -/
def node? (handles : TagHandles) (block indentless : Bool) (tokens : List NumberedToken) :
    Option (Node × Fewer tokens) :=
  match tokens with
  | .alias number :: rest => some (.alias number, ⟨rest, by simp⟩)
  | .anchor number :: .tag handle suffix :: rest => do
    let tag ← handles.resolve? handle suffix
    let properties := { anchor := some number, tag := some tag }
    match ← content? handles block indentless properties rest with
    | none => some (.empty properties, ⟨rest, by simp only [List.length_cons]; omega⟩)
    | some (node, ⟨after, fewer⟩) => some (node, ⟨after, by simp only [List.length_cons]; omega⟩)
  | .tag handle suffix :: .anchor number :: rest => do
    let tag ← handles.resolve? handle suffix
    let properties := { anchor := some number, tag := some tag }
    match ← content? handles block indentless properties rest with
    | none => some (.empty properties, ⟨rest, by simp only [List.length_cons]; omega⟩)
    | some (node, ⟨after, fewer⟩) => some (node, ⟨after, by simp only [List.length_cons]; omega⟩)
  | .anchor number :: rest => do
    let properties := { anchor := some number }
    match ← content? handles block indentless properties rest with
    | none => some (.empty properties, ⟨rest, by simp⟩)
    | some (node, ⟨after, fewer⟩) => some (node, ⟨after, by simp only [List.length_cons]; omega⟩)
  | .tag handle suffix :: rest => do
    let tag ← handles.resolve? handle suffix
    let properties := { tag := some tag }
    match ← content? handles block indentless properties rest with
    | none => some (.empty properties, ⟨rest, by simp⟩)
    | some (node, ⟨after, fewer⟩) => some (node, ⟨after, by simp only [List.length_cons]; omega⟩)
  | tokens => do
    let (node, after) ← ← content? handles block indentless {} tokens
    some (node, after)
termination_by (tokens.length, 1)

def content? (handles : TagHandles) (block indentless : Bool) (properties : Properties)
    (tokens : List NumberedToken) : Option (Option (Node × Fewer tokens)) :=
  match tokens with
  | .scalar text style :: rest =>
    some (some (.scalar properties text style, ⟨rest, by simp⟩))
  | .flowSequenceStart :: rest => do
    let (items, ⟨after, fewer⟩) ← flowItems? handles rest
    some (some (.sequence properties items, ⟨after, by simp only [List.length_cons]; omega⟩))
  | .flowMappingStart :: rest => do
    let (entries, ⟨after, fewer⟩) ← flowEntries? handles rest
    some (some (.mapping properties entries, ⟨after, by simp only [List.length_cons]; omega⟩))
  | .blockEntry :: rest =>
    if indentless then do
      let (items, ⟨after, fewer⟩) ← indentlessItems? handles rest
      some (some (.sequence properties items, ⟨after, by simp only [List.length_cons]; omega⟩))
    else some none
  | .blockSequenceStart :: rest =>
    if block then do
      let (items, ⟨after, fewer⟩) ← blockItems? handles rest
      some (some (.sequence properties items, ⟨after, by simp only [List.length_cons]; omega⟩))
    else some none
  | .blockMappingStart :: rest =>
    if block then do
      let (entries, ⟨after, fewer⟩) ← blockEntries? handles rest
      some (some (.mapping properties entries, ⟨after, by simp only [List.length_cons]; omega⟩))
    else some none
  | _ => some none
termination_by (tokens.length, 0)

def blockItems? (handles : TagHandles) (tokens : List NumberedToken) :
    Option (List Node × Fewer tokens) :=
  match tokens with
  | .blockEnd :: rest => some ([], ⟨rest, by simp⟩)
  | .blockEntry :: rest => do
    let (item, ⟨after, fewer⟩) ← nodeOrEmpty? handles true false (hasBlockItem rest) rest
    let (items, ⟨last, fewest⟩) ← blockItems? handles after
    some (item :: items, ⟨last, by simp only [List.length_cons]; omega⟩)
  | _ => none
termination_by (tokens.length, 0)

def indentlessItems? (handles : TagHandles) (tokens : List NumberedToken) :
    Option (List Node × NotMore tokens) := do
  let (item, ⟨after, fewer⟩) ← nodeOrEmpty? handles true false (hasIndentlessItem tokens) tokens
  match after, fewer with
  | .blockEntry :: rest, fewer => do
    have fewer : rest.length + 1 ≤ tokens.length := fewer
    let (items, ⟨last, fewest⟩) ← indentlessItems? handles rest
    some (item :: items, ⟨last, by omega⟩)
  | after, fewer => some ([item], ⟨after, fewer⟩)
termination_by (tokens.length, 3)

def nodeOrEmpty? (handles : TagHandles) (block indentless written : Bool)
    (tokens : List NumberedToken) : Option (Node × NotMore tokens) :=
  if written then do
    let (node, ⟨after, fewer⟩) ← node? handles block indentless tokens
    some (node, ⟨after, by omega⟩)
  else some (.empty, ⟨tokens, Nat.le_refl _⟩)
termination_by (tokens.length, 2)

def blockEntries? (handles : TagHandles) (tokens : List NumberedToken) :
    Option (List (Node × Node) × Fewer tokens) :=
  match tokens with
  | .blockEnd :: rest => some ([], ⟨rest, by simp⟩)
  | .key :: rest => do
    let (key, ⟨behindKey, fewer⟩) ← nodeOrEmpty? handles true true (hasBlockContent rest) rest
    match behindKey, fewer with
    | .value :: more, fewer => do
      have fewer : more.length + 1 ≤ rest.length := fewer
      let (value, ⟨after, fewest⟩) ← nodeOrEmpty? handles true true (hasBlockContent more) more
      let (entries, ⟨last, few⟩) ← blockEntries? handles after
      some ((key, value) :: entries, ⟨last, by simp only [List.length_cons]; omega⟩)
    | behindKey, fewer => do
      let (entries, ⟨last, few⟩) ← blockEntries? handles behindKey
      some ((key, .empty) :: entries, ⟨last, by simp only [List.length_cons]; omega⟩)
  | _ => none
termination_by (tokens.length, 0)

def flowItems? (handles : TagHandles) (tokens : List NumberedToken) :
    Option (List Node × Fewer tokens) :=
  match tokens with
  | .flowSequenceEnd :: rest => some ([], ⟨rest, by simp⟩)
  | .key :: rest => do
    let (entry, ⟨after, fewer⟩) ← flowPair? handles rest
    let (items, ⟨last, fewest⟩) ← moreFlowItems? handles after
    some (.mapping {} [entry] :: items, ⟨last, by simp only [List.length_cons]; omega⟩)
  | tokens => do
    let (item, ⟨after, fewer⟩) ← node? handles false false tokens
    let (items, ⟨last, fewest⟩) ← moreFlowItems? handles after
    some (item :: items, ⟨last, by omega⟩)
termination_by (tokens.length, 2)

def moreFlowItems? (handles : TagHandles) (tokens : List NumberedToken) :
    Option (List Node × Fewer tokens) :=
  match tokens with
  | .flowSequenceEnd :: rest => some ([], ⟨rest, by simp⟩)
  | .flowEntry :: rest => do
    let (items, ⟨last, fewer⟩) ← flowItems? handles rest
    some (items, ⟨last, by simp only [List.length_cons]; omega⟩)
  | _ => none
termination_by (tokens.length, 0)

/-- The single entry of a mapping that is an item of a flow sequence, behind the mark of its key. A
mark right behind that one takes the place of the key. -/
def flowPair? (handles : TagHandles) (tokens : List NumberedToken) :
    Option ((Node × Node) × NotMore tokens) := do
  let (key, ⟨behindKey, fewer⟩) ←
    (match tokens with
    | .value :: rest => some (Node.empty, ⟨rest, by simp⟩)
    | .flowEntry :: rest => some (Node.empty, ⟨rest, by simp⟩)
    | .flowSequenceEnd :: rest => some (Node.empty, ⟨rest, by simp⟩)
    | tokens => node? handles false false tokens : Option (Node × Fewer tokens))
  match behindKey, fewer with
  | .value :: more, fewer => do
    have fewer : more.length + 1 < tokens.length := fewer
    let written := match more with
      | .flowEntry :: _ | .flowSequenceEnd :: _ => false
      | _ => true
    let (value, ⟨after, fewest⟩) ← nodeOrEmpty? handles false false written more
    some ((key, value), ⟨after, by omega⟩)
  | behindKey, fewer => some ((key, .empty), ⟨behindKey, by omega⟩)
termination_by (tokens.length, 2)

/-- The entries of a flow mapping, up to its end. A node without the mark of a key has no value. -/
def flowEntries? (handles : TagHandles) (tokens : List NumberedToken) :
    Option (List (Node × Node) × Fewer tokens) :=
  match tokens with
  | .flowMappingEnd :: rest => some ([], ⟨rest, by simp⟩)
  | .key :: rest => do
    let written := match rest with
      | .value :: _ | .flowEntry :: _ | .flowMappingEnd :: _ => false
      | _ => true
    let (key, ⟨behindKey, fewer⟩) ← nodeOrEmpty? handles false false written rest
    match behindKey, fewer with
    | .value :: more, fewer => do
      have fewer : more.length + 1 ≤ rest.length := fewer
      let written := match more with
        | .flowEntry :: _ | .flowMappingEnd :: _ => false
        | _ => true
      let (value, ⟨after, fewest⟩) ← nodeOrEmpty? handles false false written more
      let (entries, ⟨last, few⟩) ← moreFlowEntries? handles after
      some ((key, value) :: entries, ⟨last, by simp only [List.length_cons]; omega⟩)
    | behindKey, fewer => do
      let (entries, ⟨last, few⟩) ← moreFlowEntries? handles behindKey
      some ((key, .empty) :: entries, ⟨last, by simp only [List.length_cons]; omega⟩)
  | tokens => do
    let (key, ⟨after, fewer⟩) ← node? handles false false tokens
    let (entries, ⟨last, few⟩) ← moreFlowEntries? handles after
    some ((key, .empty) :: entries, ⟨last, by omega⟩)
termination_by (tokens.length, 2)

def moreFlowEntries? (handles : TagHandles) (tokens : List NumberedToken) :
    Option (List (Node × Node) × Fewer tokens) :=
  match tokens with
  | .flowMappingEnd :: rest => some ([], ⟨rest, by simp⟩)
  | .flowEntry :: rest => do
    let (entries, ⟨last, fewer⟩) ← flowEntries? handles rest
    some (entries, ⟨last, by simp only [List.length_cons]; omega⟩)
  | _ => none
termination_by (tokens.length, 0)
end

end ClassTable.Yaml
