import ClassTable.Yaml.Cursor

/-!
Scalars that are written as an indented block, either literally or folded. The block ends at the
first line that is indented less. Folding joins lines by a space, except beside lines that start
with a space and beside empty lines.
-/

namespace ClassTable.Yaml

inductive Chomping where
  | strip
  | clip
  | keep
  deriving DecidableEq

structure BlockHead where
  chomping : Chomping := .clip
  indent : Option Nat := none

def chomping? : Char → Option Chomping
  | '+' => some .keep
  | '-' => some .strip
  | _ => none

def indentation? (char : Char) : Option Nat :=
  if char.isDigit then some (char.toNat - 48) else none

def blockHead? : List Char → Option (BlockHead × Nat)
  | [] => some ({}, 0)
  | first :: rest =>
    match chomping? first, indentation? first with
    | some chomping, _ =>
      match rest.head?.bind indentation? with
      | some 0 => none
      | some indent => some ({ chomping, indent := some indent }, 2)
      | none => some ({ chomping }, 1)
    | none, some 0 => none
    | none, some indent =>
      match rest.head?.bind chomping? with
      | some chomping => some ({ chomping, indent := some indent }, 2)
      | none => some ({ indent := some indent }, 1)
    | none, none => some ({}, 0)

/-- The line breaks of empty lines, the largest column reached before one of them or before the next
line with content, and the place behind the indentation of that line. Without a known indentation
all spaces are part of it. -/
def emptyLines (indent : Option Nat) (place : Place) (widest : Nat) :
    List Char → Option (List Char × Nat × Cursor)
  | [] => some ([], max widest place.column, ⟨[], place⟩)
  | '\r' :: '\n' :: rest =>
    (emptyLines indent (place.below 2) (max widest place.column) rest).map
      fun (breaks, widest, cursor) => ('\n' :: breaks, widest, cursor)
  | char :: rest =>
    if indent.all (place.column < ·) && char == ' ' then
      emptyLines indent (place.right 1) widest rest
    else if indent.all (place.column < ·) && char == '\t' then none
    else if isBreak char then
      (emptyLines indent (place.below char.utf8Size) (max widest place.column) rest).map
        fun (breaks, widest, cursor) => (breakValue char :: breaks, widest, cursor)
    else some ([], max widest place.column, ⟨char :: rest, place⟩)

theorem length_emptyLines {indent : Option Nat} {place : Place} {widest : Nat} {chars : List Char}
    {found : List Char × Nat × Cursor}
    (success : emptyLines indent place widest chars = some found) :
    found.2.2.rest.length ≤ chars.length := by
  fun_induction emptyLines indent place widest chars generalizing found with
  | case1 =>
      cases success
      exact Nat.le_refl _
  | case2 place widest rest ih =>
      obtain ⟨⟨breaks, reached, cursor⟩, read, rfl⟩ := Option.map_eq_some_iff.1 success
      have shorter := ih read
      exact Nat.le_succ_of_le (Nat.le_succ_of_le shorter)
  | case3 place widest char rest _ _ ih => exact Nat.le_succ_of_le (ih success)
  | case4 => cases success
  | case5 place widest char rest _ _ _ _ ih =>
      obtain ⟨⟨breaks, reached, cursor⟩, read, rfl⟩ := Option.map_eq_some_iff.1 success
      have shorter := ih read
      exact Nat.le_succ_of_le shorter
  | case6 =>
      cases success
      exact Nat.le_refl _

structure BlockLine where
  text : List Char
  ending : Option Char
  empties : List Char

def blockLines (indent : Nat) (cursor : Cursor) : Option (List BlockLine × Cursor) :=
  if cursor.place.column = indent && !atBreak cursor.rest then
    let text := (cursor.span isInLine).1
    match _found : (cursor.skip isInLine).newLine? with
    | none => some ([⟨text, none, []⟩], cursor.skip isInLine)
    | some (ending, next) =>
      match _passed : emptyLines (some indent) next.place 0 next.rest with
      | none => none
      | some (empties, _, start) =>
        (blockLines indent start).map fun (lines, last) =>
          (⟨text, some ending, empties⟩ :: lines, last)
  else some ([], cursor)
termination_by cursor.rest.length
decreasing_by
  have shorter := Cursor.length_newLine? _found
  have atMost := length_emptyLines _passed
  have spanned := cursor.length_skip_le isInLine
  simp only at atMost
  omega

def BlockLine.startsWithGap (line : BlockLine) : Bool :=
  line.text.head?.any isGap

def joinLines (literal : Bool) (chomping : Chomping) (ending : Option Char) (empties : List Char)
    (afterGap : Bool) : List BlockLine → List Char
  | [] =>
    (if chomping = .strip then [] else ending.toList) ++ (if chomping = .keep then empties else [])
  | line :: rest =>
    let folded := !literal && ending = some '\n' && !afterGap && !line.startsWithGap
    (if folded then (if empties.isEmpty then [' '] else []) else ending.toList) ++ empties ++
      line.text ++ joinLines literal chomping line.ending line.empties line.startsWithGap rest

/-- The text of a block scalar from behind its mark on, and the place behind it. The least column
that lines may start at is that of the surrounding collection. -/
def blockScalar (literal : Bool) (least : Nat) (cursor : Cursor) : Option (List Char × Cursor) := do
  let (head, length) ← blockHead? cursor.rest
  let start ← (cursor.advance length).endLine?
  let known := head.indent.map fun indent => least - 1 + indent
  let (empties, widest, first) ← emptyLines known start.place 0 start.rest
  let indent := known.getD (max widest (max least 1))
  let (lines, last) ← blockLines indent first
  return (joinLines literal head.chomping none empties false lines, last)

end ClassTable.Yaml
