/-!
Places in a YAML text. A line ends at a carriage return, a line feed, both in this order, a next
line, a line separator or a paragraph separator; the last two are kept as they are when lines are
joined, all others count as a line feed.
-/

namespace ClassTable.Yaml

structure Place where
  bytes : Nat := 0
  line : Nat := 0
  column : Nat := 0
  deriving DecidableEq, Repr

namespace Place

def past (place : Place) (char : Char) : Place :=
  { place with bytes := place.bytes + char.utf8Size, column := place.column + 1 }

def right (place : Place) (count : Nat) : Place :=
  { place with bytes := place.bytes + count, column := place.column + count }

def below (place : Place) (bytes : Nat) : Place :=
  { bytes := place.bytes + bytes, line := place.line + 1, column := 0 }

end Place

def isPrintable (char : Char) : Bool :=
  let code := char.toNat
  code == 0x9 || code == 0xA || code == 0xD || (0x20 ≤ code && code ≤ 0x7E) || code == 0x85 ||
    (0xA0 ≤ code && code ≤ 0xD7FF) || (0xE000 ≤ code && code ≤ 0xFFFD) || 0x10000 ≤ code

def isGap (char : Char) : Bool :=
  char == ' ' || char == '\t'

def isBreak (char : Char) : Bool :=
  char == '\n' || char == '\r' || char == '\x85' || char == '\u2028' || char == '\u2029'

def isInLine (char : Char) : Bool :=
  !isBreak char

def breakValue (char : Char) : Char :=
  if char == '\u2028' || char == '\u2029' then char else '\n'

def atGap : List Char → Bool
  | [] => true
  | char :: _ => isGap char || isBreak char

def atBreak : List Char → Bool
  | [] => true
  | char :: _ => isBreak char

def isWordChar (char : Char) : Bool :=
  char.isAlphanum || char == '_' || char == '-'

def atMarker : List Char → Bool
  | '-' :: '-' :: '-' :: rest => atGap rest
  | '.' :: '.' :: '.' :: rest => atGap rest
  | _ => false

structure Cursor where
  rest : List Char
  place : Place := {}

namespace Cursor

def advance (cursor : Cursor) (count : Nat) : Cursor :=
  ⟨cursor.rest.drop count, (cursor.rest.take count).foldl Place.past cursor.place⟩

def span (cursor : Cursor) (test : Char → Bool) : List Char × Cursor :=
  let chars := cursor.rest.takeWhile test
  (chars, cursor.advance chars.length)

def skip (cursor : Cursor) (test : Char → Bool) : Cursor :=
  (cursor.span test).2

def newLine? (cursor : Cursor) : Option (Char × Cursor) :=
  match cursor.rest with
  | '\r' :: '\n' :: rest => some ('\n', ⟨rest, cursor.place.below 2⟩)
  | char :: rest =>
    if isBreak char then some (breakValue char, ⟨rest, cursor.place.below char.utf8Size⟩)
    else none
  | [] => none

def endLine? (cursor : Cursor) : Option Cursor :=
  let gapless := cursor.skip isGap
  let bare :=
    if gapless.rest.head? = some '#' then gapless.skip isInLine else gapless
  match bare.newLine? with
  | some (_, next) => some next
  | none => if bare.rest.isEmpty then some bare else none

theorem length_advance_le (cursor : Cursor) (count : Nat) :
    (cursor.advance count).rest.length ≤ cursor.rest.length := by
  simp [advance]

theorem length_skip_le (cursor : Cursor) (test : Char → Bool) :
    (cursor.skip test).rest.length ≤ cursor.rest.length :=
  length_advance_le _ _

theorem length_newLine? {cursor next : Cursor} {char : Char}
    (success : cursor.newLine? = some (char, next)) :
    next.rest.length < cursor.rest.length := by
  unfold newLine? at success
  split at success
  next rest shape =>
    simp only [Option.some.injEq, Prod.mk.injEq] at success
    rw [← success.2, shape]
    simp only [List.length_cons]
    omega
  next first rest _ shape =>
    split at success <;> simp at success
    rw [← success.2, shape]; simp
  next => simp at success

end Cursor

end ClassTable.Yaml
