import ClassTable.Numeral
import ClassTable.Text.Utf8
import ClassTable.Yaml.Cursor

/-!
Scalars that may run over several lines of a flow: quoted ones and plain ones. Scanning yields
pieces; folding makes them a text. A single line break between words becomes a space, of several the
first is dropped, and spaces around line breaks do not count.
-/

namespace ClassTable.Yaml

inductive Piece where
  | char (value : Char)
  | gap (value : Char)
  | lineBreak (value : Char)
  | joined
  deriving DecidableEq, Repr

/-- The white space since the last character, the latest first: gaps on one line, or line breaks
behind the first of them. -/
inductive Pending where
  | gaps (latest : List Char)
  | breaks (first : Option Char) (latest : List Char)

def Pending.text : Pending → List Char
  | .gaps latest => latest.reverse
  | .breaks (some '\n') [] => [' ']
  | .breaks (some '\n') latest => latest.reverse
  | .breaks first latest => first.toList ++ latest.reverse

/-- The text of pieces behind white space. White space at the end counts only if it is kept. -/
def fold (keepEnd : Bool) : Pending → List Piece → List Char
  | pending, [] => if keepEnd then pending.text else []
  | pending, .char value :: rest => pending.text ++ value :: fold keepEnd (.gaps []) rest
  | pending, .joined :: rest => pending.text ++ fold keepEnd (.breaks none []) rest
  | .gaps latest, .gap value :: rest => fold keepEnd (.gaps (value :: latest)) rest
  | .gaps _, .lineBreak value :: rest => fold keepEnd (.breaks (some value) []) rest
  | .breaks first latest, .gap _ :: rest => fold keepEnd (.breaks first latest) rest
  | .breaks first latest, .lineBreak value :: rest =>
    fold keepEnd (.breaks first (value :: latest)) rest

abbrev Scanned := List Piece × Cursor

def Scanned.push (piece : Piece) (scanned : Scanned) : Scanned :=
  (piece :: scanned.1, scanned.2)

def singleQuoted (place : Place) : List Char → Option Scanned
  | [] => none
  | '\'' :: '\'' :: rest => (singleQuoted (place.right 2) rest).map (.push (.char '\''))
  | '\'' :: rest => some ([], ⟨rest, place.right 1⟩)
  | '\r' :: '\n' :: rest => (singleQuoted (place.below 2) rest).map (.push (.lineBreak '\n'))
  | char :: rest =>
    if place.column = 0 && atMarker (char :: rest) then none
    else if isBreak char then
      (singleQuoted (place.below char.utf8Size) rest).map (.push (.lineBreak (breakValue char)))
    else
      (singleQuoted (place.past char) rest).map
        (.push (if isGap char then .gap char else .char char))

def simpleEscape? : Char → Option Char
  | '0' => some '\x00'
  | 'a' => some '\x07'
  | 'b' => some '\x08'
  | 't' => some '\t'
  | '\t' => some '\t'
  | 'n' => some '\n'
  | 'v' => some '\x0b'
  | 'f' => some '\x0c'
  | 'r' => some '\r'
  | 'e' => some '\x1b'
  | ' ' => some ' '
  | '"' => some '"'
  | '/' => some '/'
  | '\\' => some '\\'
  | 'N' => some '\x85'
  | '_' => some '\xa0'
  | 'L' => some '\u2028'
  | 'P' => some '\u2029'
  | _ => none

def hexEscape? (digits : List Char) : Option Char :=
  (Numeral.value? 16 digits).bind (Text.scalar? 0)

def doubleQuoted (place : Place) : List Char → Option Scanned
  | [] => none
  | '"' :: rest => some ([], ⟨rest, place.right 1⟩)
  | '\\' :: '\r' :: '\n' :: rest => (doubleQuoted (place.below 3) rest).map (.push .joined)
  | '\\' :: 'x' :: a :: b :: rest =>
    (hexEscape? [a, b]).bind fun char =>
      (doubleQuoted (place.right 4) rest).map (.push (.char char))
  | '\\' :: 'u' :: a :: b :: c :: d :: rest =>
    (hexEscape? [a, b, c, d]).bind fun char =>
      (doubleQuoted (place.right 6) rest).map (.push (.char char))
  | '\\' :: 'U' :: a :: b :: c :: d :: e :: f :: g :: h :: rest =>
    (hexEscape? [a, b, c, d, e, f, g, h]).bind fun char =>
      (doubleQuoted (place.right 10) rest).map (.push (.char char))
  | '\\' :: letter :: rest =>
    if isBreak letter then
      (doubleQuoted (place.below (1 + letter.utf8Size)) rest).map (.push .joined)
    else
      (simpleEscape? letter).bind fun char =>
        (doubleQuoted (place.right 2) rest).map (.push (.char char))
  | '\r' :: '\n' :: rest => (doubleQuoted (place.below 2) rest).map (.push (.lineBreak '\n'))
  | char :: rest =>
    if place.column = 0 && atMarker (char :: rest) then none
    else if isBreak char then
      (doubleQuoted (place.below char.utf8Size) rest).map (.push (.lineBreak (breakValue char)))
    else
      (doubleQuoted (place.past char) rest).map
        (.push (if isGap char then .gap char else .char char))

def isFlowIndicator (char : Char) : Bool :=
  char == ',' || char == '[' || char == ']' || char == '{' || char == '}'

inductive PlainState where
  | word
  | gap (broken : Bool)
  deriving DecidableEq

def PlainState.broken : PlainState → Bool
  | .word => false
  | .gap broken => broken

/-- The pieces of a plain scalar, the white space behind it included, and whether that runs over a
line break. Within block collections, further lines must be indented at least as given. -/
def plain (inFlow : Bool) (indent : Nat) (state : PlainState) (place : Place) :
    List Char → Option (Scanned × Bool)
  | [] => some (([], ⟨[], place⟩), state.broken)
  | '\r' :: '\n' :: rest =>
    (plain inFlow indent (.gap true) (place.below 2) rest).map fun (scanned, broken) =>
      (scanned.push (.lineBreak '\n'), broken)
  | char :: rest =>
    if isBreak char then
      (plain inFlow indent (.gap true) (place.below char.utf8Size) rest).map
        fun (scanned, broken) => (scanned.push (.lineBreak (breakValue char)), broken)
    else if isGap char then
      if state.broken && place.column < indent && char == '\t' then none
      else
        (plain inFlow indent (.gap state.broken) (place.right 1) rest).map
          fun (scanned, broken) => (scanned.push (.gap char), broken)
    else
      let stop := some (([], ⟨char :: rest, place⟩), state.broken)
      if state != .word && ((!inFlow && place.column < indent) || char == '#' ||
          (place.column = 0 && atMarker (char :: rest))) then stop
      else if inFlow && char == ':' &&
          rest.head?.any (fun next => next == '?' || isFlowIndicator next) then none
      else if (char == ':' && atGap rest) || (inFlow && isFlowIndicator char) then stop
      else
        (plain inFlow indent .word (place.past char) rest).map fun (scanned, broken) =>
          (scanned.push (.char char), broken)

end ClassTable.Yaml
