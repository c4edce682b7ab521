import ClassTable.Yaml.BlockScalar
import ClassTable.Yaml.FlowScalar
import ClassTable.Yaml.Tag
import ClassTable.Yaml.Token

/-!
The tokens of a YAML text. A text that may turn out to be the key of a mapping is remembered until
its colon is seen: then the key token, and the start of a block mapping where one begins, are put in
front of it. A key without a mark of its own lies on one line and is at most 1024 bytes long.
-/

namespace ClassTable.Yaml

abbrev NamedToken := Token String

/-- A text that may be a key: the number of tokens before it, its place, and whether it has to be
one because nothing else may stand in its column. -/
structure PossibleKey where
  token : Nat
  place : Place
  required : Bool

/-- The state of scanning: the place, the tokens so far, the possible key of every flow collection
that is open, innermost first, and of the block around them, the columns of the open block
collections, innermost first, and whether a key may stand at the place. -/
structure Scanner where
  cursor : Cursor
  tokens : Array NamedToken := #[]
  keys : List (Option PossibleKey) := [none]
  columns : List Nat := []
  keyAllowed : Bool := true

namespace Scanner

def inFlow (scanner : Scanner) : Bool :=
  1 < scanner.keys.length

def column (scanner : Scanner) : Nat :=
  scanner.cursor.place.column

def leastColumn (scanner : Scanner) : Nat :=
  match scanner.columns with
  | [] => 0
  | column :: _ => column + 1

def add (scanner : Scanner) (token : NamedToken) : Scanner :=
  { scanner with tokens := scanner.tokens.push token }

def take (scanner : Scanner) (length : Nat) (token : NamedToken) : Scanner :=
  { scanner.add token with cursor := scanner.cursor.advance length }

def allowKey (scanner : Scanner) (allowed : Bool) : Scanner :=
  { scanner with keyAllowed := allowed }

def forgetKey (scanner : Scanner) : Option Scanner :=
  match scanner.keys with
  | some key :: outer => if key.required then none else some { scanner with keys := none :: outer }
  | _ => some scanner

def rememberKey (scanner : Scanner) : Option Scanner :=
  if scanner.keyAllowed then do
    let key : PossibleKey := {
      token := scanner.tokens.size
      place := scanner.cursor.place
      required := !scanner.inFlow && scanner.columns.head? == some scanner.column }
    let scanner ← scanner.forgetKey
    return { scanner with keys := some key :: scanner.keys.tail }
  else some scanner

def dropStale (scanner : Scanner) : Option Scanner := do
  let place := scanner.cursor.place
  let keys ← scanner.keys.mapM fun
    | none => some none
    | some key =>
      if key.place.line < place.line || key.place.bytes + 1024 < place.bytes then
        if key.required then none else some none
      else some (some key)
  return { scanner with keys }

def openBlock (scanner : Scanner) (column : Nat) (position : Option Nat) (start : NamedToken) :
    Scanner :=
  if scanner.inFlow || scanner.columns.head?.any (column ≤ ·) then scanner
  else
    { scanner with
      columns := column :: scanner.columns
      tokens := scanner.tokens.insertIdxIfInBounds (position.getD scanner.tokens.size) start }

def closeBlocks (scanner : Scanner) (closes : Nat → Bool) : Scanner :=
  if scanner.inFlow then scanner
  else
    let closed := scanner.columns.takeWhile closes
    { scanner with
      columns := scanner.columns.dropWhile closes
      tokens := scanner.tokens ++ (closed.map fun _ => Token.blockEnd).toArray }

/-- The place of the next token, and whether a key may stand there: spaces, comments and line breaks
are passed over, and tabs where they cannot be mistaken for indentation. A byte order mark may start
a line. -/
def passGaps (inFlow keyAllowed inComment : Bool) (place : Place) : List Char → Cursor × Bool
  | [] => (⟨[], place⟩, keyAllowed)
  | '\r' :: '\n' :: rest => passGaps inFlow (keyAllowed || !inFlow) false (place.below 2) rest
  | char :: rest =>
    if isBreak char then
      passGaps inFlow (keyAllowed || !inFlow) false (place.below char.utf8Size) rest
    else if inComment then passGaps inFlow keyAllowed true (place.past char) rest
    else if char == ' ' || (char == '\t' && (inFlow || !keyAllowed)) ||
        (char == '\uFEFF' && place.column == 0) then
      passGaps inFlow keyAllowed false (place.past char) rest
    else if char == '#' then passGaps inFlow keyAllowed true (place.right 1) rest
    else (⟨char :: rest, place⟩, keyAllowed)

def approach (scanner : Scanner) : Option Scanner := do
  let (cursor, keyAllowed) := passGaps scanner.inFlow scanner.keyAllowed false
    scanner.cursor.place scanner.cursor.rest
  let scanner ← dropStale { scanner with cursor, keyAllowed }
  return scanner.closeBlocks (scanner.column < ·)

def directive (scanner : Scanner) : Option Scanner := do
  let scanner ← (scanner.closeBlocks fun _ => true).forgetKey
  let (name, behind) := (scanner.cursor.advance 1).span isWordChar
  if !atGap behind.rest then none
  let (token, last) ←
    match String.ofList name with
    | "YAML" => do
      let ((major, minor), last) ← versionDirective behind
      some (Token.version major minor, last)
    | "TAG" => do
      let ((handle, tagPrefix), last) ← tagDirective behind
      some (Token.tagHandle handle tagPrefix, last)
    | _ => none
  let cursor ← last.endLine?
  return { (scanner.add token).allowKey false with cursor }

def documentMark (scanner : Scanner) (token : NamedToken) : Option Scanner := do
  let scanner ← (scanner.closeBlocks fun _ => true).forgetKey
  return (scanner.allowKey false).take 3 token

def openFlow (scanner : Scanner) (token : NamedToken) : Option Scanner := do
  let scanner ← scanner.rememberKey
  return ({ scanner with keys := none :: scanner.keys }.allowKey true).take 1 token

def closeFlow (scanner : Scanner) (token : NamedToken) : Option Scanner := do
  let scanner ← scanner.forgetKey
  let keys := if scanner.inFlow then scanner.keys.tail else scanner.keys
  return ({ scanner with keys }.allowKey false).take 1 token

def flowEntry (scanner : Scanner) : Option Scanner := do
  let scanner ← scanner.forgetKey
  return (scanner.allowKey true).take 1 .flowEntry

def blockEntry (scanner : Scanner) : Option Scanner := do
  if !scanner.inFlow && !scanner.keyAllowed then none
  let scanner ← (scanner.openBlock scanner.column none .blockSequenceStart).forgetKey
  return (scanner.allowKey true).take 1 .blockEntry

def keyMark (scanner : Scanner) : Option Scanner := do
  if !scanner.inFlow && !scanner.keyAllowed then none
  let scanner ← (scanner.openBlock scanner.column none .blockMappingStart).forgetKey
  return (scanner.allowKey (!scanner.inFlow)).take 1 .key

def valueMark (scanner : Scanner) : Option Scanner :=
  match scanner.keys with
  | some key :: outer =>
    let marked := { scanner with
      keys := none :: outer
      tokens := scanner.tokens.insertIdxIfInBounds key.token .key }
    let opened := marked.openBlock key.place.column (some key.token) .blockMappingStart
    some ((opened.allowKey false).take 1 .value)
  | _ => do
    if !scanner.inFlow && !scanner.keyAllowed then none
    let opened := scanner.openBlock scanner.column none .blockMappingStart
    return (opened.allowKey (!scanner.inFlow)).take 1 .value

def anchorName (scanner : Scanner) (token : String → NamedToken) : Option Scanner := do
  let scanner ← scanner.rememberKey
  let (name, behind) := (scanner.cursor.advance 1).span isWordChar
  let ended := atGap behind.rest || behind.rest.head?.any "?:,]\x7d%@`".toList.contains
  if name.isEmpty || !ended then none
  return { (scanner.add (token (String.ofList name))).allowKey false with cursor := behind }

def tagToken (scanner : Scanner) : Option Scanner := do
  let scanner ← scanner.rememberKey
  let ((handle, suffix), behind) ← tag scanner.inFlow scanner.cursor
  return { (scanner.add (.tag handle suffix)).allowKey false with cursor := behind }

def blockToken (scanner : Scanner) (literal : Bool) : Option Scanner := do
  let scanner ← scanner.forgetKey
  let (text, behind) ← blockScalar literal scanner.leastColumn (scanner.cursor.advance 1)
  let token := Token.scalar (String.ofList text) (if literal then .literal else .other)
  return { (scanner.add token).allowKey true with cursor := behind }

def quotedToken (scanner : Scanner) (scan : Place → List Char → Option Scanned) :
    Option Scanner := do
  let scanner ← scanner.rememberKey
  let start := scanner.cursor.advance 1
  let (pieces, behind) ← scan start.place start.rest
  let token := Token.scalar (String.ofList (fold true (.gaps []) pieces)) .other
  return { (scanner.add token).allowKey false with cursor := behind }

def plainToken (scanner : Scanner) : Option Scanner := do
  let scanner ← scanner.rememberKey
  let ((pieces, behind), broken) ← plain scanner.inFlow scanner.leastColumn .word
    scanner.cursor.place scanner.cursor.rest
  let token := Token.scalar (String.ofList (fold false (.gaps []) pieces)) .plain
  return { (scanner.add token).allowKey broken with cursor := behind }

def startsPlain (inFlow : Bool) (char : Char) (rest : List Char) : Bool :=
  (!"-?:,[]\x7b\x7d#&*!|>'\"%@`".toList.contains char && !isGap char && !isBreak char) ||
    (char == '-' && !rest.head?.any isGap) ||
    (!inFlow && (char == '?' || char == ':') && !atGap rest)

def token (scanner : Scanner) : Option Scanner :=
  match scanner.cursor.rest with
  | [] => none
  | char :: rest =>
    if scanner.column = 0 && char == '%' then scanner.directive
    else if scanner.column = 0 && atMarker (char :: rest) then
      scanner.documentMark (if char == '-' then .documentStart else .documentEnd)
    else if char == '[' then scanner.openFlow .flowSequenceStart
    else if char == '{' then scanner.openFlow .flowMappingStart
    else if char == ']' then scanner.closeFlow .flowSequenceEnd
    else if char == '}' then scanner.closeFlow .flowMappingEnd
    else if char == ',' then scanner.flowEntry
    else if char == '-' && atGap rest then scanner.blockEntry
    else if char == '?' && (scanner.inFlow || atGap rest) then scanner.keyMark
    else if char == ':' && (scanner.inFlow || atGap rest) then scanner.valueMark
    else if char == '*' then scanner.anchorName .alias
    else if char == '&' then scanner.anchorName .anchor
    else if char == '!' then scanner.tagToken
    else if char == '|' && !scanner.inFlow then scanner.blockToken true
    else if char == '>' && !scanner.inFlow then scanner.blockToken false
    else if char == '\'' then scanner.quotedToken singleQuoted
    else if char == '"' then scanner.quotedToken doubleQuoted
    else if startsPlain scanner.inFlow char rest then scanner.plainToken
    else none

/-- Scans what is left of a text of so many bytes. Every token takes some of them, so the test of
the place never fails. -/
def run (size : Nat) (scanner : Scanner) : Option (Array NamedToken) :=
  let start := scanner.cursor.place.bytes
  match scanner.approach with
  | none => none
  | some near =>
    if near.cursor.rest.isEmpty then
      (near.closeBlocks fun _ => true).forgetKey.map Scanner.tokens
    else
      match near.token with
      | none => none
      | some next =>
        let stop := next.cursor.place.bytes
        if _further : start < stop ∧ stop ≤ size then next.run size else none
termination_by size - scanner.cursor.place.bytes

end Scanner

def tokens? (chars : List Char) : Option (List NamedToken) :=
  if chars.all isPrintable then
    let size := (String.ofList chars).utf8ByteSize
    (Scanner.run size { cursor := { rest := chars } }).map Array.toList
  else none

end ClassTable.Yaml
