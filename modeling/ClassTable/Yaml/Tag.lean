import ClassTable.Numeral
import ClassTable.Text.Utf8
import ClassTable.Yaml.Cursor
import ClassTable.Yaml.Token

/-!
Tags, and the two directives of a document. A tag is a handle and a suffix. A suffix is made of
bytes, some of them written in hexadecimal; it ends in front of the first zero byte.
-/

namespace ClassTable.Yaml

/-- Whether a character may stand unescaped in the suffix of a tag. The wide form of a tag allows
the indicators of flow collections, too. -/
def isUriChar (wide : Bool) (char : Char) : Bool :=
  isWordChar char || ";/?:@&=+$.!~*'()".toList.contains char ||
    (wide && (char == ',' || char == '[' || char == ']'))

/-- How many bytes of a sequence are still to come behind a byte, when so many were to come before
it. What the sequence encodes is of no concern. -/
def bytesToCome? (awaited : Nat) (byte : UInt8) : Option Nat :=
  if awaited = 0 then Text.moreBytes? byte
  else if Text.isContinuation byte then some (awaited - 1)
  else none

/-- The bytes of the suffix of a tag, and how many characters write them. The bytes of one sequence
are all written in hexadecimal; so many of them are still to come. -/
def uriBytes (wide : Bool) (awaited : Nat) : List Char → Option (List UInt8 × Nat)
  | [] => if awaited = 0 then some ([], 0) else none
  | '%' :: high :: low :: rest => do
    let byte := (← Numeral.value? 16 [high, low]).toUInt8
    let (bytes, length) ← uriBytes wide (← bytesToCome? awaited byte) rest
    return (byte :: bytes, length + 3)
  | char :: rest =>
    if awaited != 0 || char == '%' then none
    else if isUriChar wide char then do
      let (bytes, length) ← uriBytes wide 0 rest
      return (char.toNat.toUInt8 :: bytes, length + 1)
    else some ([], 0)

def uri (wide optional : Bool) (cursor : Cursor) : Option (List UInt8 × Cursor) := do
  let (bytes, length) ← uriBytes wide 0 cursor.rest
  if length = 0 && !optional then none
  return (bytes.takeWhile (· != 0), cursor.advance length)

/-- The handle of a tag, or what looks like the beginning of one: an exclamation mark, the
characters of a name and, for a handle proper, another exclamation mark. -/
def tagHandle (cursor : Cursor) : Option (List Char × Cursor) :=
  match cursor.rest with
  | '!' :: _ =>
    let (name, behind) := (cursor.advance 1).span isWordChar
    if behind.rest.head? = some '!' then some ('!' :: name ++ ['!'], behind.advance 1)
    else some ('!' :: name, behind)
  | _ => none

def isProperHandle (handle : List Char) : Bool :=
  2 ≤ handle.length && handle.getLast? == some '!'

/-- The handle and the suffix of a tag, and the place behind it. A tag in angle brackets has no
handle, and neither has the tag that is an exclamation mark alone. -/
def tag (inFlow : Bool) (cursor : Cursor) : Option ((String × TagText) × Cursor) := do
  let (parts, behind) ←
    match cursor.rest with
    | '!' :: '<' :: _ => do
      let (suffix, behind) ← uri true false (cursor.advance 2)
      if behind.rest.head? != some '>' then none
      else some (("", suffix), behind.advance 1)
    | _ => do
      let (handle, afterHandle) ← tagHandle cursor
      let (suffix, behind) ← uri false (!isProperHandle handle) afterHandle
      if isProperHandle handle then some ((String.ofList handle, suffix), behind)
      else
        let whole := TagText.ofChars (handle.drop 1) ++ suffix
        some (if whole.isEmpty then ("", TagText.ofChars ['!']) else ("!", whole), behind)
  if atGap behind.rest || (inFlow && behind.rest.head? == some ',') then some (parts, behind)
  else none

def versionNumber (cursor : Cursor) : Option (Nat × Cursor) := do
  let (digits, behind) := cursor.span Char.isDigit
  if digits.isEmpty || 9 < digits.length then none
  else some (← Numeral.value? 10 digits, behind)

def versionDirective (cursor : Cursor) : Option ((Nat × Nat) × Cursor) := do
  let (major, behind) ← versionNumber (cursor.skip isGap)
  if behind.rest.head? != some '.' then none
  let (minor, last) ← versionNumber (behind.advance 1)
  return ((major, minor), last)

def tagDirective (cursor : Cursor) : Option ((String × TagText) × Cursor) := do
  let (handle, behind) ← tagHandle (cursor.skip isGap)
  if !(isProperHandle handle || handle = ['!']) then none
  if !behind.rest.head?.any isGap then none
  let (tagPrefix, last) ← uri true false (behind.skip isGap)
  if !atGap last.rest then none
  return ((String.ofList handle, tagPrefix), last)

end ClassTable.Yaml
