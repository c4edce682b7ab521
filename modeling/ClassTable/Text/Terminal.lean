import ClassTable.Text.Utf8

/-!
What is left of a text once everything is taken out that only steers a terminal: control characters
other than white space, and the sequences that start with an escape character. A text that has
neither is left as it is. A text may also be marked to stand out on a terminal; the marks are such
sequences themselves.
-/

namespace ClassTable.Text

/-- Which sequence a character stands in: outside of all, or in one that has only begun, one with an
intermediate, a control sequence, a command of the operating system, the head of a device control
from its start, behind a parameter or behind an intermediate, or a string that nobody shows. -/
inductive Sequence where
  | outside
  | begun
  | intermediate
  | control
  | command
  | device
  | deviceParameter
  | deviceIntermediate
  | hidden
  deriving DecidableEq, Repr

def escapeChar : Char := '\x1b'

def isCancel (char : Char) : Bool :=
  char == '\x18' || char == '\x1a'

def isLayout (char : Char) : Bool :=
  char == '\t' || char == '\n' || char == '\x0c' || char == '\r'

def isShown (char : Char) : Bool :=
  isLayout char || (0x20 ≤ char.toNat && char.toNat != 0x7F)

def holdsTerminator (char : Char) : Bool :=
  (String.ofList [char]).toUTF8.toList.contains 0x9C

namespace Sequence

def next (sequence : Sequence) (char : Char) : Sequence :=
  let code := char.toNat
  if char == escapeChar then begun
  else if isCancel char then outside
  else
    match sequence with
    | outside => outside
    | begun =>
      if code < 0x20 || 0x7F ≤ code then begun
      else if code < 0x30 then intermediate
      else if char == '[' then control
      else if char == ']' then command
      else if char == 'P' then device
      else if char == 'X' || char == '^' || char == '_' then hidden
      else outside
    | intermediate => if 0x30 ≤ code && code < 0x7F then outside else intermediate
    | control => if 0x40 ≤ code && code < 0x7F then outside else control
    | command => if char == '\x07' then outside else command
    | device =>
      if code < 0x20 || 0x7F ≤ code then device
      else if code < 0x30 then deviceIntermediate
      else if code < 0x40 then deviceParameter
      else hidden
    | deviceParameter =>
      if code < 0x20 || 0x7F ≤ code then deviceParameter
      else if code < 0x30 then deviceIntermediate
      else if code < 0x3C then deviceParameter
      else hidden
    | deviceIntermediate =>
      if code < 0x30 || 0x7F ≤ code then deviceIntermediate else hidden
    | hidden => if holdsTerminator char then outside else hidden

/-- Whether a character is shown. Within some sequences, white space still is. -/
def shows (sequence : Sequence) (char : Char) : Bool :=
  match sequence with
  | outside => isShown char
  | begun | intermediate | control => isLayout char
  | command | device | deviceParameter | deviceIntermediate | hidden => false

end Sequence

/-- The characters that are shown. A run of shown characters that starts within a sequence goes on
up to the first character that is never shown; then the sequence goes on, unless the run had a
character beyond ASCII, which ends it. -/
def shownChars (sequence : Sequence) (inRun : Bool) : List Char → List Char
  | [] => []
  | char :: rest =>
    if inRun && isShown char then
      char :: shownChars (if char.toNat < 0x80 then sequence else .outside) true rest
    else if !inRun && sequence.shows char then
      char :: shownChars sequence true rest
    else if inRun then
      let resumed := if char == escapeChar || isCancel char then sequence.next char else sequence
      shownChars resumed false rest
    else shownChars (sequence.next char) false rest

def plain (text : String) : String :=
  String.ofList (shownChars .outside false text.toList)

def emphasised (text : String) : String :=
  "\x1b[1m" ++ text ++ "\x1b[0m"

end ClassTable.Text
