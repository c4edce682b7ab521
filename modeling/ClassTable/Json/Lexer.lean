import ClassTable.Json.Basic
import ClassTable.Text.Utf8

/-!
The tokens of a JSON text. White space separates tokens and is dropped. A string literal is well
formed as soon as its escapes are; whether it denotes a text is decided afterwards.
-/

namespace ClassTable.Json

open Text (Symbol)

/-- A part of a string literal: a character, a code unit given by an escape, or a stray byte. -/
inductive Piece where
  | char (value : Char)
  | unit (code : Nat)
  | stray
  deriving DecidableEq, Repr

def simpleEscape? : Char → Option Char
  | '"' => some '"'
  | '\\' => some '\\'
  | '/' => some '/'
  | 'b' => some '\x08'
  | 'f' => some '\x0c'
  | 'n' => some '\n'
  | 'r' => some '\r'
  | 't' => some '\t'
  | _ => none

def pieces : List Symbol → Option (List Piece × List Symbol)
  | [] => none
  | none :: rest => (pieces rest).map fun (later, after) => (.stray :: later, after)
  | some '"' :: rest => some ([], rest)
  | some '\\' :: some 'u' :: some a :: some b :: some c :: some d :: rest =>
    (Numeral.value? 16 [a, b, c, d]).bind fun code =>
      (pieces rest).map fun (later, after) => (.unit code :: later, after)
  | some '\\' :: some letter :: rest =>
    (simpleEscape? letter).bind fun char =>
      (pieces rest).map fun (later, after) => (.char char :: later, after)
  | some '\\' :: _ => none
  | some char :: rest =>
    if char.toNat < 0x20 then none
    else (pieces rest).map fun (later, after) => (.char char :: later, after)

theorem length_of_pieces {symbols after : List Symbol} {found : List Piece}
    (success : pieces symbols = some (found, after)) : after.length < symbols.length := by
  fun_induction pieces symbols generalizing found with
  | case1 => cases success
  | case2 rest ih =>
      obtain ⟨⟨later, behind⟩, read, same⟩ := Option.map_eq_some_iff.1 success
      cases same
      exact Nat.lt_succ_of_lt (ih read)
  | case3 rest =>
      cases success
      exact Nat.lt_succ_self _
  | case4 a b c d rest ih =>
      obtain ⟨code, _, mapped⟩ := Option.bind_eq_some_iff.1 success
      obtain ⟨⟨later, behind⟩, read, same⟩ := Option.map_eq_some_iff.1 mapped
      cases same
      have shorter := ih read
      simp only [List.length_cons]
      omega
  | case5 letter rest _ ih =>
      obtain ⟨char, _, mapped⟩ := Option.bind_eq_some_iff.1 success
      obtain ⟨⟨later, behind⟩, read, same⟩ := Option.map_eq_some_iff.1 mapped
      cases same
      exact Nat.lt_succ_of_lt (Nat.lt_succ_of_lt (ih read))
  | case6 => cases success
  | case7 => cases success
  | case8 char rest _ _ _ _ _ ih =>
      obtain ⟨⟨later, behind⟩, read, same⟩ := Option.map_eq_some_iff.1 success
      cases same
      exact Nat.lt_succ_of_lt (ih read)

/-- The text of a string literal: units must be characters or pairs of surrogates, and no byte may
be stray. -/
def content : List Piece → Option (List Char)
  | [] => some []
  | .stray :: _ => none
  | .char char :: rest => (content rest).map (char :: ·)
  | .unit high :: .unit low :: rest =>
    if 0xD800 ≤ high ∧ high < 0xDC00 then
      if 0xDC00 ≤ low ∧ low < 0xE000 then
        (content rest).map
          (Char.ofNat (0x10000 + (high - 0xD800) * 0x400 + (low - 0xDC00)) :: ·)
      else none
    else (Text.scalar? 0 high).bind fun char => (content (.unit low :: rest)).map (char :: ·)
  | .unit code :: rest =>
    (Text.scalar? 0 code).bind fun char => (content rest).map (char :: ·)

def isNumeric (char : Char) : Bool :=
  char.isDigit || char == '-' || char == '+' || char == '.' || char == 'e' || char == 'E'

def spanNumber : List Symbol → List Char × List Symbol
  | some char :: rest =>
    if isNumeric char then
      let (literal, after) := spanNumber rest
      (char :: literal, after)
    else ([], some char :: rest)
  | rest => ([], rest)

theorem length_spanNumber (symbols : List Symbol) :
    (spanNumber symbols).2.length ≤ symbols.length := by
  fun_induction spanNumber symbols with
  | case1 char rest numeric literal after spanned ih => 
      rw [spanned] at ih
      exact Nat.le_succ_of_le ih
  | case2 char rest other => exact Nat.le_refl _
  | case3 rest ended => exact Nat.le_refl _

def afterDigits? : List Char → Option (List Char)
  | [] => none
  | char :: rest => if char.isDigit then some (rest.dropWhile Char.isDigit) else none

/-- What follows the integer part of a number: one zero, or digits without a leading zero. -/
def afterInteger? : List Char → Option (List Char)
  | '-' :: '0' :: rest => some rest
  | '-' :: rest => afterDigits? rest
  | '0' :: rest => some rest
  | rest => afterDigits? rest

def afterFraction? : List Char → Option (List Char)
  | '.' :: rest => afterDigits? rest
  | rest => some rest

def afterExponent? : List Char → Option (List Char)
  | char :: rest =>
    if char = 'e' ∨ char = 'E' then
      match rest with
      | '+' :: digits => afterDigits? digits
      | '-' :: digits => afterDigits? digits
      | digits => afterDigits? digits
    else some (char :: rest)
  | [] => some []

def isNumber (literal : List Char) : Bool :=
  (((afterInteger? literal).bind afterFraction?).bind afterExponent?) == some []

def firstToken? : List Symbol → Option (Token × List Symbol)
  | some '{' :: rest => some (.openBrace, rest)
  | some '}' :: rest => some (.closeBrace, rest)
  | some '[' :: rest => some (.openBracket, rest)
  | some ']' :: rest => some (.closeBracket, rest)
  | some ':' :: rest => some (.colon, rest)
  | some ',' :: rest => some (.comma, rest)
  | some 'n' :: some 'u' :: some 'l' :: some 'l' :: rest => some (.null, rest)
  | some 't' :: some 'r' :: some 'u' :: some 'e' :: rest => some (.bool true, rest)
  | some 'f' :: some 'a' :: some 'l' :: some 's' :: some 'e' :: rest => some (.bool false, rest)
  | some '"' :: rest =>
    (pieces rest).map fun (found, after) => (.text ((content found).map String.ofList), after)
  | some char :: rest =>
    let (literal, after) := spanNumber rest
    if isNumeric char && isNumber (char :: literal) then
      some (.number (String.ofList (char :: literal)), after)
    else none
  | _ => none

theorem length_of_firstToken? {symbols after : List Symbol} {token : Token}
    (success : firstToken? symbols = some (token, after)) : after.length < symbols.length := by
  unfold firstToken? at success
  split at success
  case h_1 | h_2 | h_3 | h_4 | h_5 | h_6 =>
    cases success
    exact Nat.lt_succ_self _
  case h_7 | h_8 | h_9 =>
    cases success
    simp only [List.length_cons]
    omega
  case h_10 rest =>
    obtain ⟨⟨found, later⟩, read, same⟩ := Option.map_eq_some_iff.1 success
    cases same
    exact Nat.lt_succ_of_lt (length_of_pieces read)
  case h_11 char rest _ _ _ _ _ _ _ _ _ _ =>
    have atMost := length_spanNumber rest
    simp only at success
    split at success
    · cases success
      exact Nat.lt_succ_of_le atMost
    · cases success
  case h_12 => cases success

def isSpace (char : Char) : Bool :=
  char == ' ' || char == '\n' || char == '\t' || char == '\r'

def tokens? : List Symbol → Option (List Token)
  | [] => some []
  | first :: rest =>
    if first.any isSpace then tokens? rest
    else
      match _found : firstToken? (first :: rest) with
      | none => none
      | some (token, after) => (tokens? after).map (token :: ·)
termination_by symbols => symbols.length
decreasing_by
  · exact Nat.lt_succ_self _
  · exact length_of_firstToken? _found

end ClassTable.Json
