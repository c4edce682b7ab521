import ClassTable.Json.Lexer
import ClassTable.Json.Writer
import Mathlib.Data.List.TakeWhile

/-!
Written tokens are read back. A string literal has one piece for each character of its text, and a
number literal ends where the next token begins.
-/

namespace ClassTable.Json

open Text (Symbol)

def Piece.ofChar (char : Char) : Piece :=
  if char ∈ ['\x08', '\x0c', '\n', '\r', '\t'] then .char char
  else if char.toNat < 0x20 then .unit char.toNat
  else .char char

def prepend (piece : Piece) (read : List Piece × List Symbol) : List Piece × List Symbol :=
  (piece :: read.1, read.2)

theorem pieces_plain {char : Char} (notQuote : char ≠ '"') (notBackslash : char ≠ '\\')
    (printable : ¬ char.toNat < 0x20) (rest : List Symbol) :
    pieces (some char :: rest) = (pieces rest).map (prepend (.char char)) := by
  rw [pieces, if_neg printable]
  · rfl
  · exact notQuote
  · exact fun _ _ _ _ _ _ => notBackslash
  · exact fun _ _ _ => notBackslash
  · exact notBackslash

theorem pieces_control {code : Nat} (small : code < 0x20) (rest : List Symbol) :
    pieces (['\\', 'u', '0', '0', Numeral.digitChar (code / 16),
      Numeral.digitChar (code % 16)].map some ++ rest) =
        (pieces rest).map (prepend (.unit code)) := by
  have value : Numeral.value? 16 ['0', '0', Numeral.digitChar (code / 16),
      Numeral.digitChar (code % 16)] = some code := by
    have zero : Numeral.digitIn? 16 '0' = some 0 := rfl
    have high : Numeral.digitIn? 16 (Numeral.digitChar (code / 16)) = some (code / 16) :=
      Numeral.digitIn?_digitChar (by omega) (by omega)
    have low : Numeral.digitIn? 16 (Numeral.digitChar (code % 16)) = some (code % 16) :=
      Numeral.digitIn?_digitChar (by omega) (by omega)
    simp [Numeral.value?, zero, high, low]
    omega
  simp only [List.map_cons, List.map_nil, List.cons_append, List.nil_append]
  rw [pieces, value]
  rfl

theorem pieces_escape (char : Char) (rest : List Symbol) :
    pieces ((escape char).map some ++ rest) = (pieces rest).map (prepend (.ofChar char)) := by
  unfold escape
  iterate 7
    split
    next same =>
      subst same
      rfl
  next notQuote notBackslash _ _ _ _ _ =>
    have longhand : char ∉ ['\x08', '\x0c', '\n', '\r', '\t'] := by simp_all
    rw [Piece.ofChar, if_neg longhand]
    split
    next small => exact pieces_control small rest
    next printable => exact pieces_plain notQuote notBackslash printable rest

theorem pieces_literal (chars : List Char) (rest : List Symbol) :
    pieces ((chars.flatMap escape ++ ['"']).map some ++ rest) =
      some (chars.map Piece.ofChar, rest) := by
  induction chars with
  | nil => rfl
  | cons char chars ih =>
      rw [List.flatMap_cons, List.append_assoc, List.map_append, List.append_assoc, pieces_escape,
        ih]
      rfl

theorem scalar?_toNat (char : Char) : Text.scalar? 0 char.toNat = some char := by
  have valid : char.toNat.isValidChar := char.valid
  rw [Text.scalar?, if_pos ⟨Nat.zero_le _, valid⟩, Char.ofNat_toNat]

theorem content_unit {code : Nat} (low : code < 0xD800) (rest : List Piece) :
    content (.unit code :: rest) =
      (Text.scalar? 0 code).bind fun char => (content rest).map (char :: ·) := by
  cases rest with
  | nil => rfl
  | cons piece rest =>
      cases piece with
      | unit next =>
          rw [content, if_neg]
          omega
      | char next => rfl
      | stray => rfl

theorem content_ofChar (char : Char) (rest : List Piece) :
    content (.ofChar char :: rest) = (content rest).map (char :: ·) := by
  unfold Piece.ofChar
  split
  · rfl
  split
  next small =>
    rw [content_unit (by omega), scalar?_toNat, Option.bind_some]
  · rfl

theorem content_map_ofChar (chars : List Char) :
    content (chars.map Piece.ofChar) = some chars := by
  induction chars with
  | nil => rfl
  | cons char chars ih =>
      rw [List.map_cons, content_ofChar, ih, Option.map_some]

def Stops (symbols : List Symbol) : Prop :=
  ∀ char rest, symbols = some char :: rest → isNumeric char = false

theorem spanNumber_append {literal : List Char} (numeric : ∀ char ∈ literal, isNumeric char = true)
    {after : List Symbol} (stops : Stops after) :
    spanNumber (literal.map some ++ after) = (literal, after) := by
  induction literal with
  | nil =>
      cases after with
      | nil => rfl
      | cons symbol rest =>
          cases symbol with
          | none => rfl
          | some char =>
              have ends := stops char rest rfl
              rw [List.map_nil, List.nil_append, spanNumber, if_neg (by rw [ends]; decide)]
  | cons char literal ih =>
      obtain ⟨first, others⟩ := List.forall_mem_cons.1 numeric
      rw [List.map_cons, List.cons_append, spanNumber, if_pos first, ih others]

def Skips (chars rest : List Char) : Prop :=
  ∃ front, (∀ char ∈ front, isNumeric char = true) ∧ chars = front ++ rest

theorem Skips.refl (chars : List Char) : Skips chars chars :=
  ⟨[], by simp, rfl⟩

theorem Skips.cons {char : Char} {chars rest : List Char} (numeric : isNumeric char = true)
    (skips : Skips chars rest) : Skips (char :: chars) rest := by
  obtain ⟨front, each, rfl⟩ := skips
  exact ⟨char :: front, List.forall_mem_cons.2 ⟨numeric, each⟩, rfl⟩

theorem Skips.trans {chars rest last : List Char} (first : Skips chars rest)
    (second : Skips rest last) : Skips chars last := by
  obtain ⟨front, each, rfl⟩ := first
  obtain ⟨back, others, rfl⟩ := second
  exact ⟨front ++ back, List.forall_mem_append.2 ⟨each, others⟩, (List.append_assoc ..).symm⟩

theorem isNumeric_of_isDigit {char : Char} (digit : char.isDigit = true) :
    isNumeric char = true := by
  simp [isNumeric, digit]

theorem skips_dropWhile (chars : List Char) : Skips chars (chars.dropWhile Char.isDigit) := by
  refine ⟨chars.takeWhile Char.isDigit, ?_, (List.takeWhile_append_dropWhile ..).symm⟩
  intro char member
  exact isNumeric_of_isDigit (List.mem_takeWhile_imp member)

theorem skips_of_afterDigits? {chars rest : List Char} (success : afterDigits? chars = some rest) :
    Skips chars rest := by
  cases chars with
  | nil => cases success
  | cons char chars =>
      rw [afterDigits?] at success
      split at success
      next digit =>
        cases success
        exact (skips_dropWhile chars).cons (isNumeric_of_isDigit digit)
      · cases success

theorem skips_of_afterInteger? {chars rest : List Char}
    (success : afterInteger? chars = some rest) : Skips chars rest := by
  unfold afterInteger? at success
  split at success
  · cases success
    exact ((Skips.refl _).cons rfl).cons rfl
  · exact (skips_of_afterDigits? success).cons rfl
  · cases success
    exact (Skips.refl _).cons rfl
  · exact skips_of_afterDigits? success

theorem skips_of_afterFraction? {chars rest : List Char}
    (success : afterFraction? chars = some rest) : Skips chars rest := by
  unfold afterFraction? at success
  split at success
  · exact (skips_of_afterDigits? success).cons rfl
  · cases success
    exact Skips.refl _

theorem skips_of_afterExponent? {chars rest : List Char}
    (success : afterExponent? chars = some rest) : Skips chars rest := by
  unfold afterExponent? at success
  split at success
  next char digits =>
    split at success
    next exponent =>
      have numeric : isNumeric char = true := by
        rcases exponent with rfl | rfl
        · rfl
        · rfl
      refine Skips.cons numeric ?_
      split at success
      · exact (skips_of_afterDigits? success).cons rfl
      · exact (skips_of_afterDigits? success).cons rfl
      · exact skips_of_afterDigits? success
    · cases success
      exact Skips.refl _
  · cases success
    exact Skips.refl _

theorem numeric_of_isNumber {literal : List Char} (number : isNumber literal = true) :
    ∀ char ∈ literal, isNumeric char = true := by
  have whole := beq_iff_eq.1 number
  obtain ⟨exponent, fraction, last⟩ := Option.bind_eq_some_iff.1 whole
  obtain ⟨point, integer, middle⟩ := Option.bind_eq_some_iff.1 fraction
  have skips := (skips_of_afterInteger? integer).trans
    ((skips_of_afterFraction? middle).trans (skips_of_afterExponent? last))
  obtain ⟨front, each, rfl⟩ := skips
  rwa [List.append_nil]

theorem firstToken?_number {literal : List Char} (number : isNumber literal = true)
    {after : List Symbol} (stops : Stops after) :
    firstToken? (literal.map some ++ after) = some (.number (String.ofList literal), after) := by
  have numeric := numeric_of_isNumber number
  cases literal with
  | nil => cases number
  | cons char rest =>
      obtain ⟨first, others⟩ := List.forall_mem_cons.1 numeric
      have apart : ∀ other, isNumeric other = false → char ≠ other := by
        rintro other text rfl
        rw [first] at text
        cases text
      rw [List.map_cons, List.cons_append, firstToken?]
      · simp only [spanNumber_append others stops, first, number, Bool.and_self, if_true]
      · exact apart _ rfl
      · exact apart _ rfl
      · exact apart _ rfl
      · exact apart _ rfl
      · exact apart _ rfl
      · exact apart _ rfl
      · exact fun _ _ => apart _ rfl
      · exact fun _ _ => apart _ rfl
      · exact fun _ _ => apart _ rfl
      · exact apart _ rfl

theorem firstToken?_quote (content : Option String) (after : List Symbol) :
    firstToken? ((quote content).map some ++ after) = some (.text content, after) := by
  cases content with
  | none => rfl
  | some text =>
      rw [quote, List.cons_append, List.map_cons, List.cons_append, firstToken?, pieces_literal,
        Option.map_some]
      simp only [content_map_ofChar, Option.map_some, String.ofList_toList]

/-- A token that can be told from what is written: the literal of a number has to be one. -/
def Token.Legible : Token → Prop
  | .number literal => isNumber literal.toList = true
  | _ => True

def Token.IsMark : Token → Prop
  | .number _ => False
  | _ => True

theorem firstToken?_render {token : Token} (legible : token.Legible) {after : List Symbol}
    (stops : ¬ token.IsMark → Stops after) :
    firstToken? (token.render.map some ++ after) = some (token, after) := by
  cases token with
  | number literal =>
      rw [Token.render, firstToken?_number legible (stops id), String.ofList_toList]
  | text content => exact firstToken?_quote content after
  | bool value => cases value <;> rfl
  | _ => rfl

theorem firstToken?_of_isSpace {symbol : Symbol} (space : symbol.any isSpace = true)
    (rest : List Symbol) : firstToken? (symbol :: rest) = none := by
  cases symbol with
  | none => cases space
  | some char =>
      have spaces : ((char = ' ' ∨ char = '\n') ∨ char = '\t') ∨ char = '\r' := by
        simpa [isSpace] using space
      rcases spaces with ((rfl | rfl) | rfl) | rfl
      · rfl
      · rfl
      · rfl
      · rfl

theorem tokens?_of_firstToken? {symbols after : List Symbol} {token : Token}
    (found : firstToken? symbols = some (token, after)) :
    tokens? symbols = (tokens? after).map (token :: ·) := by
  cases symbols with
  | nil => cases found
  | cons first rest =>
      have dark : ¬ first.any isSpace = true := by
        intro space
        rw [firstToken?_of_isSpace space] at found
        cases found
      rw [tokens?, if_neg dark]
      split
      next missing =>
        rw [found] at missing
        cases missing
      next read =>
        rw [found] at read
        cases read
        rfl

theorem tokens?_render {token : Token} (legible : token.Legible) {after : List Symbol}
    (stops : ¬ token.IsMark → Stops after) :
    tokens? (token.render.map some ++ after) = (tokens? after).map (token :: ·) :=
  tokens?_of_firstToken? (firstToken?_render legible stops)

end ClassTable.Json
