import ClassTable.Json.Lexer

/-!
JSON values from tokens. The reader goes through the tokens once; it remembers the arrays and
objects that are open around its place, and what may come next.
-/

namespace ClassTable.Json

inductive Frame where
  | array (items : List Json)
  | object (members : List (Option String × Json)) (name : Option String)

inductive Expecting where
  | anyValue (frames : List Frame)
  | firstItem (frames : List Frame)
  | firstName (frames : List Frame)
  | nextName (members : List (Option String × Json)) (frames : List Frame)
  | colon (members : List (Option String × Json)) (name : Option String) (frames : List Frame)
  | afterValue (value : Json) (frames : List Frame)

namespace Expecting

def beginValue (frames : List Frame) : Token → Option Expecting
  | .openBracket => some (.firstItem frames)
  | .openBrace => some (.firstName frames)
  | .null => some (.afterValue .null frames)
  | .bool value => some (.afterValue (.bool value) frames)
  | .number literal => some (.afterValue (.number literal) frames)
  | .text content => some (.afterValue (.text content) frames)
  | _ => none

def next : Expecting → Token → Option Expecting
  | .firstItem frames, .closeBracket => some (.afterValue (.array []) frames)
  | .firstName frames, .closeBrace => some (.afterValue (.object []) frames)
  | .anyValue frames, token => beginValue frames token
  | .firstItem frames, token => beginValue (.array [] :: frames) token
  | .firstName frames, .text name => some (.colon [] name frames)
  | .nextName members frames, .text name => some (.colon members name frames)
  | .colon members name frames, .colon => some (.anyValue (.object members name :: frames))
  | .afterValue value (.array items :: frames), .comma =>
    some (.anyValue (.array (value :: items) :: frames))
  | .afterValue value (.array items :: frames), .closeBracket =>
    some (.afterValue (.array (value :: items).reverse) frames)
  | .afterValue value (.object members name :: frames), .comma =>
    some (.nextName ((name, value) :: members) frames)
  | .afterValue value (.object members name :: frames), .closeBrace =>
    some (.afterValue (.object ((name, value) :: members).reverse) frames)
  | _, _ => none

def result? : Expecting → Option Json
  | .afterValue value [] => some value
  | _ => none

end Expecting

def ofTokens? (tokens : List Token) : Option Json :=
  (tokens.foldlM Expecting.next (.anyValue [])).bind Expecting.result?

def ofSymbols? (symbols : List Text.Symbol) : Option Json :=
  (tokens? symbols).bind ofTokens?

def ofString? (text : String) : Option Json :=
  ofSymbols? (text.toList.map some)

end ClassTable.Json
