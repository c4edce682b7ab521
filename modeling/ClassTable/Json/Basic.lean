import ClassTable.Numeral

/-!
JSON values and the tokens that they are written with. A number is kept as its literal. A string
literal may denote no text, because a surrogate in it stands alone or because it holds a byte that
belongs to no character; such a literal is harmless as long as nobody asks for its text.
-/

namespace ClassTable

/-- A JSON value; the members of an object are in written order, repeated names included. -/
inductive Json where
  | null
  | bool (value : Bool)
  | number (literal : String)
  | text (content : Option String)
  | array (items : List Json)
  | object (members : List (Option String × Json))

namespace Json

inductive Token where
  | openBrace
  | closeBrace
  | openBracket
  | closeBracket
  | colon
  | comma
  | null
  | bool (value : Bool)
  | number (literal : String)
  | text (content : Option String)
  deriving DecidableEq, Repr

mutual
def tokens : Json → List Token
  | .null => [.null]
  | .bool value => [.bool value]
  | .number literal => [.number literal]
  | .text content => [.text content]
  | .array [] => [.openBracket, .closeBracket]
  | .array (item :: rest) => .openBracket :: item.tokens ++ itemTokens rest
  | .object [] => [.openBrace, .closeBrace]
  | .object ((name, value) :: rest) =>
    .openBrace :: .text name :: .colon :: value.tokens ++ memberTokens rest

def itemTokens : List Json → List Token
  | [] => [.closeBracket]
  | item :: rest => .comma :: item.tokens ++ itemTokens rest

def memberTokens : List (Option String × Json) → List Token
  | [] => [.closeBrace]
  | (name, value) :: rest => .comma :: .text name :: .colon :: value.tokens ++ memberTokens rest
end

def int (value : Int) : Json :=
  .number (Numeral.signed value)

def nat (value : Nat) : Json :=
  .number (Numeral.decimal value)

def string (content : String) : Json :=
  .text (some content)

def record (members : List (String × Json)) : Json :=
  .object (members.map fun (name, value) => (some name, value))

def ofOption {α : Type} (encode : α → Json) : Option α → Json
  | none => .null
  | some value => encode value

def ofList {α : Type} (encode : α → Json) (items : List α) : Json :=
  .array (items.map encode)

end Json

end ClassTable
