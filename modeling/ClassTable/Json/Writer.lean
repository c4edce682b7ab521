import ClassTable.Json.Basic

/-!
JSON texts, in the compact layout without any white space and in the indented one. In strings only
quotes, backslashes and control characters are escaped.
-/

namespace ClassTable.Json

def escape (char : Char) : List Char :=
  if char = '"' then ['\\', '"']
  else if char = '\\' then ['\\', '\\']
  else if char = '\x08' then ['\\', 'b']
  else if char = '\x0c' then ['\\', 'f']
  else if char = '\n' then ['\\', 'n']
  else if char = '\r' then ['\\', 'r']
  else if char = '\t' then ['\\', 't']
  else if char.toNat < 0x20 then
    ['\\', 'u', '0', '0', Numeral.digitChar (char.toNat / 16), Numeral.digitChar (char.toNat % 16)]
  else [char]

/-- A string literal. A surrogate that stands alone is written for a literal without a text. -/
def quote : Option String → List Char
  | some content => '"' :: content.toList.flatMap escape ++ ['"']
  | none => ['"', '\\', 'u', 'd', '8', '0', '0', '"']

def Token.render : Token → List Char
  | openBrace => ['{']
  | closeBrace => ['}']
  | openBracket => ['[']
  | closeBracket => [']']
  | colon => [':']
  | comma => [',']
  | null => ['n', 'u', 'l', 'l']
  | bool true => ['t', 'r', 'u', 'e']
  | bool false => ['f', 'a', 'l', 's', 'e']
  | number literal => literal.toList
  | text content => quote content

def compact (value : Json) : String :=
  String.ofList (value.tokens.flatMap Token.render)

def lineStart (depth : Nat) : List Char :=
  '\n' :: List.replicate (2 * depth) ' '

mutual
def indented (depth : Nat) : Json → List Char
  | .array [] => ['[', ']']
  | .array (item :: rest) =>
    '[' :: lineStart (depth + 1) ++ item.indented (depth + 1) ++ indentedItems depth rest
  | .object [] => ['{', '}']
  | .object ((name, value) :: rest) =>
    '{' :: lineStart (depth + 1) ++ quote name ++ [':', ' '] ++ value.indented (depth + 1) ++
      indentedMembers depth rest
  | .null => Token.null.render
  | .bool value => (Token.bool value).render
  | .number literal => literal.toList
  | .text content => quote content

def indentedItems (depth : Nat) : List Json → List Char
  | [] => lineStart depth ++ [']']
  | item :: rest =>
    ',' :: lineStart (depth + 1) ++ item.indented (depth + 1) ++ indentedItems depth rest

def indentedMembers (depth : Nat) : List (Option String × Json) → List Char
  | [] => lineStart depth ++ ['}']
  | (name, value) :: rest =>
    ',' :: lineStart (depth + 1) ++ quote name ++ [':', ' '] ++ value.indented (depth + 1) ++
      indentedMembers depth rest
end

def pretty (value : Json) : String :=
  String.ofList (value.indented 0)

end ClassTable.Json
