import ClassTable.Json.Reader
import ClassTable.Proofs.Json.Tokens

/-!
A written value is read back: its text has its tokens, and the reader goes from them to the value,
whatever is open around it.
-/

namespace ClassTable.Json

open Text (Symbol)
open Expecting (next)

inductive Legible : Json → Prop where
  | null : Legible .null
  | bool (value : Bool) : Legible (.bool value)
  | number (literal : String) (valid : isNumber literal.toList = true) :
      Legible (.number literal)
  | text (content : Option String) : Legible (.text content)
  | array {items : List Json} (each : ∀ item ∈ items, Legible item) : Legible (.array items)
  | object {members : List (Option String × Json)} (each : ∀ member ∈ members, Legible member.2) :
      Legible (.object members)

def symbols (tokens : List Token) : List Symbol :=
  (tokens.flatMap Token.render).map some

theorem symbols_cons (token : Token) (tokens : List Token) (after : List Symbol) :
    symbols (token :: tokens) ++ after = token.render.map some ++ (symbols tokens ++ after) := by
  rw [symbols, List.flatMap_cons, List.map_append, List.append_assoc, symbols]

theorem symbols_append (front back : List Token) (after : List Symbol) :
    symbols (front ++ back) ++ after = symbols front ++ (symbols back ++ after) := by
  rw [symbols, List.flatMap_append, List.map_append, List.append_assoc, symbols, symbols]

theorem Token.IsMark.legible {token : Token} (mark : token.IsMark) : token.Legible := by
  cases token with
  | number literal => cases mark
  | _ => trivial

theorem tokens?_mark (token : Token) (mark : token.IsMark) {tokens read : List Token}
    {after : List Symbol} (later : tokens? (symbols tokens ++ after) = some read) :
    tokens? (symbols (token :: tokens) ++ after) = some (token :: read) := by
  rw [symbols_cons, tokens?_render mark.legible fun number => absurd mark number, later,
    Option.map_some]

theorem tokens?_number {literal : String} (valid : isNumber literal.toList = true)
    {after : List Symbol} (stops : Stops after) {read : List Token}
    (later : tokens? after = some read) :
    tokens? (symbols [.number literal] ++ after) = some (.number literal :: read) := by
  have legible : (Token.number literal).Legible := valid
  have whole := tokens?_render legible fun _ => stops
  rw [later, Option.map_some] at whole
  rw [symbols_cons]
  exact whole

theorem stops_symbols (token : Token) (mark : token.IsMark) (tokens : List Token)
    (after : List Symbol) : Stops (symbols (token :: tokens) ++ after) := by
  intro char rest same
  rw [symbols_cons] at same
  cases token with
  | number literal => cases mark
  | bool value =>
      cases value with
      | true => cases same; rfl
      | false => cases same; rfl
  | text content =>
      cases content with
      | none => cases same; rfl
      | some text => cases same; rfl
  | _ => cases same; rfl

theorem stops_itemTokens (items : List Json) (after : List Symbol) :
    Stops (symbols (itemTokens items) ++ after) := by
  cases items with
  | nil => exact stops_symbols .closeBracket trivial [] after
  | cons item rest => exact stops_symbols .comma trivial _ after

theorem stops_memberTokens (members : List (Option String × Json)) (after : List Symbol) :
    Stops (symbols (memberTokens members) ++ after) := by
  cases members with
  | nil => exact stops_symbols .closeBrace trivial [] after
  | cons member rest => exact stops_symbols .comma trivial _ after

theorem tokens?_append {front back later : List Token} {after : List Symbol}
    (read : tokens? (symbols front ++ (symbols back ++ after)) = some (front ++ (back ++ later))) :
    tokens? (symbols (front ++ back) ++ after) = some (front ++ back ++ later) := by
  rw [symbols_append, List.append_assoc]
  exact read

-- By the constructors of values, with what follows as a variable: the text of an item is followed by
-- that of the further items, and only the text of a number could be taken to go on there.
mutual
theorem tokens?_tokens {after : List Symbol} {later : List Token} (stops : Stops after)
    (read : tokens? after = some later) : ∀ {value : Json}, value.Legible →
      tokens? (symbols value.tokens ++ after) = some (value.tokens ++ later)
  | .null, _ => tokens?_mark .null trivial read
  | .bool value, _ => tokens?_mark (.bool value) trivial read
  | .number literal, .number _ valid => tokens?_number valid stops read
  | .text content, _ => tokens?_mark (.text content) trivial read
  | .array [], _ =>
      tokens?_mark .openBracket trivial (tokens?_mark .closeBracket trivial read)
  | .array (item :: rest), .array each => by
      obtain ⟨first, others⟩ := List.forall_mem_cons.1 each
      have further := tokens?_itemTokens read others
      have whole := tokens?_append (tokens?_tokens (stops_itemTokens rest after) further first)
      exact tokens?_mark .openBracket trivial whole
  | .object [], _ =>
      tokens?_mark .openBrace trivial (tokens?_mark .closeBrace trivial read)
  | .object ((name, value) :: rest), .object each => by
      obtain ⟨first, others⟩ := List.forall_mem_cons.1 each
      have further := tokens?_memberTokens read others
      have whole := tokens?_append (tokens?_tokens (stops_memberTokens rest after) further first)
      exact tokens?_mark .openBrace trivial (tokens?_mark (.text name) trivial
        (tokens?_mark .colon trivial whole))

theorem tokens?_itemTokens {after : List Symbol} {later : List Token}
    (read : tokens? after = some later) : ∀ {items : List Json}, (∀ item ∈ items, item.Legible) →
      tokens? (symbols (itemTokens items) ++ after) = some (itemTokens items ++ later)
  | [], _ => tokens?_mark .closeBracket trivial read
  | item :: rest, each => by
      obtain ⟨first, others⟩ := List.forall_mem_cons.1 each
      have further := tokens?_itemTokens read others
      have whole := tokens?_append (tokens?_tokens (stops_itemTokens rest after) further first)
      exact tokens?_mark .comma trivial whole

theorem tokens?_memberTokens {after : List Symbol} {later : List Token}
    (read : tokens? after = some later) : ∀ {members : List (Option String × Json)},
      (∀ member ∈ members, member.2.Legible) →
        tokens? (symbols (memberTokens members) ++ after) = some (memberTokens members ++ later)
  | [], _ => tokens?_mark .closeBrace trivial read
  | (name, value) :: rest, each => by
      obtain ⟨first, others⟩ := List.forall_mem_cons.1 each
      have further := tokens?_memberTokens read others
      have whole := tokens?_append (tokens?_tokens (stops_memberTokens rest after) further first)
      exact tokens?_mark .comma trivial (tokens?_mark (.text name) trivial
        (tokens?_mark .colon trivial whole))
end

def Expecting.run (tokens : List Token) (state : Expecting) : Option Expecting :=
  tokens.foldlM next state

/-- Where an array has just begun, a value may stand or the array may end, and no value begins with
the end of an array. -/
theorem run_firstItem (value : Json) (more : List Token) (frames : List Frame) :
    Expecting.run (value.tokens ++ more) (.firstItem frames) =
      Expecting.run (value.tokens ++ more) (.anyValue (.array [] :: frames)) := by
  fun_cases tokens value
  all_goals rfl

-- The frames around a value stay what they are while it is read, so they are a variable too.
mutual
theorem run_tokens : ∀ (value : Json) (more : List Token) (frames : List Frame),
    Expecting.run (value.tokens ++ more) (.anyValue frames) =
      Expecting.run more (.afterValue value frames)
  | .null, _, _ => rfl
  | .bool _, _, _ => rfl
  | .number _, _, _ => rfl
  | .text _, _, _ => rfl
  | .array [], _, _ => rfl
  | .array (item :: rest), more, frames => by
      have begun : Expecting.run ((Json.array (item :: rest)).tokens ++ more) (.anyValue frames) =
          Expecting.run (item.tokens ++ (itemTokens rest ++ more)) (.firstItem frames) := by
        rw [← List.append_assoc]
        rfl
      rw [begun, run_firstItem, run_tokens item, run_itemTokens rest]
      rfl
  | .object [], _, _ => rfl
  | .object ((name, value) :: rest), more, frames => by
      have begun : Expecting.run ((Json.object ((name, value) :: rest)).tokens ++ more)
          (.anyValue frames) =
            Expecting.run (value.tokens ++ (memberTokens rest ++ more))
              (.anyValue (.object [] name :: frames)) := by
        rw [← List.append_assoc]
        rfl
      rw [begun, run_tokens value, run_memberTokens rest]
      rfl

theorem run_itemTokens : ∀ (items : List Json) (value : Json) (before : List Json)
    (more : List Token) (frames : List Frame),
    Expecting.run (itemTokens items ++ more) (.afterValue value (.array before :: frames)) =
      Expecting.run more (.afterValue (.array ((value :: before).reverse ++ items)) frames)
  | [], _, _, _, _ => by
      rw [List.append_nil]
      rfl
  | item :: rest, value, before, more, frames => by
      have begun : Expecting.run (itemTokens (item :: rest) ++ more)
          (.afterValue value (.array before :: frames)) =
            Expecting.run (item.tokens ++ (itemTokens rest ++ more))
              (.anyValue (.array (value :: before) :: frames)) := by
        rw [← List.append_assoc]
        rfl
      rw [begun, run_tokens item, run_itemTokens rest, List.reverse_cons, List.append_assoc]
      rfl

theorem run_memberTokens : ∀ (members : List (Option String × Json)) (value : Json)
    (before : List (Option String × Json)) (name : Option String) (more : List Token)
    (frames : List Frame),
    Expecting.run (memberTokens members ++ more) (.afterValue value (.object before name :: frames)) =
      Expecting.run more
        (.afterValue (.object (((name, value) :: before).reverse ++ members)) frames)
  | [], _, _, _, _, _ => by
      rw [List.append_nil]
      rfl
  | (next, following) :: rest, value, before, name, more, frames => by
      have begun : Expecting.run (memberTokens ((next, following) :: rest) ++ more)
          (.afterValue value (.object before name :: frames)) =
            Expecting.run (following.tokens ++ (memberTokens rest ++ more))
              (.anyValue (.object ((name, value) :: before) next :: frames)) := by
        rw [← List.append_assoc]
        rfl
      rw [begun, run_tokens following, run_memberTokens rest, List.reverse_cons, List.append_assoc]
      rfl
end

theorem ofTokens?_tokens (value : Json) : ofTokens? value.tokens = some value := by
  have read := run_tokens value [] []
  rw [List.append_nil] at read
  rw [ofTokens?, ← Expecting.run, read]
  rfl

theorem ofString?_compact {value : Json} (legible : value.Legible) :
    ofString? value.compact = some value := by
  have ends : Stops [] := by
    intro char rest same
    cases same
  have read : tokens? (symbols value.tokens ++ []) = some (value.tokens ++ []) :=
    tokens?_tokens ends (by rw [tokens?]) legible
  rw [List.append_nil, List.append_nil] at read
  rw [ofString?, compact, String.toList_ofList, ofSymbols?, ← symbols, read, Option.bind_some,
    ofTokens?_tokens]

end ClassTable.Json
