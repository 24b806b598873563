import SelectorEngine.Json
import SelectorEngine.Selector.Token

/-! Selectors as JSON. A token is an object whose `type` says what it is; every field of the token is
written, and unknown fields are ignored in reading. The combinator that no selector is written with has
no JSON form. -/
namespace SelectorEngine

namespace AttributeAction

def toJson (action : AttributeAction) : Json := .text action.word

/-- A word also counts when it is the only key of an object that holds nothing under it. -/
def ofJson? : Json → Option AttributeAction
  | .text word => ofWord? word
  | .object [(word, .null)] => ofWord? word
  | .object [(word, .object [])] => ofWord? word
  | _ => none

end AttributeAction

namespace CaseMode

def toJson : CaseMode → Json
  | .byAttribute => .null
  | .sensitive => .bool false
  | .insensitive => .bool true
  | .inQuirksMode => .text "quirks"

def ofJson? : Json → Option CaseMode
  | .null => some .byAttribute
  | .bool false => some .sensitive
  | .bool true => some .insensitive
  | .text word => if word = "quirks" then some .inQuirksMode else none
  | .object [(word, .null)] => if word = "quirks" then some .inQuirksMode else none
  | _ => none

theorem ofJson_toJson (mode : CaseMode) : ofJson? mode.toJson = some mode := by
  cases mode <;> rfl

end CaseMode

/-- What a token is, as its `type` says. -/
inductive Kind where
  | tag
  | universal
  | attributeTest
  | pseudo
  | pseudoElement
  | combinator (kind : Combinator)
deriving DecidableEq, Repr

namespace Kind

/-- The kinds a token can be read as, in the order of their numbers. -/
def all : List Kind :=
  [tag, universal, attributeTest, pseudo, pseudoElement, combinator .descendant, combinator .child,
    combinator .parent, combinator .sibling, combinator .adjacent, combinator .column]

def word : Kind → String
  | tag => "tag"
  | universal => "universal"
  | attributeTest => "attribute"
  | pseudo => "pseudo"
  | pseudoElement => "pseudo-element"
  | combinator .descendant => "descendant"
  | combinator .child => "child"
  | combinator .parent => "parent"
  | combinator .sibling => "sibling"
  | combinator .adjacent => "adjacent"
  | combinator .column => "column-combinator"
  | combinator .descendantOrSelf => "flexible-descendant"

def ofWord? (word : String) : Option Kind := all.find? (·.word == word)

def ofNumber? (number : Int) : Option Kind := if number < 0 then none else all[number.toNat]?

/-- A kind is named by its word. A token inside an argument may name it by its number as well. -/
def ofJson? (nested : Bool) : Json → Option Kind
  | .text word => ofWord? word
  | .number number => if nested then ofNumber? number else none
  | _ => none

theorem mem_all (kind : Kind) (isWritten : kind ≠ .combinator .descendantOrSelf) : kind ∈ all := by
  rcases kind with _ | _ | _ | _ | _ | combinator
  case combinator => cases combinator <;> first | decide | contradiction
  all_goals decide

theorem ofWord_word : ∀ kind ∈ all, ofWord? kind.word = some kind := by decide

theorem ofJson_word (nested : Bool) (kind : Kind) (isWritten : kind ≠ .combinator .descendantOrSelf) :
    ofJson? nested (.text kind.word) = some kind :=
  ofWord_word kind (kind.mem_all isWritten)

end Kind

namespace Token

mutual

def toJson? : Token → Option Json
  | .tag name space => some <|
    .object [("type", .text (Kind.word .tag)), ("name", .text name), ("namespace", .ofText? space)]
  | .universal space => some <|
    .object [("type", .text (Kind.word .universal)), ("namespace", .ofText? space)]
  | .attribute selector => some <|
    .object [("type", .text (Kind.word .attributeTest)), ("name", .text selector.name),
      ("action", selector.action.toJson), ("value", .text selector.value),
      ("ignoreCase", selector.caseMode.toJson), ("namespace", .ofText? selector.space)]
  | .pseudoClass name argument => some <|
    .object [("type", .text (Kind.word .pseudo)), ("name", .text name), ("data", .ofText? argument)]
  | .subselect name groups => do
    return .object [("type", .text (Kind.word .pseudo)), ("name", .text name),
      ("data", .list (← groupsToJson? groups))]
  | .pseudoElement name argument => some <|
    .object [("type", .text (Kind.word .pseudoElement)), ("name", .text name),
      ("data", .ofText? argument)]
  | .combinator .descendantOrSelf => none
  | .combinator kind => some (.object [("type", .text (Kind.word (.combinator kind)))])

def groupsToJson? : List (List Token) → Option (List Json)
  | [] => some []
  | group :: rest => do return .list (← groupToJson? group) :: (← groupsToJson? rest)

def groupToJson? : List Token → Option (List Json)
  | [] => some []
  | token :: rest => do return (← token.toJson?) :: (← groupToJson? rest)

end

/-- The JSON form of a token that has one. -/
def toJson (token : Token) : Json := token.toJson?.getD .null

/-- The argument of a pseudo-class, before its name is known. -/
inductive Argument where
  | none
  | text (value : String)
  | groups (groups : SelectorList)

def withArgument (name : String) : Argument → Token
  | .none => .pseudoClass name .none
  | .text value => .pseudoClass name (some value)
  | .groups groups => .subselect name groups

def attributeOfFields? (fields : List (String × Json)) : Option Token := do
  let name ← (← fields.lookup "name").text?
  let action ← AttributeAction.ofJson? (← fields.lookup "action")
  let value ← match fields.lookup "value" with
    | none => some ""
    | some value => value.text?
  let caseMode ← CaseMode.ofJson? ((fields.lookup "ignoreCase").getD .null)
  let space ← Json.optionalText? (fields.lookup "namespace")
  return .attribute { name, action, value, caseMode, space }

mutual

def ofJson? (nested : Bool) : Json → Option Token
  | .object fields => do
    match ← Kind.ofJson? nested (← fields.lookup "type") with
    | .tag =>
      let name ← (← fields.lookup "name").text?
      return .tag name (← Json.optionalText? (fields.lookup "namespace"))
    | .universal => return .universal (← Json.optionalText? (fields.lookup "namespace"))
    | .attributeTest => attributeOfFields? fields
    | .pseudo =>
      let name ← (← fields.lookup "name").text?
      return withArgument name (← argumentOfFields? fields)
    | .pseudoElement =>
      let name ← (← fields.lookup "name").text?
      return .pseudoElement name (← Json.optionalText? (fields.lookup "data"))
    | .combinator kind => return .combinator kind
  | _ => none

/-- The argument in the first `data` field. -/
def argumentOfFields? : List (String × Json) → Option Argument
  | [] => some .none
  | (key, value) :: rest => if key = "data" then argumentOfJson? value else argumentOfFields? rest

def argumentOfJson? : Json → Option Argument
  | .null => some .none
  | .text value => some (.text value)
  | .list items => (groupsOfJson? true items).map .groups
  | _ => none

def groupsOfJson? (nested : Bool) : List Json → Option (List (List Token))
  | [] => some []
  | .list items :: rest => do
    return (← groupOfJson? nested items) :: (← groupsOfJson? nested rest)
  | _ :: _ => none

def groupOfJson? (nested : Bool) : List Json → Option (List Token)
  | [] => some []
  | item :: rest => do return (← ofJson? nested item) :: (← groupOfJson? nested rest)

end

end Token

namespace SelectorList

def toJson? (selectors : SelectorList) : Option Json := do
  return .list (← Token.groupsToJson? selectors)

/-- The JSON form of a selector list that has one. -/
def toJson (selectors : SelectorList) : Json := selectors.toJson?.getD .null

def ofJson? : Json → Option SelectorList
  | .list items => Token.groupsOfJson? false items
  | _ => none

end SelectorList
end SelectorEngine
