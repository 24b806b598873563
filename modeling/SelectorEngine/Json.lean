/-! Values of the JSON data model with integer numbers, as far as selectors and flags are exchanged in
it. Objects keep their fields in writing order; the first field of a name is the one that is read. -/
namespace SelectorEngine

inductive Json where
  | null
  | bool (value : Bool)
  | number (value : Int)
  | text (value : String)
  | list (items : List Json)
  | object (fields : List (String × Json))
deriving Repr, Inhabited

namespace Json

def ofText? : Option String → Json
  | none => .null
  | some value => .text value

/-- A text where one is required. -/
def text? : Json → Option String
  | .text value => some value
  | _ => none

def bool? : Json → Option Bool
  | .bool value => some value
  | _ => none

/-- A text or nothing: an absent field and a null one both mean nothing. -/
def optionalText? : Option Json → Option (Option String)
  | none => some none
  | some .null => some none
  | some (.text value) => some (some value)
  | some _ => none

end Json
end SelectorEngine
