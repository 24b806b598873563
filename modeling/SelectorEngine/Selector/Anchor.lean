import SelectorEngine.Selector.Token

/-! Anchoring of relative selectors: what is put in front of a group so that it starts at `:scope`. -/
namespace SelectorEngine.Selector

/-- The group starts with a combinator other than the descendant combinator. -/
def startsRelative : Group → Bool
  | .combinator .descendant :: _ => false
  | .combinator _ :: _ => true
  | _ => false

def startsWithCombinator : Group → Bool
  | first :: _ => first.isCombinator
  | [] => false

/-- What anchoring puts in front of a group. -/
inductive Front where
  | nothing
  | scope
  | scopeDescendant
deriving DecidableEq, Repr

def Front.tokens : Front → Group
  | nothing => []
  | scope => [Selector.scope]
  | scopeDescendant => [Selector.scope, descendant]

/-- How a group is anchored; `anchored` says that there is a scope to anchor it at. -/
def front (anchored : Bool) (group : Group) : Front :=
  if startsRelative group then .scope
  else if anchored && !group.any Token.mentionsScope then .scopeDescendant
  else .nothing

/-- The group is `:scope` and a combinator that leads to siblings, then anything. -/
def startsAmongSiblings : Group → Bool
  | first :: .combinator .sibling :: _ => first.isScope
  | first :: .combinator .adjacent :: _ => first.isScope
  | _ => false

/-- The group is `:scope` and a descendant combinator, then anything. -/
def startsBelowScope : Group → Bool
  | first :: .combinator .descendant :: _ => first.isScope
  | _ => false

end SelectorEngine.Selector
