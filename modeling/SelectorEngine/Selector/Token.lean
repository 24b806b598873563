/-! Selectors as their parser delivers them. A selector list is a list of alternatives, called groups;
a group is a flat sequence of simple selectors and combinators in source order, so that its last token
is nearest the candidate node. Namespaces are carried along and never consulted. -/
namespace SelectorEngine

/-- How an attribute value is compared; `exists` in selectors is `present` here. -/
inductive AttributeAction where
  | any
  | element
  | end
  | equals
  | present
  | hyphen
  | not
  | start
deriving DecidableEq, Repr

namespace AttributeAction

def all : List AttributeAction := [any, element, .end, equals, present, hyphen, not, start]

def word : AttributeAction → String
  | any => "any"
  | element => "element"
  | .end => "end"
  | equals => "equals"
  | present => "exists"
  | hyphen => "hyphen"
  | not => "not"
  | start => "start"

def ofWord? (word : String) : Option AttributeAction := all.find? (·.word == word)

theorem ofWord_word (action : AttributeAction) : ofWord? action.word = some action := by
  cases action <;> decide

end AttributeAction

/-- Whether an attribute comparison ignores letter case. -/
inductive CaseMode where
  /-- Only for attributes whose values are case-insensitive in HTML, and never in XML. -/
  | byAttribute
  | sensitive
  | insensitive
  /-- Only in documents in quirks mode. -/
  | inQuirksMode
deriving DecidableEq, Repr

structure AttributeSelector where
  name : String
  action : AttributeAction
  value : String := ""
  caseMode : CaseMode := .byAttribute
  space : Option String := none
deriving DecidableEq, Repr

inductive Combinator where
  | descendant
  | child
  /-- The right side has a child that matches the left side. -/
  | parent
  | sibling
  | adjacent
  /-- Written `||`; it has no meaning for trees. -/
  | column
  /-- The node itself or an ancestor of it. No selector is written with it: it stands for a descendant
  combinator after `:scope` when the scope is a collection of nodes. -/
  | descendantOrSelf
deriving DecidableEq, Repr

inductive Token where
  | tag (name : String) (space : Option String)
  | universal (space : Option String)
  | attribute (selector : AttributeSelector)
  /-- A pseudo-class with a text argument or none. -/
  | pseudoClass (name : String) (argument : Option String)
  /-- A pseudo-class with a selector list as its argument. -/
  | subselect (name : String) (groups : List (List Token))
  | pseudoElement (name : String) (argument : Option String)
  | combinator (kind : Combinator)
deriving Repr, Inhabited

abbrev Group := List Token

abbrev SelectorList := List Group

namespace Token

def isCombinator : Token → Bool
  | .combinator _ => true
  | _ => false

/-- A `:scope` pseudo-class, whatever its argument. -/
def isScope : Token → Bool
  | .pseudoClass name _ => name == "scope"
  | .subselect name _ => name == "scope"
  | _ => false

mutual

/-- `:scope`, or a pseudo-class whose selector list mentions it at any depth. -/
def mentionsScope : Token → Bool
  | .pseudoClass name _ => name == "scope"
  | .subselect name groups => name == "scope" || anyGroupMentionsScope groups
  | _ => false

def anyGroupMentionsScope : List (List Token) → Bool
  | [] => false
  | group :: rest => anyMentionsScope group || anyGroupMentionsScope rest

def anyMentionsScope : List Token → Bool
  | [] => false
  | token :: rest => token.mentionsScope || anyMentionsScope rest

end

theorem anyMentionsScope_eq_any (group : Group) :
    anyMentionsScope group = group.any mentionsScope := by
  induction group with
  | nil => rfl
  | cons token rest ih => simp [anyMentionsScope, ih]

theorem anyGroupMentionsScope_eq_any (groups : SelectorList) :
    anyGroupMentionsScope groups = groups.any (·.any mentionsScope) := by
  induction groups with
  | nil => rfl
  | cons group rest ih => simp [anyGroupMentionsScope, anyMentionsScope_eq_any, ih]

end Token

/-! Short forms for selectors that are written in code. -/
namespace Selector

def tag (name : String) : Token := .tag name none

def universal : Token := .universal none

def attributeWith (name : String) (action : AttributeAction) (value : String) : Token :=
  .attribute { name, action, value }

def attributePresent (name : String) : Token := attributeWith name .present ""

def attributeEquals (name value : String) : Token := attributeWith name .equals value

def pseudo (name : String) : Token := .pseudoClass name none

def pseudoWith (name argument : String) : Token := .pseudoClass name (some argument)

def pseudoOf (name : String) (groups : SelectorList) : Token := .subselect name groups

def pseudoElement (name : String) : Token := .pseudoElement name none

def scope : Token := pseudo "scope"

def descendant : Token := .combinator .descendant

def child : Token := .combinator .child

def parent : Token := .combinator .parent

def sibling : Token := .combinator .sibling

def adjacent : Token := .combinator .adjacent

def descendantOrSelf : Token := .combinator .descendantOrSelf

end Selector
end SelectorEngine
