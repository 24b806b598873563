import SelectorEngine.Proofs.Meaning.SimpleSelector
import SelectorEngine.Selector.Abbreviation
import SelectorEngine.Selector.Anchor
import SelectorEngine.Compile.PseudoClass

/-! What selectors mean. A group is read from right to left: every simple selector of the last compound
holds at the node, in whatever order, and the combinator before it leads to an element at which the
rest of the group holds. A reading fixes where combinators lead and where `:has()` looks; everything
else about the meaning is the same for every reading. -/
namespace SelectorEngine

variable {ν : Type}

/-- What one token contributes to a group: a condition on the node, or a move to a related element. -/
inductive Part (ν : Type) where
  | test (holds : ν → Prop)
  | move (leads : ν → ν → Prop)

def Part.chain : List (Part ν) → ν → Prop
  | [], _ => True
  | .test holds :: left, node => holds node ∧ chain left node
  | .move leads :: left, node => ∃ next, leads node next ∧ chain left next

structure Reading (ν : Type) where
  basis : Basis ν
  leads : Combinator → ν → ν → Prop
  /-- The argument of `:has()` has the node it is asked about as its scope; else it has none. -/
  relative : SelectorList → Bool
  /-- `:has()` with the argument, asked about the first node, looks at the second. -/
  searched : SelectorList → ν → ν → Prop
  /-- The list that an abbreviation stands for holds at the node. -/
  expand : SelectorList → Option (MatchContext ν) → ν → Prop

namespace Selector

/-- A descendant combinator after `:scope` leads to the nodes of the scope themselves, too. -/
def widened (group : Group) : Group :=
  match group with
  | first :: _ :: rest => if startsBelowScope group then first :: descendantOrSelf :: rest else group
  | _ => group

/-- The group as it is read: fronted with `:scope` where it has to be, and with the descendant
combinator after `:scope` widened where the scope is a collection. -/
def written (collection anchored : Bool) (group : Group) : Group :=
  let fronted := (front anchored group).tokens ++ group
  if collection then widened fronted else fronted

def isRelative (groups : SelectorList) : Bool := groups.any (·.any Token.isCombinator)

def reachesSiblings (groups : SelectorList) : Bool :=
  isRelative groups && groups.any fun group =>
    startsAmongSiblings ((front true group).tokens ++ group)

end Selector

def MatchContext.isCollection : MatchContext ν → Bool
  | .node _ => false
  | .nodes _ => true

namespace Reading

variable (reading : Reading ν)

/-- The node is one of the scope; without a scope it is the root. -/
def AtScope (context : Option (MatchContext ν)) (node : ν) : Prop :=
  match (context.map MatchContext.toList).getD [] with
  | [] => reading.basis.tree.elementParent node = none
  | nodes => ∃ scope ∈ nodes, reading.basis.same scope node = true

theorem atScope_root {context : Option (MatchContext ν)}
    (empty : (context.map MatchContext.toList).getD [] = []) (node : ν) :
    reading.AtScope context node ↔ reading.basis.tree.elementParent node = none := by
  rw [AtScope, empty]

theorem atScope_nodes {context : MatchContext ν} (filled : context.toList ≠ []) (node : ν) :
    reading.AtScope (some context) node ↔
      context.toList.any (reading.basis.same · node) = true := by
  rw [AtScope, Option.map_some, Option.getD_some, List.any_eq_true]
  split
  · next empty => exact absurd empty filled
  · rfl

theorem atScope_node (scope node : ν) :
    reading.AtScope (some (.node scope)) node ↔ reading.basis.same scope node = true := by
  simp [AtScope, MatchContext.toList]

def FilterHolds (filter : BuiltinFilter) (argument : Option String)
    (context : Option (MatchContext ν)) (node : ν) : Prop :=
  let tree := reading.basis.tree
  match filter, argument with
  | .contains, some text => text.toList <:+: (tree.text node).toList
  | .containsFolded, some text => (Text.lower text).toList <:+: (Text.lower (tree.text node)).toList
  | .counting how, some formula => how.Holds reading.basis formula node
  | .root, _ => tree.elementParent node = none
  | .scope, _ => reading.AtScope context node
  | .state which, _ => tree.supports which = true ∧ tree.isIn node which = true
  | .lang, some value =>
    AttributeSelector.Holds reading.basis { name := "lang", action := .equals, value } node
  | _, none => False

def ClassHolds (name : String) (argument : Option String) (context : Option (MatchContext ν))
    (node : ν) : Prop :=
  match Selector.abbreviations.lookup name with
  | some selectors => reading.expand selectors context node
  | none =>
    match BuiltinFilter.ofName? name with
    | some filter => reading.FilterHolds filter argument context node
    | none => ∃ structural, StructuralClass.ofName? name = some structural ∧
      structural.holds reading.basis node = true

/-- The part of a token that carries no selector list. -/
def plainPart (context : Option (MatchContext ν)) : Token → Part ν
  | .tag name _ => .test fun node => reading.basis.tree.name node =
    if reading.basis.flags.foldsTags then Text.lower name else name
  | .universal _ => .test fun _ => True
  | .attribute selector => .test (selector.Holds reading.basis)
  | .pseudoClass name argument => .test (reading.ClassHolds name argument context)
  | .combinator kind => .move (reading.leads kind)
  | .subselect _ _ | .pseudoElement _ _ => .test fun _ => False

def writtenParts (context : Option (MatchContext ν)) (anchored : Bool) (group : Group)
    (parts : List (Part ν)) : List (Part ν) :=
  let front := (Selector.front anchored group).tokens
  let fronted := front.map (reading.plainPart context) ++ parts
  match context.any MatchContext.isCollection && Selector.startsBelowScope (front ++ group), fronted with
  | true, first :: _ :: rest => first :: .move (reading.leads .descendantOrSelf) :: rest
  | _, _ => fronted

mutual

def part (context : Option (MatchContext ν)) : Token → Part ν
  | .subselect name groups =>
    match Subselect.ofName? name with
    | some .anyOf => .test (someHolds context false groups)
    | some .noneOf => .test fun node => ¬ someHolds context false groups node
    | some .has => .test fun node => ∃ found, reading.searched groups node found ∧
      someHolds (if reading.relative groups then some (.node node) else none)
        (reading.relative groups) groups found
    | none => .test fun _ => False
  | token => reading.plainPart context token

def parts (context : Option (MatchContext ν)) : List Token → List (Part ν)
  | [] => []
  | token :: rest => part context token :: parts context rest

def someHolds (context : Option (MatchContext ν)) (anchored : Bool) :
    List (List Token) → ν → Prop
  | [], _ => False
  | group :: rest, node =>
    Part.chain (reading.writtenParts context anchored group (parts context group)).reverse node ∨
      someHolds context anchored rest node

end

def Holds (context : Option (MatchContext ν)) (group : Group) (node : ν) : Prop :=
  Part.chain (group.map (reading.part context)).reverse node

theorem holds_congr_of_part {first second : Reading ν} {context other : Option (MatchContext ν)}
    {group : Group} (same : ∀ token ∈ group, first.part context token = second.part other token) :
    first.Holds context group = second.Holds other group := by
  unfold Holds
  rw [List.map_congr_left same]

theorem parts_eq_map (context : Option (MatchContext ν)) (group : Group) :
    reading.parts context group = group.map (reading.part context) := by
  induction group with
  | nil => rfl
  | cons token rest ih => rw [parts, ih, List.map_cons]

private theorem front_plain (context : Option (MatchContext ν)) (front : Selector.Front) :
    front.tokens.map (reading.plainPart context) = front.tokens.map (reading.part context) := by
  cases front <;> rfl

theorem writtenParts_eq_map (context : Option (MatchContext ν)) (anchored : Bool) (group : Group) :
    reading.writtenParts context anchored group (reading.parts context group) =
      (Selector.written (context.any MatchContext.isCollection) anchored group).map
        (reading.part context) := by
  unfold writtenParts Selector.written
  dsimp only
  rw [front_plain, parts_eq_map, ← List.map_append]
  generalize (Selector.front anchored group).tokens ++ group = fronted
  cases context.any MatchContext.isCollection with
  | false => rfl
  | true =>
    rcases fronted with _ | ⟨first, _ | ⟨second, rest⟩⟩
    · rfl
    · rfl
    · cases below : Selector.startsBelowScope (first :: second :: rest) with
      | false => simp [Selector.widened, below]
      | true => simp [Selector.widened, below, part, plainPart, Selector.descendantOrSelf]

theorem someHolds_iff (context : Option (MatchContext ν)) (anchored : Bool)
    (groups : SelectorList) (node : ν) :
    reading.someHolds context anchored groups node ↔ ∃ group ∈ groups,
      reading.Holds context
        (Selector.written (context.any MatchContext.isCollection) anchored group) node := by
  induction groups with
  | nil => simp [someHolds]
  | cons group rest ih =>
    rw [someHolds, ih, writtenParts_eq_map]
    simp only [Holds, List.mem_cons, or_and_right, exists_or, exists_eq_left]

theorem someHolds_append (context : Option (MatchContext ν)) (anchored : Bool)
    (first second : SelectorList) (node : ν) :
    reading.someHolds context anchored (first ++ second) node ↔
      reading.someHolds context anchored first node ∨ reading.someHolds context anchored second node := by
  simp only [someHolds_iff, List.mem_append, or_and_right, exists_or]

end Reading
end SelectorEngine
