import SelectorEngine.Compile.Options
import SelectorEngine.Selector.Anchor
import SelectorEngine.Selector.Rank

/-! Compiling groups of tokens whose steps are known, those of combinators among them. A combinator moves from
the node to elements related to it, and what is compiled already is tested there. A group is arranged and
anchored, then folded from left to right, starting from the root predicate; once it can never match, the rest
of it is left out. The groups together match what any of them matches. -/
namespace SelectorEngine

variable {ν σ : Type}

namespace Combinator

/-- The elements a combinator leads to, in the order in which they are tried. -/
def reach (basis : Basis ν) (node : ν) : Combinator → List ν
  | descendant => (basis.tree.ancestors node).filter basis.tree.isElement
  | descendantOrSelf => (node :: basis.tree.ancestors node).filter basis.tree.isElement
  | child => (basis.tree.elementParent node).toList
  | parent => (basis.tree.children node).filter basis.tree.isElement
  | sibling => (basis.tree.siblingsBefore basis.same node).filter basis.tree.isElement
  | adjacent =>
    ((basis.tree.siblingsBefore basis.same node).filter basis.tree.isElement).getLast?.toList
  | column => []

end Combinator

/-- Compiles a combinator. Only the descendant combinator remembers. -/
def combinatorStep (combinator : Combinator) : Step ν σ := fun options _ next =>
  match combinator, next with
  | .column, _ => throw (.unsupported .columnCombinators)
  | _, .alwaysFalse => return .alwaysFalse
  | .descendant, next =>
    if options.flags.cacheResults then do
      let table ← (Session.fresh : SessionM σ Nat)
      Predicate.ofPlan (.under table options.climb options.tree.isElement next.toPlan)
    else
      Predicate.ofPlan (.leadsTo (Combinator.descendant.reach options.toBasis ·) next.toPlan)
  | combinator, next => Predicate.ofPlan (.leadsTo (combinator.reach options.toBasis ·) next.toPlan)

/-- What a selector list compiles to. -/
structure Query (ν σ : Type) where
  predicate : Predicate ν σ
  /-- Some group is `:scope` followed by siblings of it: a search that starts from the scope has to
  look at its next siblings too. -/
  reachesSiblings : Bool

def Query.test (query : Query ν σ) (node : ν) : SessionM σ Bool := query.predicate.test node

/-- All nodes of the scope are elements with an element above them. -/
def Scope.isUsable (tree : TreeView ν) : Scope ν → Bool
  | .subject => true
  | .fixed context => context.toList.all fun node =>
    tree.isElement node && (tree.elementParent node).isSome

def Scope.isCollection : Scope ν → Bool
  | .fixed (.nodes _) => true
  | _ => false

/-- A token and its step. -/
structure Prepared (ν σ : Type) where
  token : Token
  step : Step ν σ

namespace Prepared

def ofCombinator (kind : Combinator) : Prepared ν σ := ⟨.combinator kind, combinatorStep kind⟩

/-- What anchoring puts in front of a group, where `atScope` is the step of `:scope`. -/
def ofFront (atScope : Step ν σ) : Selector.Front → List (Prepared ν σ)
  | .nothing => []
  | .scope => [⟨Selector.scope, atScope⟩]
  | .scopeDescendant => [⟨Selector.scope, atScope⟩, ofCombinator .descendant]

def tokens (group : List (Prepared ν σ)) : Group := group.map Prepared.token

theorem tokens_ofFront (atScope : Step ν σ) (front : Selector.Front) :
    tokens (ofFront atScope front) = front.tokens := by
  cases front <;> rfl

theorem tokens_arrange (group : List (Prepared ν σ)) :
    tokens (arrange (fun item => item.token.rank) group) = arrange Token.rank (tokens group) :=
  (arrange_map Token.rank Prepared.token group).symm

def anchor (atScope : Step ν σ) (anchored : Bool) (group : List (Prepared ν σ)) :
    List (Prepared ν σ) :=
  ofFront atScope (Selector.front anchored (tokens group)) ++ group

theorem tokens_anchor (atScope : Step ν σ) (anchored : Bool) (group : List (Prepared ν σ)) :
    tokens (anchor atScope anchored group) =
      (Selector.front anchored (tokens group)).tokens ++ tokens group := by
  have front := tokens_ofFront atScope (Selector.front anchored (tokens group))
  simp only [tokens] at front ⊢
  rw [anchor, List.map_append]
  exact congrArg (· ++ List.map Prepared.token group) front

/-- Lets the descendant combinator after `:scope` lead to the scope nodes themselves. -/
def widen (group : List (Prepared ν σ)) : List (Prepared ν σ) :=
  match group with
  | first :: _ :: rest =>
    if Selector.startsBelowScope (tokens group) then first :: ofCombinator .descendantOrSelf :: rest
    else group
  | _ => group

/-- Folds a group into a predicate. -/
def fold (options : Options ν σ) (scope : Option (Scope ν)) (group : List (Prepared ν σ))
    (predicate : Predicate ν σ) : CompileM σ (Predicate ν σ) :=
  match group with
  | [] => return predicate
  | first :: rest =>
    if predicate.isAlwaysFalse then return predicate
    else do fold options scope rest (← first.step options scope predicate)

/-- Folds every group and unites the results, the first group first. -/
def foldGroups (options : Options ν σ) (scope : Option (Scope ν))
    (groups : List (List (Prepared ν σ))) (united : Predicate ν σ) :
    CompileM σ (Predicate ν σ) :=
  match groups with
  | [] => return united
  | group :: rest => do
    let predicate ← fold options scope group options.root
    foldGroups options scope rest (← united.union predicate options.root)

/-- Compiles a list of prepared groups. The context of the options, if there is one, is the scope
instead of the one given. -/
def compile (atScope : Step ν σ) (groups : List (List (Prepared ν σ))) (options : Options ν σ)
    (given : Option (Scope ν)) : CompileM σ (Query ν σ) := do
  let scope := (options.context.map Scope.fixed).or given
  let arranged := groups.map (arrange fun item => item.token.rank)
  if !options.flags.relativeSelector &&
      arranged.any fun group => Selector.startsWithCombinator (tokens group) then
    throw .relativeSelector
  let anchored := options.anchored && scope.any (·.isUsable options.tree)
  let complete := if options.flags.relativeSelector then arranged.map (anchor atScope anchored)
    else arranged
  let written := if scope.any Scope.isCollection then complete.map widen else complete
  return {
    predicate := ← foldGroups options scope written .alwaysFalse
    reachesSiblings := complete.any fun group => Selector.startsAmongSiblings (tokens group) }

end Prepared

end SelectorEngine
