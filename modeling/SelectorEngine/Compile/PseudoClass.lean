import SelectorEngine.Compile.BuiltinFilter
import SelectorEngine.Compile.Group
import SelectorEngine.Selector.Abbreviation
import SelectorEngine.Tree.Walk

/-! Pseudo-classes by name. One with a selector list is one of a fixed few; any other is looked up among
the caller's pseudo-classes and then among the built-in ones. What an alias expands to is compiled by a
step that is given here as `expand`. -/
namespace SelectorEngine

variable {ν σ : Type}

/-- Pseudo-classes with a selector list as their argument. -/
inductive Subselect where
  | anyOf
  | noneOf
  | has
deriving DecidableEq, Repr

namespace Subselect

def ofName? : String → Option Subselect
  | "is" => some anyOf
  | "where" => some anyOf
  | "matches" => some anyOf
  | "not" => some noneOf
  | "has" => some has
  | _ => none

variable (atScope : Step ν σ) (groups : List (List (Prepared ν σ)))

/-- The argument is taken as written, and `:scope` means in it what it means around it. -/
def anyOfStep : Step ν σ := fun options scope next => do
  let query ← Prepared.compile atScope groups options.embedded.unanchored scope
  query.predicate.and next

def noneOfStep : Step ν σ := fun options scope next => do
  let query ← Prepared.compile atScope groups options.embedded.unanchored scope
  (← query.predicate.negate).and next

/-- An argument without combinators is looked for below the node. One with combinators is relative:
`:scope` is the node in question, which becomes the subject of the search, and nothing is remembered
while it runs. -/
def hasStep : Step ν σ := fun options _ next => do
  let isRelative := groups.any fun group => group.any (·.token.isCombinator)
  let query ←
    if isRelative then
      Prepared.compile atScope groups options.embedded.unremembering (some .subject)
    else Prepared.compile atScope groups options.embedded none
  let searched := fun node => options.tree.elementsFrom (options.tree.children node)
  let searchedRelative := fun node => options.tree.elementsFrom (options.tree.children node ++
    if query.reachesSiblings then options.tree.nextSiblings options.same node else [])
  match query.predicate with
  | .alwaysFalse => return .alwaysFalse
  | .alwaysTrue => next.andThen (.leadsTo searched query.predicate.toPlan)
  | .dynamic _ plan =>
    if isRelative then next.andThen (.asSubject searchedRelative plan)
    else next.andThen (.leadsTo searched plan)

def step (kind : Subselect) : Step ν σ :=
  match kind with
  | anyOf => anyOfStep atScope groups
  | noneOf => noneOfStep atScope groups
  | has => hasStep atScope groups

end Subselect

/-- Refuses an argument that is not taken and the lack of one that is. -/
def verifyArgument (name : String) (taken : Bool) (argument : Option String) : CompileM σ Unit :=
  match taken, argument with
  | true, none => throw (.invalidArgument name .missing)
  | false, some _ => throw (.invalidArgument name .unexpected)
  | _, _ => return

/-- Compiles a pseudo-class without a selector list. The caller's entries come before the built-in
ones; `expand` is the step of an alias with the given selector list. -/
def pseudoClassStep (expand : SelectorList → Step ν σ) (name : String) (argument : Option String) :
    Step ν σ := fun options scope next => do
  if let some selectors := options.custom.aliases.lookup name then
    verifyArgument name false argument
    expand selectors options scope next
  else if let some filter := options.custom.filters.lookup name then
    filter next argument options.toBasis
  else if let some custom := options.custom.checks.lookup name then
    verifyArgument name custom.takesArgument argument
    next.guard (.asks (custom.check · argument))
  else if let some selectors := Selector.abbreviations.lookup name then
    verifyArgument name false argument
    expand selectors options scope next
  else if let some filter := BuiltinFilter.ofName? name then
    filter.step name argument options scope next
  else if let some structural := StructuralClass.ofName? name then
    verifyArgument name false argument
    next.guard (.holds (structural.holds options.toBasis))
  else if (Subselect.ofName? name).isSome then
    throw (.invalidArgument name .selectorListExpected)
  else
    throw (.unknownPseudoClass name)

/-- The step of `:scope`, which the caller's pseudo-classes may redefine. -/
def scopeStep (expand : SelectorList → Step ν σ) : Step ν σ := pseudoClassStep expand "scope" none

def subselectStep (expand : SelectorList → Step ν σ) (name : String)
    (groups : List (List (Prepared ν σ))) : Step ν σ :=
  match Subselect.ofName? name with
  | some kind => kind.step (scopeStep expand) groups
  | none => fun _ _ _ => throw (.unknownPseudoClass name)

end SelectorEngine
