import SelectorEngine.Compile.PseudoClass

/-! Compiling selector lists. Every token has a step, found by recursion on tokens, and aliases are
expanded to a limited depth. The limit is the number of aliases there are, which aliases that do not
stand for themselves never reach. -/
namespace SelectorEngine

variable {ν σ : Type}

def tagStep (name : String) : Step ν σ := fun options _ next =>
  let folded := if options.flags.foldsTags then Text.lower name else name
  next.guard (.holds fun node => options.tree.name node == folded)

section

variable (expand : SelectorList → Step ν σ)

mutual

def tokenStep : Token → Step ν σ
  | .tag name _ => tagStep name
  | .universal _ => fun _ _ next => return next
  | .attribute selector => attributeStep selector
  | .pseudoClass name argument => pseudoClassStep expand name argument
  | .subselect name groups => subselectStep expand name (prepareGroups groups)
  | .pseudoElement _ _ => fun _ _ _ => throw (.unsupported .pseudoElements)
  | .combinator kind => combinatorStep kind

def prepareGroups : List (List Token) → List (List (Prepared ν σ))
  | [] => []
  | group :: rest => prepareGroup group :: prepareGroups rest

def prepareGroup : List Token → List (Prepared ν σ)
  | [] => []
  | token :: rest => ⟨token, tokenStep token⟩ :: prepareGroup rest

end

theorem prepareGroup_eq_map (group : Group) :
    prepareGroup expand group = group.map fun token => ⟨token, tokenStep expand token⟩ := by
  induction group with
  | nil => rfl
  | cons token rest ih => simp [prepareGroup, ih]

theorem prepareGroups_eq_map (groups : SelectorList) :
    prepareGroups expand groups = groups.map (prepareGroup expand) := by
  induction groups with
  | nil => rfl
  | cons group rest ih => simp [prepareGroups, ih]

end

/-- The step of an alias with the given selector list: the one of `:is()` of the list. Aliases in the
list are expanded to one level less. -/
def expansion : Nat → SelectorList → Step ν σ
  | 0, _ => fun _ _ _ => throw .endlessAlias
  | depth + 1, selectors => Subselect.anyOfStep (scopeStep (expansion depth))
    (prepareGroups (expansion depth) selectors)

/-- As many levels of aliases as there are aliases. -/
def CustomClasses.aliasDepth (custom : CustomClasses ν σ) : Nat :=
  custom.aliases.length + Selector.abbreviations.length

namespace SelectorList

/-- Compiles a selector list whose predicate may be asked about nodes that are no elements. -/
def compileUnchecked (selectors : SelectorList) (options : Options ν σ)
    (context : Option (MatchContext ν)) : CompileM σ (Query ν σ) :=
  let expand := expansion options.custom.aliasDepth
  Prepared.compile (scopeStep expand) (prepareGroups expand selectors) options
    (context.map Scope.fixed)

/-- Compiles a selector list; only elements match. -/
def compile (selectors : SelectorList) (options : Options ν σ)
    (context : Option (MatchContext ν)) : CompileM σ (Query ν σ) := do
  let query ← selectors.compileUnchecked options context
  return { query with predicate := ← query.predicate.guard (.holds options.tree.isElement) }

end SelectorList
end SelectorEngine
