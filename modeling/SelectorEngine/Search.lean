import SelectorEngine.Compile.SelectorList

/-! Matching and selecting with a selector list. One node given as the search root is searched below;
a collection of nodes is searched including the nodes. Results are in document order of the roots. -/
namespace SelectorEngine

variable {ν σ : Type}

/-- The nodes a search starts from. -/
def searchRoots (options : Options ν σ) (root : MatchContext ν) (withNextSiblings : Bool) :
    List ν :=
  let tree := options.tree
  match root, withNextSiblings with
  | .node only, false => tree.children only
  | root, false => tree.removeSubsets options.same root.toList
  | root, true => tree.removeSubsets options.same
    (root.toList ++ root.toList.flatMap (tree.nextSiblings options.same))

namespace Query

/-- All elements that the query finds. -/
def selectAll (query : Query ν σ) (root : MatchContext ν) (options : Options ν σ) :
    SessionM σ (List ν) :=
  if query.predicate.isAlwaysFalse then return []
  else options.tree.findAll (searchRoots options root query.reachesSiblings) query.test

/-- The first element that the query finds. -/
def selectOne (query : Query ν σ) (root : MatchContext ν) (options : Options ν σ) :
    SessionM σ (Option ν) :=
  if query.predicate.isAlwaysFalse then return none
  else options.tree.findOne (searchRoots options root query.reachesSiblings) query.test

end Query

namespace SelectorList

/-- The node matches the selector list. -/
def isMatch (selectors : SelectorList) (node : ν) (options : Options ν σ) : CompileM σ Bool := do
  (← selectors.compile options none).test node

/-- All elements that match below the root, or at and below a collection of roots. -/
def selectAll (selectors : SelectorList) (root : MatchContext ν) (options : Options ν σ) :
    CompileM σ (List ν) := do
  (← selectors.compileUnchecked options (some root)).selectAll root options

/-- The first element that `selectAll` finds. -/
def selectOne (selectors : SelectorList) (root : MatchContext ν) (options : Options ν σ) :
    CompileM σ (Option ν) := do
  (← selectors.compileUnchecked options (some root)).selectOne root options

end SelectorList
end SelectorEngine
