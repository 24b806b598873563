import SelectorEngine.Tree.View

/-! Searching trees with a test that may have effects. Elements are tested in document order, every
element before those below it; a node that is no element is passed over with everything below it. -/
namespace SelectorEngine.TreeView

variable {ν : Type} {m : Type → Type} [Monad m]

/-- What every node in turn leads to, one after the other. -/
def collect (visit : ν → m (List ν)) : List ν → m (List ν)
  | [] => pure []
  | node :: rest => do
    let here ← visit node
    let further ← collect visit rest
    return here ++ further

def findAllWithin (tree : TreeView ν) (test : ν → m Bool) : Nat → List ν → m (List ν)
  | 0, _ => pure []
  | depth + 1, nodes => nodes |> collect fun node => do
    if tree.isElement node then
      let passes ← test node
      let below ← findAllWithin tree test depth (tree.children node)
      return if passes then node :: below else below
    else
      return []

/-- The elements at and below the given nodes that pass the test. -/
def findAll (tree : TreeView ν) (nodes : List ν) (test : ν → m Bool) : m (List ν) :=
  tree.findAllWithin test tree.bound nodes

def findOneWithin (tree : TreeView ν) (test : ν → m Bool) : Nat → List ν → m (Option ν)
  | 0, _ => pure none
  | depth + 1, nodes => nodes.findSomeM? fun node => do
    if tree.isElement node then
      if ← test node then return some node
      findOneWithin tree test depth (tree.children node)
    else
      return none

/-- The first element at or below the given nodes that passes the test; no later one is tested. -/
def findOne (tree : TreeView ν) (nodes : List ν) (test : ν → m Bool) : m (Option ν) :=
  tree.findOneWithin test tree.bound nodes

def existsOne (tree : TreeView ν) (nodes : List ν) (test : ν → m Bool) : m Bool :=
  return (← tree.findOne nodes test).isSome

/-- Nodes without those that come again or stand below another one; `before` holds the nodes that
were already passed. -/
def topmostAfter (tree : TreeView ν) (same : ν → ν → Bool) (all before : List ν) :
    List ν → List ν
  | [] => []
  | node :: rest =>
    let covered := before.any (same · node) ||
      (tree.ancestors node).any fun ancestor => all.any (same · ancestor)
    let further := topmostAfter tree same all (before ++ [node]) rest
    if covered then further else node :: further

/-- The given nodes, each at its first place, without those below another one. -/
def removeSubsets (tree : TreeView ν) (same : ν → ν → Bool) (nodes : List ν) : List ν :=
  tree.topmostAfter same nodes [] nodes

/-- The elements among the siblings after a node, in document order. -/
def nextSiblings (tree : TreeView ν) (same : ν → ν → Bool) (node : ν) : List ν :=
  (((tree.siblings node).dropWhile fun sibling => !same node sibling).drop 1).filter tree.isElement

end SelectorEngine.TreeView
