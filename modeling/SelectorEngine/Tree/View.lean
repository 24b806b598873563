/-! Read access to a tree. Compiling and matching see a tree only through a view: which nodes are
elements, how nodes are related, what they carry. Nodes are handles, and which handles name the same
node is for the view to say. -/
namespace SelectorEngine

/-- User-interaction states that a view may be able to report. -/
inductive ElementState where
  | hovered
  | visited
  | active
deriving DecidableEq, Repr

structure TreeView (ν : Type) where
  isElement : ν → Bool
  name : ν → String
  /-- The parent, of any kind. -/
  parent : ν → Option ν
  /-- Child nodes of any kind, in document order. -/
  children : ν → List ν
  /-- The children of the node's parent in document order, the node itself among them. -/
  siblings : ν → List ν
  attributeValue : ν → String → Option String
  hasAttribute : ν → String → Bool := fun node name => (attributeValue node name).isSome
  /-- The text of the node and everything below it. -/
  text : ν → String
  /-- Both handles name one node. -/
  same : ν → ν → Bool
  /-- A number that identifies the node; without one, nothing is remembered about the node. -/
  key : ν → Option Nat := fun _ => none
  /-- The states the view can report. -/
  supports : ElementState → Bool := fun _ => false
  isIn : ν → ElementState → Bool := fun _ _ => false
  /-- No chain of parents or of children is longer than this. -/
  bound : Nat

namespace TreeView

variable {ν : Type}

/-- The parent, if it is an element. -/
def elementParent (tree : TreeView ν) (node : ν) : Option ν :=
  (tree.parent node).filter tree.isElement

def climb (tree : TreeView ν) : Nat → ν → List ν
  | 0, _ => []
  | bound + 1, node =>
    match tree.parent node with
    | none => []
    | some parent => parent :: climb tree bound parent

/-- The nodes above a node, nearest first. -/
def ancestors (tree : TreeView ν) (node : ν) : List ν := tree.climb tree.bound node

/-- The elements above a node up to the first node that is none, nearest first. -/
def elementAncestors (tree : TreeView ν) (node : ν) : List ν :=
  (tree.ancestors node).takeWhile tree.isElement

/-- The elements reached from the given nodes, and `rest` after them. -/
def elementsOnto (tree : TreeView ν) : Nat → List ν → List ν → List ν
  | 0, _, rest => rest
  | depth + 1, nodes, rest => nodes.foldr (fun node further =>
    if tree.isElement node then node :: elementsOnto tree depth (tree.children node) further
    else further) rest

/-- The elements that can be reached from the given nodes through elements only, every start node
followed by what is below it. -/
def elementsFrom (tree : TreeView ν) (nodes : List ν) : List ν :=
  tree.elementsOnto tree.bound nodes []

theorem elementsOnto_eq_append (tree : TreeView ν) (depth : Nat) (nodes rest : List ν) :
    tree.elementsOnto depth nodes rest = tree.elementsOnto depth nodes [] ++ rest := by
  induction depth generalizing nodes rest with
  | zero => rfl
  | succ depth ih =>
    induction nodes with
    | nil => rfl
    | cons node nodes further =>
      simp only [elementsOnto, List.foldr_cons] at further ⊢
      split
      · rw [ih, further, ih (tree.children node) (List.foldr _ [] nodes)]
        simp
      · exact further

/-- The siblings before a node, in document order. -/
def siblingsBefore (tree : TreeView ν) (same : ν → ν → Bool) (node : ν) : List ν :=
  (tree.siblings node).takeWhile fun sibling => !same node sibling

/-- The siblings after a node, nearest to the end first. -/
def siblingsAfter (tree : TreeView ν) (same : ν → ν → Bool) (node : ν) : List ν :=
  (tree.siblings node).reverse.takeWhile fun sibling => !same node sibling

end TreeView
end SelectorEngine
