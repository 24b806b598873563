import SelectorEngine.Compile.Options
import SelectorEngine.Formula

/-! Where an element stands among its siblings: the positional pseudo-classes with a formula, and the
ones without an argument. Text and comments never count. -/
namespace SelectorEngine

variable {ν σ : Type}

/-- Which siblings count, and from which end. -/
structure Counting where
  fromEnd : Bool
  sameName : Bool

/-- How many siblings that count stand before the node, seen from the chosen end. -/
def Counting.position (counting : Counting) (basis : Basis ν) (node : ν) : Nat :=
  let earlier := if counting.fromEnd then basis.tree.siblingsAfter basis.same node
    else basis.tree.siblingsBefore basis.same node
  earlier.countP fun sibling => basis.tree.isElement sibling &&
    (!counting.sameName || basis.tree.name sibling == basis.tree.name node)

/-- Compiles a positional test. Where the position does not matter the element only has to have an
element above it. -/
def Counting.step (counting : Counting) (name formula : String) : Step ν σ := fun options _ next =>
  match (Formula.read? formula).map Formula.positions with
  | none => throw (.invalidArgument name (.invalidFormula formula))
  | some .none => return .alwaysFalse
  | some .all =>
    next.guard (.holds fun node => (options.tree.elementParent node).isSome)
  | some positions =>
    next.guard (.holds fun node => positions.contains (counting.position options.toBasis node))

/-- Pseudo-classes without an argument that look at children or siblings. -/
inductive StructuralClass where
  | empty
  | firstChild
  | lastChild
  | firstOfType
  | lastOfType
  | onlyOfType
  | onlyChild
deriving DecidableEq, Repr

namespace StructuralClass

def ofName? : String → Option StructuralClass
  | "empty" => some empty
  | "first-child" => some firstChild
  | "last-child" => some lastChild
  | "first-of-type" => some firstOfType
  | "last-of-type" => some lastOfType
  | "only-of-type" => some onlyOfType
  | "only-child" => some onlyChild
  | _ => none

def holds (kind : StructuralClass) (basis : Basis ν) (node : ν) : Bool :=
  let tree := basis.tree
  let siblings := tree.siblings node
  let isAlike := fun sibling => tree.isElement sibling && tree.name sibling == tree.name node
  match kind with
  | empty => (tree.children node).all fun child => !tree.isElement child && (tree.text child).isEmpty
  | firstChild => (siblings.find? tree.isElement).any (basis.same node)
  | lastChild => (siblings.reverse.find? tree.isElement).any (basis.same node)
  | firstOfType => (siblings.find? isAlike).any (basis.same node)
  | lastOfType => (siblings.reverse.find? isAlike).any (basis.same node)
  | onlyOfType => siblings.all fun sibling => basis.same node sibling || !isAlike sibling
  | onlyChild => siblings.all fun sibling => basis.same node sibling || !tree.isElement sibling

end StructuralClass
end SelectorEngine
