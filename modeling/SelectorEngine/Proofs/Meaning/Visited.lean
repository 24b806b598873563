import SelectorEngine.Proofs.Meaning.Context
import SelectorEngine.Proofs.Meaning.Region
import SelectorEngine.Proofs.Selector.Foresight

/-! The reading in which `:has()` looks at what its search visits. The search goes through elements only, and
it leaves the siblings out where its argument is known beforehand to match everything. -/
namespace SelectorEngine

variable {ν : Type}

namespace TreeView

variable {tree : TreeView ν}

/-- The search from the node comes to the element found: through elements, from a child of the node or, with
siblings, from an element after it. -/
def Visits (tree : TreeView ν) (siblings : Prop) (node found : ν) : Prop :=
  ∃ start, tree.isElement start = true ∧
    (start ∈ tree.children node ∨ siblings ∧ Combinator.sibling.Relates tree start node) ∧
      Relation.ReflTransGen tree.ElementChild start found

theorem Visits.isElement {siblings : Prop} {node found : ν} (visits : tree.Visits siblings node found) :
    tree.isElement found = true := by
  obtain ⟨start, element, _, way⟩ := visits
  exact isElement_of_way element way

theorem Visits.below (forest : tree.IsForest) {siblings : Prop} (stays : ¬ siblings) {node found : ν}
    (visits : tree.Visits siblings node found) : tree.Below node found := by
  obtain ⟨start, _, isChild | beside, way⟩ := visits
  · have climbs := (forest.mem_children _ _).mp isChild
    rcases forest.below_of_way way with rfl | further
    · exact .single climbs
    · exact .head climbs further
  · exact absurd beside.1 stays

theorem Visits.elementParent (forest : tree.IsForest) {siblings : Prop} (stays : ¬ siblings) {node found : ν}
    (element : tree.isElement node = true) (visits : tree.Visits siblings node found) :
    tree.elementParent found ≠ none := by
  have above {parent child : ν} (isParent : tree.isElement parent = true)
      (isChild : child ∈ tree.children parent) : tree.elementParent child ≠ none := by
    rw [TreeView.elementParent, (forest.mem_children _ _).mp isChild, Option.filter_some, if_pos isParent]
    exact Option.some_ne_none parent
  obtain ⟨start, startElement, isChild | beside, way⟩ := visits
  · rcases Relation.ReflTransGen.cases_tail way with rfl | ⟨parent, further, step⟩
    · exact above element isChild
    · exact above (isElement_of_way startElement further) step.1
  · exact absurd beside.1 stays

end TreeView

namespace Basis

/-- The argument of `:has()` is known beforehand to match everything. -/
def KnowsArgument (basis : Basis ν) (groups : SelectorList) : Prop :=
  Finding.choice (Token.surveyGroups basis.outlook (Selector.isRelative groups) groups) = ⟨.always, false⟩

def visitedWith (basis : Basis ν)
    (expand : SelectorList → Option (MatchContext ν) → ν → Prop) : Reading ν :=
  { basis.documentedWith expand with
    searched := fun groups => basis.tree.Visits
      (Selector.reachesSiblings groups = true ∧ ¬ basis.KnowsArgument groups) }

/-- The documented reading but for where `:has()` looks. -/
def visited (basis : Basis ν) : Nat → Reading ν
  | 0 => basis.visitedWith fun _ _ _ => False
  | depth + 1 => basis.visitedWith fun selectors context =>
    (basis.visited depth).someHolds context false selectors

variable (basis : Basis ν) (depth : Nat)

theorem visited_deepens : Reading.Deepens basis.visited where
  never := rfl
  deeper _ := rfl

theorem visited_basis : (basis.visited depth).basis = basis := by
  cases depth <;> rfl

theorem visited_leads (kind : Combinator) (node other : ν) :
    (basis.visited depth).leads kind node other ↔
      basis.tree.isElement other = true ∧ kind.Relates basis.tree node other := by
  cases depth <;> exact Iff.rfl

theorem visited_relative : (basis.visited depth).relative = Selector.isRelative := by
  cases depth <;> rfl

theorem visited_searched (groups : SelectorList) : (basis.visited depth).searched groups =
    basis.tree.Visits (Selector.reachesSiblings groups = true ∧ ¬ basis.KnowsArgument groups) := by
  cases depth <;> rfl

end Basis
end SelectorEngine
