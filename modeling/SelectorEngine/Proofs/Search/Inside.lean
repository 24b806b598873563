import SelectorEngine.Proofs.Search.Roots

/-! What is inside of a document: the elements that are reached from its children through elements. Where
the document itself is inside of nothing, elements above and beside elements inside are inside, too. -/
namespace SelectorEngine

namespace TreeView

variable {ν : Type} {tree : TreeView ν}

def IsInside (tree : TreeView ν) (document node : ν) : Prop :=
  node ∈ tree.elementsFrom (tree.children document)

/-- No element, and inside of nothing. -/
structure IsTop (tree : TreeView ν) (document : ν) : Prop where
  noElement : tree.isElement document = false
  noParent : tree.parent document = none

variable (forest : tree.IsForest) {document : ν}
include forest

theorem isInside_iff (node : ν) : tree.IsInside document node ↔ tree.isElement node = true ∧
    ∃ parent, tree.parent node = some parent ∧ (parent = document ∨ tree.IsInside document parent) := by
  unfold IsInside
  constructor
  · intro inside
    refine ⟨isElement_of_mem_elementsFrom inside, ?_⟩
    obtain ⟨start, isChild, element, way⟩ := (forest.mem_elementsFrom _ _).mp inside
    rcases Relation.ReflTransGen.cases_tail way with rfl | ⟨parent, further, step⟩
    · exact ⟨document, (forest.mem_children _ _).mp isChild, .inl rfl⟩
    · refine ⟨parent, (forest.mem_children _ _).mp step.1, .inr ?_⟩
      exact (forest.mem_elementsFrom _ _).mpr ⟨start, isChild, element, further⟩
  · intro known
    obtain ⟨element, parent, climbs, rfl | further⟩ := known
    · exact (forest.mem_elementsFrom _ _).mpr ⟨node, (forest.mem_children _ _).mpr climbs, element, .refl⟩
    · obtain ⟨start, isChild, startElement, way⟩ := (forest.mem_elementsFrom _ _).mp further
      refine (forest.mem_elementsFrom _ _).mpr ⟨start, isChild, startElement, way.tail ?_⟩
      exact ⟨(forest.mem_children _ _).mpr climbs, element⟩

theorem isInside_of_parent_eq {node other : ν} (inside : tree.IsInside document node)
    (parents : tree.parent other = tree.parent node) (element : tree.isElement other = true) :
    tree.IsInside document other := by
  rw [isInside_iff forest] at inside ⊢
  rw [parents]
  exact ⟨element, inside.2⟩

theorem isInside_of_way {node found : ν} (inside : tree.IsInside document node)
    (way : Relation.ReflTransGen tree.ElementChild node found) : tree.IsInside document found := by
  induction way with
  | refl => exact inside
  | tail _ step ih =>
    rw [isInside_iff forest]
    exact ⟨step.2, _, (forest.mem_children _ _).mp step.1, .inr ih⟩

variable (top : tree.IsTop document)
include top

/-- From an element above, the way to an element inside goes through elements only. -/
theorem way_of_isInside {node above : ν} (inside : tree.IsInside document node)
    (element : tree.isElement above = true) (isBelow : tree.Below above node) :
    tree.IsInside document above ∧ Relation.ReflTransGen tree.ElementChild above node := by
  have step {node parent : ν} (inside : tree.IsInside document node)
      (climbs : tree.parent node = some parent) :
      (parent = document ∨ tree.IsInside document parent) ∧ tree.ElementChild parent node := by
    obtain ⟨nodeElement, other, climbs', either⟩ := (isInside_iff forest node).mp inside
    cases climbs.symm.trans climbs'
    exact ⟨either, (forest.mem_children _ _).mpr climbs, nodeElement⟩
  induction isBelow with
  | single climbs =>
    obtain ⟨rfl | further, child⟩ := step inside climbs
    · cases element.symm.trans top.noElement
    · exact ⟨further, .single child⟩
  | @tail between node isBelow climbs ih =>
    obtain ⟨rfl | further, child⟩ := step inside climbs
    · exact absurd isBelow (not_below_root top.noParent)
    · obtain ⟨aboveInside, way⟩ := ih further
      exact ⟨aboveInside, way.tail child⟩

theorem isInside_of_relates {kind : Combinator} (away : kind ≠ .parent) {node next : ν}
    (inside : tree.IsInside document node) (element : tree.isElement next = true)
    (relates : kind.Relates tree node next) : tree.IsInside document next := by
  have beside (moves : Combinator.sibling.Relates tree node next) : tree.IsInside document next :=
    isInside_of_parent_eq forest inside (forest.parent_eq_of_sibling moves) element
  cases kind with
  | descendant => exact (way_of_isInside forest top inside element relates).1
  | descendantOrSelf =>
    rcases relates with rfl | isBelow
    · exact inside
    · exact (way_of_isInside forest top inside element isBelow).1
  | child => exact (way_of_isInside forest top inside element (.single relates)).1
  | parent => exact absurd rfl away
  | sibling => exact beside relates
  | adjacent =>
    obtain ⟨before, between, after, split, _⟩ := relates
    exact beside ⟨before, between, after, split⟩
  | column => exact relates.elim

variable {same : ν → ν → Bool} (identity : ∀ first second, same first second = true ↔ first = second)
include identity

/-- Below roots inside the same elements are found, whether nested roots are left out or not. -/
theorem mem_elementsFrom_roots {nodes : List ν} (inside : ∀ node ∈ nodes, tree.IsInside document node)
    {found : ν} : found ∈ tree.elementsFrom (tree.removeSubsets same nodes) ↔
      tree.IsInside document found ∧ ∃ node ∈ nodes, tree.AtOrBelow node found := by
  rw [forest.mem_elementsFrom]
  constructor
  · intro known
    obtain ⟨root, isRoot, _, way⟩ := known
    have listed := (removeSubsets_sublist tree same nodes).subset isRoot
    exact ⟨isInside_of_way forest (inside root listed) way, root, listed, forest.below_of_way way⟩
  · intro known
    obtain ⟨foundInside, node, listed, inNode⟩ := known
    obtain ⟨root, isRoot, inRoot⟩ := exists_root identity forest nodes listed
    have element := isElement_of_mem_elementsFrom
      (inside root ((removeSubsets_sublist tree same nodes).subset isRoot))
    refine ⟨root, isRoot, element, ?_⟩
    have below : tree.AtOrBelow root found := by
      rcases inNode with rfl | further
      · exact inRoot
      · rcases inRoot with rfl | isBelow
        · exact .inr further
        · exact .inr (isBelow.trans further)
    rcases below with rfl | isBelow
    · exact .refl
    · exact (way_of_isInside forest top foundInside element isBelow).2

end TreeView

section Collection

variable {ν σ : Type} {options : Options ν σ} (forest : options.tree.IsForest)
  (identity : ∀ first second, options.same first second = true ↔ first = second)
  {document : ν} (top : options.tree.IsTop document)
include forest identity top

/-- From elements inside, with the elements after them or without, a selection goes through what is
inside and at or below them. -/
theorem mem_searchRoots_iff {nodes : List ν}
    (inside : ∀ node ∈ nodes, options.tree.IsInside document node) (siblings : Bool) (found : ν) :
    found ∈ options.tree.elementsFrom (searchRoots options (.nodes nodes) siblings) ↔
      options.tree.IsInside document found ∧ ∃ node ∈ nodes,
        found = node ∨ options.tree.InArea siblings node found := by
  have roots : searchRoots options (.nodes nodes) siblings = options.tree.removeSubsets options.same
      (nodes ++ if siblings then nodes.flatMap (options.tree.nextSiblings options.same) else []) := by
    cases siblings with
    | false => simp [searchRoots, MatchContext.toList]
    | true => rfl
  have isNext (start : ν) : (start ∈ if siblings then
      nodes.flatMap (options.tree.nextSiblings options.same) else []) ↔ siblings = true ∧
        ∃ node ∈ nodes, options.tree.isElement start = true ∧
          Combinator.sibling.Relates options.tree start node := by
    cases siblings with
    | false => simp
    | true =>
      rw [if_pos rfl, List.mem_flatMap]
      simp only [TreeView.mem_nextSiblings forest identity, true_and]
  have all (start : ν) (listed : start ∈ nodes ++ if siblings then
      nodes.flatMap (options.tree.nextSiblings options.same) else []) :
      options.tree.IsInside document start := by
    rcases List.mem_append.mp listed with given | later
    · exact inside start given
    · obtain ⟨_, node, isNode, element, relates⟩ := (isNext start).mp later
      exact TreeView.isInside_of_parent_eq forest (inside node isNode)
        (forest.parent_eq_of_sibling relates).symm element
  rw [roots, TreeView.mem_elementsFrom_roots forest top identity all]
  apply and_congr_right
  intro _
  constructor
  · intro known
    obtain ⟨start, listed, inStart⟩ := known
    rcases List.mem_append.mp listed with given | later
    · exact ⟨start, given, inStart.imp_right .inl⟩
    · obtain ⟨reached, node, isNode, element, relates⟩ := (isNext start).mp later
      exact ⟨node, isNode, .inr (.inr ⟨reached, start, element, relates, inStart⟩)⟩
  · intro known
    obtain ⟨node, isNode, rfl | isBelow | ⟨reached, start, element, relates, inStart⟩⟩ := known
    · exact ⟨found, List.mem_append_left _ isNode, .inl rfl⟩
    · exact ⟨node, List.mem_append_left _ isNode, .inr isBelow⟩
    · have later := (isNext start).mpr ⟨reached, node, isNode, element, relates⟩
      exact ⟨start, List.mem_append_right _ later, inStart⟩

end Collection
end SelectorEngine
