import Mathlib.Data.Finset.Card
import Mathlib.Data.List.Nodup
import Mathlib.Logic.Relation
import SelectorEngine.Tree.Walk

/-! Views of forests. What a view says about parents, children and siblings agrees, and chains of parents
are no longer than the bound of the view; then the walks up, sideways and down, which are bounded, miss
nothing. A relation in which no item leads back to itself, such as that of parents, has heights that fall with
every step. -/
namespace SelectorEngine

section Height

variable {α : Type} {leads : α → α → Prop}

open Classical in
/-- The height of an item: how many items it leads to in one step or more. -/
theorem exists_height (irrefl : ∀ item, ¬ Relation.TransGen leads item item) (items : Finset α)
    (listed : ∀ item other, leads item other → other ∈ items) : ∃ height : α → Nat,
      (∀ item other, leads item other → height other < height item) ∧
        ∀ item ∈ items, height item < items.card := by
  let below (item : α) := items.filter fun other => Relation.TransGen leads item other
  have mem_below (item other : α) :
      other ∈ below item ↔ other ∈ items ∧ Relation.TransGen leads item other := Finset.mem_filter
  refine ⟨fun item => (below item).card, fun item other step => ?_, fun item inside => ?_⟩
  · refine Finset.card_lt_card ((Finset.ssubset_iff_of_subset fun further isBelow => ?_).mpr
      ⟨other, (mem_below item other).mpr ⟨listed item other step, .single step⟩, fun isBelow =>
        irrefl other ((mem_below other other).mp isBelow).2⟩)
    obtain ⟨isListed, way⟩ := (mem_below other further).mp isBelow
    exact (mem_below item further).mpr ⟨isListed, .head step way⟩
  · exact Finset.card_lt_card ((Finset.ssubset_iff_of_subset (Finset.filter_subset _ _)).mpr
      ⟨item, inside, fun isBelow => irrefl item ((mem_below item item).mp isBelow).2⟩)

theorem not_transGen_self {height : α → Nat}
    (falls : ∀ item other, leads item other → height other < height item) (item : α) :
    ¬ Relation.TransGen leads item item := by
  intro cycle
  have lower {other : α} (way : Relation.TransGen leads item other) : height other < height item := by
    induction way with
    | single step => exact falls _ _ step
    | tail _ step ih => exact (falls _ _ step).trans ih
  exact Nat.lt_irrefl _ (lower cycle)

end Height

namespace TreeView

variable {ν : Type} {tree : TreeView ν}

def Below (tree : TreeView ν) (above below : ν) : Prop :=
  Relation.TransGen (fun parent child => tree.parent child = some parent) above below

/-- Parents, children and siblings agree, and depths stay below the bound. -/
structure IsForest (tree : TreeView ν) : Prop where
  mem_children : ∀ node child, child ∈ tree.children node ↔ tree.parent child = some node
  nodup : ∀ node, (tree.children node).Nodup
  siblings_eq : ∀ node, tree.siblings node =
    match tree.parent node with
    | some parent => tree.children parent
    | none => [node]
  exists_depth : ∃ depth : ν → Nat,
    (∀ node parent, tree.parent node = some parent → depth parent < depth node) ∧
      ∀ node, depth node < tree.bound

/-- A node between two others, with a parent and a child, is an element. -/
def HasSolidInside (tree : TreeView ν) : Prop :=
  ∀ node parent child, tree.parent node = some parent → tree.parent child = some node →
    tree.isElement node = true

/-- Whatever stands between the two nodes is an element. -/
def IsOpen (tree : TreeView ν) (above below : ν) : Prop :=
  ∀ between, tree.Below above between → tree.Below between below → tree.isElement between = true

/-- What remembering relies on: no two nodes have one key, and text found in a node is found in the
elements above it. -/
structure Remembers (tree : TreeView ν) : Prop where
  keyed : ∀ first second number, tree.key first = some number → tree.key second = some number →
    first = second
  textInherited : ∀ node, ∀ above ∈ tree.elementAncestors node,
    (tree.text node).toList <:+: (tree.text above).toList

theorem below_step {above parent below : ν} (climbs : tree.parent below = some parent) :
    tree.Below above below ↔ above = parent ∨ tree.Below above parent := by
  constructor
  · intro isBelow
    cases isBelow with
    | single isChild => exact .inl (Option.some.inj (isChild.symm.trans climbs))
    | tail further isChild => exact .inr (Option.some.inj (isChild.symm.trans climbs) ▸ further)
  · intro either
    rcases either with rfl | further
    · exact .single climbs
    · exact further.tail climbs

theorem exists_child_of_below {above node : ν} (isBelow : tree.Below above node) :
    ∃ child, tree.parent child = some above := by
  cases Relation.TransGen.head'_iff.mp isBelow with
  | intro child step => exact ⟨child, step.1⟩

theorem exists_parent_of_below {above node : ν} (isBelow : tree.Below above node) :
    ∃ parent, tree.parent node = some parent := by
  cases isBelow with
  | single climbs => exact ⟨_, climbs⟩
  | tail _ climbs => exact ⟨_, climbs⟩

theorem HasSolidInside.isOpen (solid : tree.HasSolidInside) (above below : ν) : tree.IsOpen above below := by
  intro between isBelow isAbove
  obtain ⟨parent, climbs⟩ := exists_parent_of_below isBelow
  obtain ⟨child, isChild⟩ := exists_child_of_below isAbove
  exact solid between parent child climbs isChild

theorem not_below_root {above below : ν} (root : tree.parent below = none) :
    ¬ tree.Below above below := by
  intro isBelow
  cases isBelow with
  | single isChild => cases root.symm.trans isChild
  | tail _ isChild => cases root.symm.trans isChild

theorem below_congr {first second : ν} (parents : tree.parent first = tree.parent second) (above : ν) :
    tree.Below above first ↔ tree.Below above second := by
  cases climbs : tree.parent first with
  | none =>
    rw [climbs] at parents
    exact iff_of_false (not_below_root climbs) (not_below_root parents.symm)
  | some parent =>
    rw [climbs] at parents
    rw [below_step climbs, below_step parents.symm]

private theorem below_of_mem_climb {bound : Nat} {node above : ν}
    (member : above ∈ tree.climb bound node) : tree.Below above node := by
  induction bound generalizing node with
  | zero => exact absurd member List.not_mem_nil
  | succ bound ih =>
    rw [climb] at member
    split at member
    · exact absurd member List.not_mem_nil
    · next parent climbs =>
      rcases List.mem_cons.mp member with rfl | further
      · exact .single climbs
      · exact (ih further).tail climbs

theorem depth_lt_of_below {depth : ν → Nat}
    (grows : ∀ node parent, tree.parent node = some parent → depth parent < depth node)
    {above below : ν} (isBelow : tree.Below above below) : depth above < depth below := by
  induction isBelow with
  | single climbs => exact grows _ _ climbs
  | tail _ climbs ih => exact Nat.lt_trans ih (grows _ _ climbs)

/-- Where chains of parents are no longer than the bound, walking up misses nothing. -/
theorem mem_ancestors_of_bounded {depth : ν → Nat}
    (grows : ∀ node parent, tree.parent node = some parent → depth parent < depth node)
    (bounded : ∀ node, depth node < tree.bound) (node above : ν) :
    above ∈ tree.ancestors node ↔ tree.Below above node := by
  have reaches (bound : Nat) (node : ν) (enough : depth node ≤ bound)
      (isBelow : tree.Below above node) : above ∈ tree.climb bound node := by
    induction bound generalizing node with
    | zero => exact absurd (depth_lt_of_below grows isBelow) (by omega)
    | succ bound ih =>
      rw [climb]
      cases climbs : tree.parent node with
      | none => exact absurd isBelow (not_below_root climbs)
      | some parent =>
        rcases (below_step climbs).mp isBelow with rfl | further
        · exact List.mem_cons_self
        · have fewer := grows node parent climbs
          exact List.mem_cons_of_mem _ (ih parent (by omega) further)
  exact ⟨below_of_mem_climb, reaches tree.bound node (Nat.le_of_lt (bounded node))⟩

/-- Where chains of parents are no longer than the bound, what is above a node is its parent and what is
above that. -/
theorem ancestors_of_bounded {depth : ν → Nat}
    (grows : ∀ node parent, tree.parent node = some parent → depth parent < depth node)
    (bounded : ∀ node, depth node < tree.bound) {node parent : ν} (climbs : tree.parent node = some parent) :
    tree.ancestors node = parent :: tree.ancestors parent := by
  have same (enough more : Nat) (node : ν) (within : depth node ≤ enough) (within' : depth node ≤ more) :
      tree.climb enough node = tree.climb more node := by
    induction enough generalizing more node with
    | zero =>
      have root : tree.parent node = none := by
        refine Option.eq_none_iff_forall_not_mem.mpr fun parent climbs => ?_
        have fewer := grows node parent climbs
        omega
      cases more with
      | zero => rfl
      | succ more => rw [climb, climb, root]
    | succ enough ih =>
      cases climbs : tree.parent node with
      | none => cases more <;> simp [climb, climbs]
      | some parent =>
        have fewer := grows node parent climbs
        obtain ⟨more, rfl⟩ := Nat.exists_eq_succ_of_ne_zero (show more ≠ 0 by omega)
        rw [climb, climb, climbs]
        exact congrArg (parent :: ·) (ih more parent (by omega) (by omega))
  have fewer := grows node parent climbs
  have below := bounded node
  obtain ⟨bound, isBound⟩ := Nat.exists_eq_succ_of_ne_zero (show tree.bound ≠ 0 by omega)
  rw [ancestors, ancestors, isBound, climb, climbs]
  exact congrArg (parent :: ·) (same bound (bound + 1) parent (by omega) (by omega))

namespace IsForest

variable (forest : tree.IsForest)
include forest

theorem not_below_self (node : ν) : ¬ tree.Below node node := by
  obtain ⟨depth, grows, _⟩ := forest.exists_depth
  intro isBelow
  exact Nat.lt_irrefl _ (depth_lt_of_below grows isBelow)

theorem mem_ancestors (node above : ν) : above ∈ tree.ancestors node ↔ tree.Below above node := by
  obtain ⟨depth, grows, bounded⟩ := forest.exists_depth
  exact mem_ancestors_of_bounded grows bounded node above

theorem mem_siblings (node : ν) : node ∈ tree.siblings node := by
  rw [forest.siblings_eq]
  cases climbs : tree.parent node with
  | none => exact List.mem_singleton.mpr rfl
  | some parent => exact (forest.mem_children parent node).mpr climbs

theorem siblings_nodup (node : ν) : (tree.siblings node).Nodup := by
  rw [forest.siblings_eq]
  cases tree.parent node with
  | none => exact List.nodup_singleton node
  | some parent => exact forest.nodup parent

theorem siblings_split (node : ν) : ∃ before after,
    tree.siblings node = before ++ node :: after ∧ node ∉ before ∧ node ∉ after := by
  obtain ⟨before, after, split⟩ := List.append_of_mem (forest.mem_siblings node)
  have nodup := forest.siblings_nodup node
  rw [split] at nodup
  have apart : (node :: (before ++ after)).Nodup := List.perm_middle.nodup_iff.mp nodup
  have fresh := (List.nodup_cons.mp apart).1
  rw [List.mem_append, not_or] at fresh
  exact ⟨before, after, split, fresh⟩

theorem parent_eq_of_mem_siblings {node sibling : ν} (member : sibling ∈ tree.siblings node) :
    tree.parent sibling = tree.parent node := by
  rw [forest.siblings_eq] at member
  cases climbs : tree.parent node with
  | none =>
    rw [climbs] at member
    rw [List.mem_singleton.mp member, climbs]
  | some parent =>
    rw [climbs] at member
    exact (forest.mem_children parent sibling).mp member

theorem siblings_eq_of_mem {node sibling : ν} (member : sibling ∈ tree.siblings node) :
    tree.siblings sibling = tree.siblings node := by
  have parents := forest.parent_eq_of_mem_siblings member
  rw [forest.siblings_eq, forest.siblings_eq node, parents]
  cases climbs : tree.parent node with
  | none =>
    rw [forest.siblings_eq, climbs] at member
    rw [List.mem_singleton.mp member]
  | some parent => rfl

end IsForest

section Siblings

variable {same : ν → ν → Bool} (identity : ∀ first second, same first second = true ↔ first = second)
  {node : ν} {before after : List ν} (fresh : node ∉ before)
  (split : tree.siblings node = before ++ node :: after)
include identity fresh

private theorem differs_of_mem (sibling : ν) (member : sibling ∈ before) :
    (!same node sibling) = true := by
  rw [Bool.not_eq_true', ← Bool.not_eq_true, identity]
  intro same
  subst same
  exact fresh member

include split

theorem siblingsBefore_eq : tree.siblingsBefore same node = before := by
  have stops : (!same node node) = false := by simp [(identity node node).mpr rfl]
  rw [siblingsBefore, split, List.takeWhile_append_of_pos (differs_of_mem identity fresh),
    List.takeWhile_cons_of_neg (by rw [stops]; exact Bool.false_ne_true), List.append_nil]

theorem nextSiblings_eq : tree.nextSiblings same node = after.filter tree.isElement := by
  have stops : (!same node node) = false := by simp [(identity node node).mpr rfl]
  rw [nextSiblings, split, List.dropWhile_append_of_pos (differs_of_mem identity fresh),
    List.dropWhile_cons_of_neg (by rw [stops]; exact Bool.false_ne_true), List.drop_one, List.tail_cons]

end Siblings

def ElementChild (tree : TreeView ν) (parent child : ν) : Prop :=
  child ∈ tree.children parent ∧ tree.isElement child = true

theorem elementsOnto_succ (depth : Nat) (nodes : List ν) :
    tree.elementsOnto (depth + 1) nodes [] = (nodes.filter tree.isElement).flatMap fun node =>
      node :: tree.elementsOnto depth (tree.children node) [] := by
  rw [elementsOnto]
  induction nodes with
  | nil => rfl
  | cons node rest ih =>
    rw [List.foldr_cons, ih]
    split
    · next element =>
      rw [List.filter_cons_of_pos element, List.flatMap_cons, elementsOnto_eq_append, List.cons_append]
    · next other => rw [List.filter_cons_of_neg other]

theorem elementsOnto_succ_eq_flatMap (depth : Nat) (nodes : List ν) :
    tree.elementsOnto (depth + 1) nodes [] = nodes.flatMap fun node =>
      if tree.isElement node then node :: tree.elementsOnto depth (tree.children node) [] else [] := by
  rw [elementsOnto_succ]
  induction nodes with
  | nil => rfl
  | cons node rest ih =>
    rw [List.filter_cons, List.flatMap_cons, ← ih]
    split <;> simp

theorem elementsFrom_append (nodes further : List ν) :
    tree.elementsFrom (nodes ++ further) = tree.elementsFrom nodes ++ tree.elementsFrom further := by
  unfold elementsFrom
  cases tree.bound with
  | zero => rfl
  | succ bound => rw [elementsOnto_succ, elementsOnto_succ, elementsOnto_succ, List.filter_append,
      List.flatMap_append]

theorem way_of_mem_elementsOnto {fuel : Nat} {nodes : List ν} {found : ν}
    (member : found ∈ tree.elementsOnto fuel nodes []) :
    ∃ start ∈ nodes, tree.isElement start = true ∧
      Relation.ReflTransGen tree.ElementChild start found := by
  induction fuel generalizing nodes with
  | zero => exact absurd member List.not_mem_nil
  | succ fuel ih =>
    rw [elementsOnto_succ, List.mem_flatMap] at member
    obtain ⟨start, listed, inside⟩ := member
    obtain ⟨isStart, element⟩ := List.mem_filter.mp listed
    refine ⟨start, isStart, element, ?_⟩
    rcases List.mem_cons.mp inside with rfl | below
    · exact .refl
    · obtain ⟨child, isChild, childElement, way⟩ := ih below
      exact .head ⟨isChild, childElement⟩ way

theorem isElement_of_way {start found : ν} (element : tree.isElement start = true)
    (way : Relation.ReflTransGen tree.ElementChild start found) : tree.isElement found = true := by
  cases way with
  | refl => exact element
  | tail _ step => exact step.2

theorem isElement_of_mem_elementsFrom {nodes : List ν} {found : ν}
    (member : found ∈ tree.elementsFrom nodes) : tree.isElement found = true := by
  obtain ⟨start, _, element, way⟩ := way_of_mem_elementsOnto member
  exact isElement_of_way element way

namespace IsForest

variable (forest : tree.IsForest)
include forest

theorem mem_elementsFrom (nodes : List ν) (found : ν) :
    found ∈ tree.elementsFrom nodes ↔ ∃ start ∈ nodes, tree.isElement start = true ∧
      Relation.ReflTransGen tree.ElementChild start found := by
  obtain ⟨depth, grows, bounded⟩ := forest.exists_depth
  have reaches (fuel : Nat) (nodes : List ν) (start : ν) (isStart : start ∈ nodes)
      (element : tree.isElement start = true) (enough : tree.bound ≤ fuel + depth start)
      (way : Relation.ReflTransGen tree.ElementChild start found) :
      found ∈ tree.elementsOnto fuel nodes [] := by
    induction fuel generalizing nodes start with
    | zero => exact absurd (bounded start) (by omega)
    | succ fuel ih =>
      rw [elementsOnto_succ, List.mem_flatMap]
      refine ⟨start, List.mem_filter.mpr ⟨isStart, element⟩, ?_⟩
      rcases Relation.ReflTransGen.cases_head way with rfl | ⟨child, ⟨isChild, childElement⟩, further⟩
      · exact List.mem_cons_self
      · have deeper := grows child start ((forest.mem_children start child).mp isChild)
        exact List.mem_cons_of_mem _ (ih _ child isChild childElement (by omega) further)
  constructor
  · exact way_of_mem_elementsOnto
  · intro known
    obtain ⟨start, isStart, element, way⟩ := known
    exact reaches tree.bound nodes start isStart element (by omega) way

theorem below_of_way {start found : ν} (way : Relation.ReflTransGen tree.ElementChild start found) :
    found = start ∨ tree.Below start found := by
  induction way with
  | refl => exact .inl rfl
  | tail _ step ih =>
    have climbs := (forest.mem_children _ _).mp step.1
    rcases ih with rfl | further
    · exact .inr (.single climbs)
    · exact .inr (further.tail climbs)

theorem way_of_isOpen {start found : ν} (isOpen : tree.IsOpen start found)
    (element : tree.isElement found = true) (isBelow : tree.Below start found) :
    Relation.ReflTransGen tree.ElementChild start found := by
  induction isBelow with
  | single climbs => exact .single ⟨(forest.mem_children _ _).mpr climbs, element⟩
  | @tail between found further climbs ih =>
    have inner := isOpen between further (.single climbs)
    have upper : tree.IsOpen start between := fun node isBelow isAbove => isOpen node isBelow (isAbove.tail climbs)
    exact (ih upper inner).tail ⟨(forest.mem_children _ _).mpr climbs, element⟩

theorem way_of_below (solid : tree.HasSolidInside) {start found : ν}
    (element : tree.isElement found = true) (isBelow : tree.Below start found) :
    Relation.ReflTransGen tree.ElementChild start found :=
  forest.way_of_isOpen (solid.isOpen start found) element isBelow

theorem isOpen_of_way {node start found : ν} (climbs : tree.parent start = some node)
    (element : tree.isElement start = true) (way : Relation.ReflTransGen tree.ElementChild start found) :
    tree.IsOpen node found := by
  induction way with
  | refl =>
    intro between isBelow isAbove
    rcases (below_step climbs).mp isAbove with rfl | further
    · exact absurd isBelow (forest.not_below_self _)
    · exact absurd (isBelow.trans further) (forest.not_below_self _)
  | @tail last found way step ih =>
    intro between isBelow isAbove
    rcases (below_step ((forest.mem_children _ _).mp step.1)).mp isAbove with rfl | further
    · exact isElement_of_way element way
    · exact ih between isBelow further

theorem mem_elementsFrom_children_iff (node found : ν) :
    found ∈ tree.elementsFrom (tree.children node) ↔
      tree.isElement found = true ∧ tree.Below node found ∧ tree.IsOpen node found := by
  rw [forest.mem_elementsFrom]
  constructor
  · intro known
    obtain ⟨start, isChild, element, way⟩ := known
    have climbs := (forest.mem_children _ _).mp isChild
    refine ⟨isElement_of_way element way, ?_, forest.isOpen_of_way climbs element way⟩
    rcases forest.below_of_way way with rfl | further
    · exact .single climbs
    · exact .head climbs further
  · intro known
    obtain ⟨element, isBelow, isOpen⟩ := known
    have way := forest.way_of_isOpen isOpen element isBelow
    rcases Relation.ReflTransGen.cases_head way with rfl | ⟨child, ⟨isChild, childElement⟩, further⟩
    · exact absurd isBelow (forest.not_below_self _)
    · exact ⟨child, isChild, childElement, further⟩

theorem mem_elementsFrom_children (solid : tree.HasSolidInside) (node found : ν) :
    found ∈ tree.elementsFrom (tree.children node) ↔
      tree.isElement found = true ∧ tree.Below node found :=
  (forest.mem_elementsFrom_children_iff node found).trans
    (and_congr_right fun _ => and_iff_left (solid.isOpen node found))

theorem mem_elementsFrom_elements (solid : tree.HasSolidInside) {nodes : List ν}
    (elements : ∀ node ∈ nodes, tree.isElement node = true) (found : ν) :
    found ∈ tree.elementsFrom nodes ↔
      tree.isElement found = true ∧ ∃ node ∈ nodes, found = node ∨ tree.Below node found := by
  rw [forest.mem_elementsFrom]
  constructor
  · intro known
    obtain ⟨start, isStart, element, way⟩ := known
    have found_element := isElement_of_way element way
    exact ⟨found_element, start, isStart, forest.below_of_way way⟩
  · intro known
    obtain ⟨element, node, isNode, rfl | isBelow⟩ := known
    · exact ⟨found, isNode, element, .refl⟩
    · exact ⟨node, isNode, elements node isNode, forest.way_of_below solid element isBelow⟩

end IsForest
end TreeView
end SelectorEngine
