import Mathlib.Data.Finset.Card
import Mathlib.Logic.Relation
import SelectorEngine.Proofs.Tree.Forest
import SelectorEngine.Tree.Arena

/-! How trees grow. An arena is allocated node by node and linked by appending, in any order. A node that
has a parent is always among its children; that it is there once, and nowhere else, takes that no node
was appended twice. -/
namespace SelectorEngine

namespace Arena

/-- The arena was built from the empty one, and these are the nodes that were appended, the last one
first. -/
inductive Grown : List Nat → Arena → Prop
  | empty : Grown [] {}
  | alloc {appended : List Nat} {arena : Arena} (content : Content) :
      Grown appended arena → Grown appended (arena.alloc content).1
  | append {appended : List Nat} {arena linked : Arena} {parent child : Nat} :
      Grown appended arena → arena.appendChild? parent child = some linked →
        Grown (child :: appended) linked

def content? (arena : Arena) (id : Nat) : Option Content := (arena.get? id).map Node.content

theorem get?_update (arena : Arena) (id : Nat) (change : Node → Node) (other : Nat) :
    (arena.update id change).get? other =
      if id = other then (arena.get? other).map change else arena.get? other := by
  unfold update get?
  rw [Array.getElem?_modify]

/-- Appending links the two nodes and moves nothing else. -/
structure Appends (arena : Arena) (parent child : Nat) (linked : Arena) : Prop where
  size : linked.nodes.size = arena.nodes.size
  parent_lt : parent < arena.nodes.size
  child_lt : child < arena.nodes.size
  content : ∀ id, linked.content? id = arena.content? id
  children : ∀ id, linked.children id =
    if id = parent then arena.children id ++ [child] else arena.children id
  parent_eq : ∀ id, linked.parent id = if id = child then some parent else arena.parent id

theorem children_eq (arena : Arena) (id : Nat) :
    arena.children id = ((arena.get? id).map Node.children).getD [] := by
  unfold children
  cases arena.get? id <;> rfl

theorem parent_eq (arena : Arena) (id : Nat) :
    arena.parent id = (arena.get? id).bind Node.parent := rfl

private theorem lt_of_get? {arena : Arena} {id : Nat} {node : Node}
    (found : arena.get? id = some node) : id < arena.nodes.size := by
  obtain ⟨bound, _⟩ := Array.getElem?_eq_some_iff.mp found
  exact bound

private theorem update_neutral (arena : Arena) (id : Nat) (change : Node → Node)
    (neutral : ∀ node, (change node).content = node.content ∧
      (change node).children = node.children ∧ (change node).parent = node.parent) (other : Nat) :
    (arena.update id change).content? other = arena.content? other ∧
      (arena.update id change).children other = arena.children other ∧
        (arena.update id change).parent other = arena.parent other := by
  rw [content?, children_eq, parent_eq, get?_update, content?, children_eq, parent_eq]
  split
  · cases arena.get? other with
    | none => exact ⟨rfl, rfl, rfl⟩
    | some node => simp [neutral]
  · exact ⟨rfl, rfl, rfl⟩

private theorem appends_of_linked {arena : Arena} {parent child : Nat}
    (parentBound : parent < arena.nodes.size) (childBound : child < arena.nodes.size) :
    arena.Appends parent child
      ((arena.update parent fun node => { node with children := node.children ++ [child] }).update child
        fun node => { node with parent := some parent }) where
  size := by simp [update]
  parent_lt := parentBound
  child_lt := childBound
  content id := by
    rw [content?, get?_update, get?_update, content?]
    cases arena.get? id with
    | none => simp
    | some node => split <;> split <;> rfl
  children id := by
    rw [children_eq, get?_update, get?_update, children_eq]
    have known : id = parent → ∃ node, arena.get? id = some node := by
      intro same
      subst same
      exact ⟨arena.nodes[id], Array.getElem?_eq_getElem parentBound⟩
    by_cases same : id = parent
    · obtain ⟨node, found⟩ := known same
      rw [found, if_pos same.symm, if_pos same]
      split <;> rfl
    · rw [if_neg (Ne.symm same), if_neg same]
      cases arena.get? id with
      | none => simp
      | some node => split <;> rfl
  parent_eq id := by
    rw [parent_eq, get?_update, get?_update, parent_eq]
    by_cases same : id = child
    · have found : arena.get? id = some arena.nodes[child] := by
        rw [same]
        exact Array.getElem?_eq_getElem childBound
      rw [found, if_pos same.symm, if_pos same]
      split <;> rfl
    · rw [if_neg (Ne.symm same), if_neg same]
      cases arena.get? id with
      | none => simp
      | some node => split <;> rfl

theorem appends_of_appendChild {arena linked : Arena} {parent child : Nat}
    (append : arena.appendChild? parent child = some linked) :
    arena.Appends parent child linked := by
  obtain ⟨above, foundParent, append⟩ := Option.bind_eq_some_iff.mp append
  obtain ⟨below, foundChild, append⟩ := Option.bind_eq_some_iff.mp append
  have appends := appends_of_linked (lt_of_get? foundParent) (lt_of_get? foundChild)
  generalize (arena.update parent fun node =>
    { node with children := node.children ++ [child] }).update child
      (fun node => { node with parent := some parent }) = between at append appends
  dsimp only at append
  split at append
  · cases append
    exact appends
  · next last _ =>
    cases append
    have previousLink (id : Nat) := update_neutral
      (between.update last fun node => { node with next := some child }) child
      (fun node => { node with previous := some last }) (fun _ => ⟨rfl, rfl, rfl⟩) id
    have nextLink (id : Nat) := update_neutral between last
      (fun node => { node with next := some child }) (fun _ => ⟨rfl, rfl, rfl⟩) id
    exact {
      size := by
        rw [← appends.size]
        simp [update]
      parent_lt := appends.parent_lt
      child_lt := appends.child_lt
      content := fun id => by rw [(previousLink id).1, (nextLink id).1, appends.content]
      children := fun id => by rw [(previousLink id).2.1, (nextLink id).2.1, appends.children]
      parent_eq := fun id => by rw [(previousLink id).2.2, (nextLink id).2.2, appends.parent_eq] }

theorem alloc_eq (arena : Arena) (content : Content) :
    (arena.alloc content).1.nodes.size = arena.nodes.size + 1 ∧
      (∀ id, (arena.alloc content).1.children id = arena.children id) ∧
        ∀ id, (arena.alloc content).1.parent id = arena.parent id := by
  have pushed (id : Nat) : (arena.alloc content).1.get? id =
      if id = arena.nodes.size then some { content } else arena.get? id :=
    Array.getElem?_push
  have beyond : arena.get? arena.nodes.size = none := Array.getElem?_eq_none (Nat.le_refl _)
  refine ⟨Array.size_push _, fun id => ?_, fun id => ?_⟩
  · rw [children_eq, children_eq, pushed]
    split
    · next new => rw [new, beyond]; rfl
    · rfl
  · rw [parent_eq, parent_eq, pushed]
    split
    · next new => rw [new, beyond]; rfl
    · rfl

theorem empty_eq (id : Nat) : ({} : Arena).children id = [] ∧ ({} : Arena).parent id = none := by
  have single : ({} : Arena).get? id = if id = 0 then some { content := .document } else none := by
    cases id <;> rfl
  rw [children_eq, parent_eq, single]
  split <;> exact ⟨rfl, rfl⟩

namespace Grown

variable {appended : List Nat} {arena : Arena}

theorem mem_children (grown : Grown appended arena) {parent child : Nat}
    (has : arena.parent child = some parent) : child ∈ arena.children parent := by
  induction grown generalizing parent child with
  | empty => exact absurd ((empty_eq child).2.symm.trans has) (by simp)
  | @alloc appended arena content grown ih =>
    obtain ⟨_, children, parents⟩ := arena.alloc_eq content
    rw [parents] at has
    rw [children]
    exact ih has
  | @append appended arena linked parent' child' grown append ih =>
    have appends := appends_of_appendChild append
    rw [appends.parent_eq] at has
    rw [appends.children]
    split at has
    · next same =>
      cases has
      rw [if_pos rfl, same]
      exact List.mem_append_right _ (List.mem_singleton.mpr rfl)
    · have before := ih has
      split
      · exact List.mem_append_left _ before
      · exact before

theorem appended_of_mem (grown : Grown appended arena) {parent child : Nat}
    (member : child ∈ arena.children parent) :
    child ∈ appended ∧ parent < arena.nodes.size ∧ child < arena.nodes.size := by
  induction grown generalizing parent child with
  | empty =>
    rw [(empty_eq parent).1] at member
    exact absurd member List.not_mem_nil
  | @alloc appended arena content grown ih =>
    obtain ⟨size, children, _⟩ := arena.alloc_eq content
    rw [children] at member
    obtain ⟨was, parentBound, childBound⟩ := ih member
    exact ⟨was, by omega, by omega⟩
  | @append appended arena linked parent' child' grown append ih =>
    have appends := appends_of_appendChild append
    rw [appends.children] at member
    rw [appends.size]
    have old (before : child ∈ arena.children parent) : child ∈ child' :: appended ∧
        parent < arena.nodes.size ∧ child < arena.nodes.size := by
      obtain ⟨was, bounds⟩ := ih before
      exact ⟨List.mem_cons_of_mem _ was, bounds⟩
    split at member
    · next same =>
      rcases List.mem_append.mp member with before | new
      · exact old before
      · rw [List.mem_singleton.mp new, same]
        exact ⟨List.mem_cons_self, appends.parent_lt, appends.child_lt⟩
    · exact old member

theorem parent_of_mem (grown : Grown appended arena) (once : appended.Nodup) {parent : Nat} :
    (arena.children parent).Nodup ∧ ∀ child ∈ arena.children parent,
      arena.parent child = some parent := by
  induction grown generalizing parent with
  | empty =>
    rw [(empty_eq parent).1]
    exact ⟨List.nodup_nil, fun child member => absurd member List.not_mem_nil⟩
  | @alloc appended arena content grown ih =>
    obtain ⟨_, children, parents⟩ := arena.alloc_eq content
    rw [children]
    simp only [parents]
    exact ih once
  | @append appended arena linked parent' child' grown append ih =>
    obtain ⟨new, onceBefore⟩ := List.nodup_cons.mp once
    have appends := appends_of_appendChild append
    have fresh (other : Nat) : child' ∉ arena.children other :=
      fun member => new (grown.appended_of_mem member).1
    obtain ⟨nodup, parents⟩ : (arena.children parent).Nodup ∧ _ := ih onceBefore
    have old (child : Nat) (member : child ∈ arena.children parent) :
        linked.parent child = some parent := by
      have other : child ≠ child' := fun same => fresh parent (same ▸ member)
      rw [appends.parent_eq, if_neg other]
      exact parents child member
    rw [appends.children]
    split
    · next same =>
      refine ⟨List.nodup_append'.mpr ⟨nodup, List.nodup_singleton _, ?_⟩, fun child member => ?_⟩
      · exact fun child before last => fresh parent (List.mem_singleton.mp last ▸ before)
      · rcases List.mem_append.mp member with before | last
        · exact old child before
        · rw [appends.parent_eq, if_pos (List.mem_singleton.mp last), same]
    · exact ⟨nodup, old⟩

theorem size_pos (grown : Grown appended arena) : 0 < arena.nodes.size := by
  induction grown with
  | empty => exact Nat.one_pos
  | @alloc appended arena content grown ih =>
    rw [(arena.alloc_eq content).1]
    exact Nat.succ_pos _
  | append grown append ih =>
    rw [(appends_of_appendChild append).size]
    exact ih

/-- Number zero stays the document. -/
theorem content_zero (grown : Grown appended arena) : arena.content? 0 = some .document := by
  induction grown with
  | empty => rfl
  | @alloc appended arena content grown ih =>
    have older : arena.nodes.size ≠ 0 := Nat.ne_of_gt grown.size_pos
    rw [← ih, content?, content?, get?, get?, Arena.alloc, Array.getElem?_push, if_neg (Ne.symm older)]
  | append grown append ih => rw [(appends_of_appendChild append).content, ih]

end Grown

theorem isElement_of_document {arena : Arena} {id : Nat} (is : arena.content? id = some .document) :
    arena.view.isElement id = false := by
  obtain ⟨node, found, content⟩ := Option.map_eq_some_iff.mp is
  obtain ⟨_, parent, children, next, previous⟩ := node
  subst content
  simp [view, element?, found]

theorem content_of_isElement {arena : Arena} {id : Nat} (is : arena.view.isElement id = true) :
    ∃ name attributes, arena.content? id = some (.element name attributes) := by
  change (arena.element? id).isSome = true at is
  unfold element? at is
  split at is
  · next name attributes _ _ _ _ found => exact ⟨name, attributes, congrArg (Option.map Node.content) found⟩
  · cases is

/-- The node is a document or an element, which may have children. -/
def IsContainer (arena : Arena) (id : Nat) : Prop :=
  arena.content? id = some .document ∨ arena.view.isElement id = true

def Below (arena : Arena) (above below : Nat) : Prop :=
  Relation.TransGen (fun parent child => child ∈ arena.children parent) above below

def IsAcyclic (arena : Arena) : Prop := ∀ id, ¬ arena.Below id id

open Classical in
/-- Without cycles, nodes have a depth that grows from parent to child and stays below the number of
nodes: how many nodes a node is below of. -/
theorem Grown.exists_depth {appended : List Nat} {arena : Arena} (grown : Grown appended arena)
    (acyclic : arena.IsAcyclic) :
    ∃ depth : Nat → Nat, (∀ parent, ∀ child ∈ arena.children parent, depth parent < depth child) ∧
      ∀ id, depth id < arena.nodes.size := by
  let above (id : Nat) := (Finset.range arena.nodes.size).filter fun other => arena.Below other id
  have mem_above (id other : Nat) : other ∈ above id ↔ other < arena.nodes.size ∧ arena.Below other id := by
    rw [Finset.mem_filter, Finset.mem_range]
  refine ⟨fun id => (above id).card, fun parent child member => ?_, fun id => ?_⟩
  · refine Finset.card_lt_card (Finset.ssubset_iff_of_subset ?_ |>.mpr ⟨parent, ?_, ?_⟩)
    · intro other isAbove
      obtain ⟨bound, below⟩ := (mem_above parent other).mp isAbove
      exact (mem_above child other).mpr ⟨bound, below.tail member⟩
    · exact (mem_above child parent).mpr ⟨(grown.appended_of_mem member).2.1, .single member⟩
    · exact fun isAbove => acyclic parent ((mem_above parent parent).mp isAbove).2
  · have missing : ∃ other < arena.nodes.size, ¬ arena.Below other id := by
      by_cases bound : id < arena.nodes.size
      · exact ⟨id, bound, acyclic id⟩
      · refine ⟨0, grown.size_pos, fun below => bound ?_⟩
        cases below with
        | single member => exact (grown.appended_of_mem member).2.2
        | tail _ member => exact (grown.appended_of_mem member).2.2
    obtain ⟨other, bound, notAbove⟩ := missing
    have within : above id ⊂ Finset.range arena.nodes.size :=
      (Finset.ssubset_iff_of_subset (Finset.filter_subset _ _)).mpr
        ⟨other, Finset.mem_range.mpr bound, fun isAbove => notAbove ((mem_above id other).mp isAbove).2⟩
    have fewer := Finset.card_lt_card within
    rwa [Finset.card_range] at fewer

theorem Grown.view_isForest {appended : List Nat} {arena : Arena} (grown : Grown appended arena)
    (once : appended.Nodup) (acyclic : arena.IsAcyclic) : arena.view.IsForest where
  mem_children node child :=
    ⟨fun member => (grown.parent_of_mem once).2 child member, grown.mem_children⟩
  nodup node := (grown.parent_of_mem once).1
  siblings_eq node := by
    cases found : arena.parent node <;> simp only [view, siblings, found]
  exists_depth := by
    obtain ⟨depth, grows, bounded⟩ := grown.exists_depth acyclic
    exact ⟨depth, fun node parent climbs => grows parent node (grown.mem_children climbs), bounded⟩

theorem Grown.mem_ancestors {appended : List Nat} {arena : Arena} (grown : Grown appended arena)
    (acyclic : arena.IsAcyclic) (node above : Nat) :
    above ∈ arena.view.ancestors node ↔ arena.view.Below above node := by
  obtain ⟨depth, grows, bounded⟩ := grown.exists_depth acyclic
  exact TreeView.mem_ancestors_of_bounded
    (fun node parent climbs => grows parent node (grown.mem_children climbs)) bounded node above

theorem Grown.isForest {appended : List Nat} {arena : Arena} (grown : Grown appended arena)
    (once : appended.Nodup) (acyclic : arena.IsAcyclic) (key : Nat → Option Nat)
    (supports : ElementState → Bool) (isIn : Nat → ElementState → Bool) :
    ({ arena.view with key, supports, isIn } : TreeView Nat).IsForest :=
  have forest := grown.view_isForest once acyclic
  ⟨forest.mem_children, forest.nodup, forest.siblings_eq, forest.exists_depth⟩

theorem view_isElement_size (arena : Arena) : arena.view.isElement arena.nodes.size = false := by
  have missing : arena.get? arena.nodes.size = none :=
    Array.getElem?_eq_none (Nat.le_refl _)
  simp [view, element?, missing]

/-- Only documents and elements have children, and documents are nobody's children. -/
structure IsLayered (arena : Arena) : Prop where
  above : ∀ parent, ∀ child ∈ arena.children parent,
    arena.content? parent = some .document ∨ arena.view.isElement parent = true
  below : ∀ parent, ∀ child ∈ arena.children parent, arena.content? child ≠ some .document

theorem IsLayered.hasSolidInside {appended : List Nat} {arena : Arena} (layered : arena.IsLayered)
    (grown : Grown appended arena) : arena.view.HasSolidInside := by
  intro node parent child isBelow isAbove
  have notDocument := layered.below parent node (grown.mem_children isBelow)
  exact (layered.above node child (grown.mem_children isAbove)).resolve_left notDocument

section Text

variable {arena : Arena} {depth : Nat → Nat}
  (grows : ∀ parent, ∀ child ∈ arena.children parent, depth parent < depth child)
  (bounded : ∀ id, depth id < arena.nodes.size)
include grows bounded

private theorem textWithin_succ (fuel id : Nat) (enough : arena.nodes.size ≤ fuel + depth id) :
    arena.textWithin fuel id = arena.textWithin (fuel + 1) id := by
  induction fuel generalizing id with
  | zero => exact absurd (bounded id) (by omega)
  | succ fuel ih =>
    rw [textWithin, textWithin]
    cases found : arena.get? id with
    | none => rfl
    | some node =>
      have children : node.children.map (arena.textWithin fuel) =
          node.children.map (arena.textWithin (fuel + 1)) := by
        refine List.map_congr_left fun child member => ih child ?_
        have listed : child ∈ arena.children id := by
          rw [children_eq, found]
          exact member
        have deeper := grows id child listed
        omega
      simp only [children]

/-- The text of a node is put together from the texts of its children, however deep the tree is. -/
theorem textContent_eq (id : Nat) : arena.textContent id =
    match arena.content? id with
    | some (.text data) => data
    | some (.element _ _) | some .document => String.join ((arena.children id).map arena.textContent)
    | some (.comment _) | none => "" := by
  obtain ⟨size, isSize⟩ := Nat.exists_eq_succ_of_ne_zero (Nat.ne_zero_of_lt (bounded id))
  have children : (arena.children id).map arena.textContent =
      (arena.children id).map (arena.textWithin size) := by
    refine List.map_congr_left fun child member => ?_
    have deeper := grows id child member
    rw [textContent, isSize]
    exact (textWithin_succ grows bounded size child (by omega)).symm
  rw [children, children_eq, content?, textContent, isSize, textWithin]
  cases arena.get? id with
  | none => rfl
  | some node =>
    obtain ⟨content, parent, listed, next, previous⟩ := node
    cases content <;> rfl

theorem textContent_of_container {id : Nat} (container : arena.IsContainer id) :
    arena.textContent id = String.join ((arena.children id).map arena.textContent) := by
  rw [textContent_eq grows bounded]
  rcases container with isDocument | isElement
  · rw [isDocument]
  · obtain ⟨name, attributes, content⟩ := content_of_isElement isElement
    rw [content]

theorem text_infix_of_child {parent child : Nat} (container : arena.IsContainer parent)
    (member : child ∈ arena.children parent) :
    (arena.textContent child).toList <:+: (arena.textContent parent).toList := by
  rw [textContent_of_container grows bounded container, String.toList_join, List.flatMap_map]
  exact List.infix_of_mem_flatten (List.mem_map_of_mem member)

end Text

theorem Grown.text_infix {appended : List Nat} {arena : Arena} (grown : Grown appended arena)
    (acyclic : arena.IsAcyclic) {tree : TreeView Nat} (parent : tree.parent = arena.parent)
    (isElement : tree.isElement = fun id => (arena.element? id).isSome)
    (text : tree.text = arena.textContent) (node : Nat) :
    ∀ above ∈ tree.elementAncestors node, (tree.text node).toList <:+: (tree.text above).toList := by
  obtain ⟨depth, grows, bounded⟩ := grown.exists_depth acyclic
  have climbs (bound node above : Nat)
      (member : above ∈ (tree.climb bound node).takeWhile tree.isElement) :
      (tree.text node).toList <:+: (tree.text above).toList := by
    induction bound generalizing node with
    | zero => exact absurd member List.not_mem_nil
    | succ bound ih =>
      rw [TreeView.climb] at member
      cases found : tree.parent node with
      | none =>
        rw [found] at member
        exact absurd member List.not_mem_nil
      | some next =>
        rw [found] at member
        cases element : tree.isElement next with
        | false =>
          rw [List.takeWhile_cons_of_neg (by rw [element]; exact Bool.false_ne_true)] at member
          exact absurd member List.not_mem_nil
        | true =>
          rw [List.takeWhile_cons_of_pos element] at member
          have step : (tree.text node).toList <:+: (tree.text next).toList := by
            rw [text]
            rw [isElement] at element
            rw [parent] at found
            exact text_infix_of_child grows bounded (.inr element) (grown.mem_children found)
          rcases List.mem_cons.mp member with rfl | further
          · exact step
          · exact step.trans (ih next further)
  exact fun above member => climbs tree.bound node above member

theorem Grown.view_remembers {appended : List Nat} {arena : Arena} (grown : Grown appended arena)
    (acyclic : arena.IsAcyclic) : arena.view.Remembers where
  keyed _ _ _ isFirst isSecond := Option.some.inj (isFirst.trans isSecond.symm)
  textInherited := grown.text_infix acyclic rfl rfl rfl

def IsOrdered (arena : Arena) : Prop := ∀ parent, ∀ child ∈ arena.children parent, parent < child

theorem isAcyclic_of_depth {arena : Arena} (depth : Nat → Nat)
    (grows : ∀ parent, ∀ child ∈ arena.children parent, depth parent < depth child) : arena.IsAcyclic := by
  have deeper {above below : Nat} (isBelow : arena.Below above below) : depth above < depth below := by
    induction isBelow with
    | single member => exact grows _ _ member
    | tail _ member ih => exact Nat.lt_trans ih (grows _ _ member)
  exact fun id cycle => Nat.lt_irrefl (depth id) (deeper cycle)

theorem IsOrdered.isAcyclic {arena : Arena} (ordered : arena.IsOrdered) : arena.IsAcyclic :=
  isAcyclic_of_depth id ordered

/-- A tree that grew at its leaves only: every node was appended once, to an older node. -/
structure Sprouted (arena : Arena) (appended : List Nat) : Prop where
  grown : Grown appended arena
  once : appended.Nodup
  bounded : ∀ id ∈ appended, id < arena.nodes.size
  ordered : arena.IsOrdered

theorem Sprouted.empty : ({} : Arena).Sprouted [] where
  grown := .empty
  once := List.nodup_nil
  bounded _ member := absurd member List.not_mem_nil
  ordered parent child member := by
    rw [(empty_eq parent).1] at member
    exact absurd member List.not_mem_nil

theorem Sprouted.appendNew {arena linked : Arena} {appended : List Nat} {parent id : Nat}
    {content : Content} (sprouted : arena.Sprouted appended) (older : parent < arena.nodes.size)
    (append : arena.appendNew? parent content = some (linked, id)) :
    linked.Sprouted (id :: appended) := by
  unfold appendNew? at append
  obtain ⟨result, linking, made⟩ := Option.bind_eq_some_iff.mp append
  obtain ⟨rfl, rfl⟩ : result = linked ∧ arena.nodes.size = id := Prod.mk.inj (Option.some.inj made)
  have appends : (arena.alloc content).1.Appends parent arena.nodes.size result :=
    appends_of_appendChild linking
  obtain ⟨room, children, _⟩ := arena.alloc_eq content
  have size := appends.size.trans room
  have new : arena.nodes.size ∉ appended := fun member =>
    Nat.lt_irrefl _ (sprouted.bounded _ member)
  refine ⟨.append (sprouted.grown.alloc content) linking, List.nodup_cons.mpr ⟨new, sprouted.once⟩,
    fun other member => ?_, fun above child member => ?_⟩
  · rcases List.mem_cons.mp member with rfl | before
    · omega
    · have bound := sprouted.bounded other before
      omega
  · rw [appends.children, children] at member
    split at member
    · next same =>
      rcases List.mem_append.mp member with before | last
      · exact sprouted.ordered above child before
      · rw [List.mem_singleton.mp last, same]
        exact older
    · exact sprouted.ordered above child member

def sprout? (arena : Arena) (node : Nat × Content) : Option Arena :=
  if node.1 < arena.nodes.size then (arena.appendNew? node.1 node.2).map Prod.fst else none

/-- The tree given by the parent and the content of every node, in order of allocation. -/
def build? (nodes : List (Nat × Content)) : Option Arena := nodes.foldlM sprout? {}

private theorem sprouted_of_foldlM {nodes : List (Nat × Content)} {start arena : Arena}
    {appended : List Nat} (sprouted : start.Sprouted appended)
    (built : nodes.foldlM sprout? start = some arena) : ∃ appended, arena.Sprouted appended := by
  induction nodes generalizing start appended with
  | nil =>
    cases built
    exact ⟨appended, sprouted⟩
  | cons node rest ih =>
    rw [List.foldlM_cons] at built
    obtain ⟨next, step, further⟩ := Option.bind_eq_some_iff.mp built
    unfold sprout? at step
    split at step
    · next older =>
      obtain ⟨⟨linked, id⟩, append, same⟩ := Option.map_eq_some_iff.mp step
      cases same
      exact ih (sprouted.appendNew older append) further
    · cases step

theorem exists_sprouted_of_build {nodes : List (Nat × Content)} {arena : Arena}
    (built : build? nodes = some arena) : ∃ appended, arena.Sprouted appended :=
  sprouted_of_foldlM .empty built

def withElementsInside : Arena where
  nodes := #[
    { content := .document, children := [1] },
    { content := .element "a" [], parent := some 0, children := [2] },
    { content := .element "b" [], parent := some 1, children := [3] },
    { content := .element "c" [], parent := some 2 }]

theorem exists_sprouted_withElementsInside : ∃ appended, withElementsInside.Sprouted appended := by
  have built : build? [(0, .element "a" []), (1, .element "b" []), (2, .element "c" [])] =
      some withElementsInside := rfl
  exact exists_sprouted_of_build built

theorem isLayered_withElementsInside : withElementsInside.IsLayered where
  above parent child member := by
    rcases parent with _ | _ | _ | _ | parent
    · exact .inl rfl
    · exact .inr rfl
    · exact .inr rfl
    · exact absurd member List.not_mem_nil
    · exact absurd member List.not_mem_nil
  below parent child member := by
    rcases parent with _ | _ | _ | _ | parent
    · exact List.mem_singleton.mp member ▸ (nomatch ·)
    · exact List.mem_singleton.mp member ▸ (nomatch ·)
    · exact List.mem_singleton.mp member ▸ (nomatch ·)
    · exact absurd member List.not_mem_nil
    · exact absurd member List.not_mem_nil

/-- An element with three elements in it, the last of which has one of its own. -/
def withCousin : Arena where
  nodes := #[
    { content := .document, children := [1] },
    { content := .element "r" [], parent := some 0, children := [2, 3, 4] },
    { content := .element "a" [], parent := some 1, next := some 3 },
    { content := .element "b" [], parent := some 1, next := some 4, previous := some 2 },
    { content := .element "c" [], parent := some 1, children := [5], previous := some 3 },
    { content := .element "d" [], parent := some 4 }]

theorem exists_sprouted_withCousin : ∃ appended, withCousin.Sprouted appended := by
  have built : build? [(0, .element "r" []), (1, .element "a" []), (1, .element "b" []),
      (1, .element "c" []), (4, .element "d" [])] = some withCousin := rfl
  exact exists_sprouted_of_build built

/-- Two elements, and under the inner one a document with an element in it. -/
def withDocumentInside : Arena where
  nodes := #[
    { content := .document, children := [1] },
    { content := .element "a" [], parent := some 0, children := [2] },
    { content := .element "b" [], parent := some 1, children := [3] },
    { content := .document, parent := some 2, children := [4] },
    { content := .element "c" [], parent := some 3 }]

theorem exists_sprouted_withDocumentInside : ∃ appended, withDocumentInside.Sprouted appended := by
  have built : build? [(0, .element "a" []), (1, .element "b" []), (2, .document),
      (3, .element "c" [])] = some withDocumentInside := rfl
  exact exists_sprouted_of_build built

/-- An element without a parent, another one in it, and in that one the document with an element. -/
def withDocumentUnder : Arena where
  nodes := #[
    { content := .document, parent := some 2, children := [3] },
    { content := .element "a" [], children := [2] },
    { content := .element "b" [], parent := some 1, children := [0] },
    { content := .element "c" [], parent := some 0 }]

theorem grown_withDocumentUnder : Grown [0, 3, 2] withDocumentUnder := by
  have elements : Grown [] ((({} : Arena).alloc (.element "a" [])).1.alloc (.element "b" [])).1 :=
    (Grown.alloc _ .empty).alloc _
  have nested := @Grown.append _ _ _ 1 2 elements rfl
  have further := @Grown.append _ _ _ 0 3 (nested.alloc (.element "c" [])) rfl
  exact @Grown.append _ _ _ 2 0 further rfl

theorem isAcyclic_withDocumentUnder : withDocumentUnder.IsAcyclic := by
  refine isAcyclic_of_depth (fun id => [2, 0, 1, 3].getD id 0) fun parent child member => ?_
  rcases parent with _ | _ | _ | _ | parent
  · obtain rfl := List.mem_singleton.mp member
    decide
  · obtain rfl := List.mem_singleton.mp member
    decide
  · obtain rfl := List.mem_singleton.mp member
    decide
  · exact absurd member List.not_mem_nil
  · exact absurd member List.not_mem_nil

/-- Two elements, the second of which was appended to the first one and then to the document. -/
def withTwoParents : Arena where
  nodes := #[
    { content := .document, children := [1, 2] },
    { content := .element "a" [], parent := some 0, children := [2], next := some 2 },
    { content := .element "b" [], parent := some 0, previous := some 1 }]

theorem grown_withTwoParents : Grown [2, 2, 1] withTwoParents := by
  have elements : Grown [] ((({} : Arena).alloc (.element "a" [])).1.alloc (.element "b" [])).1 :=
    (Grown.alloc _ .empty).alloc _
  have outer := @Grown.append _ _ _ 0 1 elements rfl
  have inner := @Grown.append _ _ _ 1 2 outer rfl
  exact @Grown.append _ _ _ 0 2 inner rfl

theorem isAcyclic_withTwoParents : withTwoParents.IsAcyclic := by
  refine IsOrdered.isAcyclic fun parent child member => ?_
  rcases parent with _ | _ | _ | parent
  · revert child
    decide
  · revert child
    decide
  · exact absurd member List.not_mem_nil
  · exact absurd member List.not_mem_nil

theorem above_withDocumentUnder (parent : Nat) :
    ∀ child ∈ withDocumentUnder.children parent,
      withDocumentUnder.content? parent = some .document ∨
        withDocumentUnder.view.isElement parent = true := by
  intro child member
  rcases parent with _ | _ | _ | _ | parent
  · exact .inl rfl
  · exact .inr rfl
  · exact .inr rfl
  · exact absurd member List.not_mem_nil
  · exact absurd member List.not_mem_nil

theorem above_withDocumentInside (parent : Nat) :
    ∀ child ∈ withDocumentInside.children parent,
      withDocumentInside.content? parent = some .document ∨
        withDocumentInside.view.isElement parent = true := by
  intro child member
  rcases parent with _ | _ | _ | _ | _ | parent
  · exact .inl rfl
  · exact .inr rfl
  · exact .inr rfl
  · exact .inl rfl
  · exact absurd member List.not_mem_nil
  · exact absurd member List.not_mem_nil

end Arena
end SelectorEngine
