import SelectorEngine.Proofs.Tree.Descent
import SelectorEngine.Proofs.Tree.Linked

/-! Changing a tree call by call. As long as only nodes without a parent are appended, and none to itself or
to a node below it, no call fails and what comes out is a tree: parents, children and siblings say the same,
and the nodes below a node are visited once each, in document order. -/
namespace SelectorEngine.Arena

/-- A call that changes a tree. -/
inductive Change where
  | alloc (content : Content)
  | appendNew (parent : Nat) (content : Content)
  | appendChild (parent child : Nat)
deriving DecidableEq, Repr

namespace Change

def perform? (arena : Arena) : Change → Option Arena
  | alloc content => some (arena.alloc content).1
  | appendNew parent content => (arena.appendNew? parent content).map Prod.fst
  | appendChild parent child => arena.appendChild? parent child

/-- The nodes exist, and what is appended has no parent yet and is neither the new parent nor above it. -/
def IsAllowed (arena : Arena) : Change → Prop
  | alloc _ => True
  | appendNew parent _ => parent < arena.nodes.size
  | appendChild parent child => parent < arena.nodes.size ∧ child < arena.nodes.size ∧
    arena.parent child = none ∧ child ≠ parent ∧ ¬ arena.view.Below child parent

/-- Each change is allowed in the arena that the changes before it lead to. -/
def AreAllowed : Arena → List Change → Prop
  | _, [] => True
  | arena, change :: rest => change.IsAllowed arena ∧
    ∀ changed, change.perform? arena = some changed → AreAllowed changed rest

def performAll? (changes : List Change) : Option Arena := changes.foldlM perform? {}

end Change

/-- Parents, children and siblings say the same about every node, and below a node are, in document order,
the nodes whose chain of parents leads to it. -/
structure IsTree (arena : Arena) : Prop where
  mem_children : ∀ parent child, child ∈ arena.children parent ↔ arena.parent child = some parent
  children_nodup : ∀ parent, (arena.children parent).Nodup
  links : ∀ parent before child after, arena.children parent = before ++ child :: after →
    arena.previous child = before.getLast? ∧ arena.next child = after.head?
  unlinked : ∀ id, arena.parent id = none → arena.previous id = none ∧ arena.next id = none
  acyclic : ∀ id, ¬ arena.view.Below id id
  siblings_once : ∀ id, (arena.siblings id).count id = 1
  visits : ∀ id visited, arena.Visits (arena.children id) visited ↔ visited = arena.descendants id
  mem_descendants : ∀ id node, node ∈ arena.descendants id ↔ arena.view.Below id node
  descendants_nodup : ∀ id, (arena.descendants id).Nodup
  descendants_pairwise : ∀ id, (arena.descendants id).Pairwise fun first second =>
    arena.view.Precedes first second ∧ ¬ arena.view.Precedes second first

theorem exists_appendChild? {arena : Arena} {parent child : Nat} (parentBound : parent < arena.nodes.size)
    (childBound : child < arena.nodes.size) : ∃ linked, arena.appendChild? parent child = some linked := by
  have foundParent : arena.get? parent = some arena.nodes[parent] := Array.getElem?_eq_getElem parentBound
  have foundChild : arena.get? child = some arena.nodes[child] := Array.getElem?_eq_getElem childBound
  rw [appendChild?, foundParent, foundChild]
  dsimp only [Option.bind_eq_bind, Option.bind_some]
  split <;> exact ⟨_, rfl⟩

namespace Linked

variable {arena : Arena} {appended : List Nat}

theorem isAcyclic (isLinked : arena.Linked appended) : arena.IsAcyclic := fun id cycle =>
  isLinked.acyclic id (Relation.TransGen.mono (fun _ _ member => isLinked.parent_of_mem member) id id cycle)

theorem isTree (isLinked : arena.Linked appended) : arena.IsTree := by
  obtain ⟨grown, once⟩ := And.intro isLinked.grown isLinked.once
  have acyclic := isLinked.isAcyclic
  have forest := grown.view_isForest once acyclic
  exact {
    mem_children := forest.mem_children
    children_nodup := forest.nodup
    links := isLinked.links
    unlinked := isLinked.unlinked
    acyclic := isLinked.acyclic
    siblings_once := fun id => List.count_eq_one_of_mem (forest.siblings_nodup id) (forest.mem_siblings id)
    visits := fun id visited => ⟨fun visits => visits.unique (grown.visits_descendants acyclic id),
      fun same => same ▸ grown.visits_descendants acyclic id⟩
    mem_descendants := grown.mem_descendants once acyclic
    descendants_nodup := grown.descendants_nodup once acyclic
    descendants_pairwise := grown.descendants_pairwise once acyclic }

/-- A change that is allowed succeeds and keeps siblings linked. -/
theorem exists_changed (isLinked : arena.Linked appended) {change : Change} (allowed : change.IsAllowed arena) :
    ∃ changed appended, change.perform? arena = some changed ∧ changed.Linked appended := by
  cases change with
  | alloc content => exact ⟨_, _, rfl, isLinked.alloc content⟩
  | appendNew parent content =>
    have allocated := isLinked.alloc content
    obtain ⟨size, -, parents⟩ := arena.alloc_eq content
    have bound : parent < arena.nodes.size := allowed
    have alone : (arena.alloc content).1.parent arena.nodes.size = none := by
      rw [parents, parent_eq, get?, Array.getElem?_eq_none (Nat.le_refl _)]
      rfl
    -- Nothing is below a node that has just been allocated, so it can be appended anywhere.
    have isLeaf : ¬ (arena.alloc content).1.view.Below arena.nodes.size parent := by
      intro isBelow
      obtain ⟨child, climbs⟩ := TreeView.exists_child_of_below isBelow
      have climbs : (arena.alloc content).1.parent child = some arena.nodes.size := climbs
      rw [parents] at climbs
      have := (isLinked.grown.appended_of_mem (isLinked.grown.mem_children climbs)).2.1
      omega
    obtain ⟨linked, append⟩ :
        ∃ linked, (arena.alloc content).1.appendChild? parent arena.nodes.size = some linked :=
      exists_appendChild? (by omega) (by omega)
    have performed : (arena.appendNew? parent content).map Prod.fst = some linked :=
      congrArg (fun made => (made.bind fun linked => some (linked, arena.nodes.size)).map Prod.fst) append
    exact ⟨linked, _, performed, allocated.append_child append alone (by omega) isLeaf⟩
  | appendChild parent child =>
    obtain ⟨parentBound, childBound, alone, apart, above⟩ := allowed
    obtain ⟨linked, append⟩ := exists_appendChild? parentBound childBound
    exact ⟨linked, _, append, isLinked.append_child append alone apart above⟩

/-- So do changes that are allowed one after the other. -/
theorem exists_applied (isLinked : arena.Linked appended) {changes : List Change}
    (allowed : Change.AreAllowed arena changes) :
    ∃ last appended, changes.foldlM Change.perform? arena = some last ∧ last.Linked appended := by
  induction changes generalizing arena appended with
  | nil => exact ⟨arena, appended, rfl, isLinked⟩
  | cons change rest ih =>
    obtain ⟨isAllowed, further⟩ := allowed
    obtain ⟨changed, appended, performed, stillLinked⟩ := isLinked.exists_changed isAllowed
    obtain ⟨last, appended, applied, lastLinked⟩ := ih stillLinked (further changed performed)
    refine ⟨last, appended, ?_, lastLinked⟩
    rw [List.foldlM_cons, performed]
    exact applied

end Linked

/-- Changes that are allowed one after the other lead from the empty arena to a tree. -/
theorem isTree_of_areAllowed {changes : List Change} (allowed : Change.AreAllowed {} changes) :
    ∃ arena, Change.performAll? changes = some arena ∧ arena.IsTree := by
  obtain ⟨arena, _, applied, isLinked⟩ := Linked.empty.exists_applied allowed
  exact ⟨arena, applied, isLinked.isTree⟩

/-- An element gets a child before it is appended to the document itself. -/
theorem isTree_of_appended_later :
    Change.AreAllowed {} [.alloc (.element "a" []), .appendNew 1 (.text "b"), .appendChild 0 1] ∧
      ∃ arena, Change.performAll? [.alloc (.element "a" []), .appendNew 1 (.text "b"), .appendChild 0 1] =
        some arena ∧ arena.IsTree := by
  have allowed : Change.AreAllowed {} [.alloc (.element "a" []), .appendNew 1 (.text "b"), .appendChild 0 1] := by
    refine ⟨trivial, ?_⟩
    rintro _ ⟨⟩
    refine ⟨show 1 < 2 by decide, ?_⟩
    rintro _ ⟨⟩
    exact ⟨⟨by decide, by decide, rfl, by decide, TreeView.not_below_root rfl⟩, fun _ _ => trivial⟩
  exact ⟨allowed, isTree_of_areAllowed allowed⟩

end SelectorEngine.Arena
