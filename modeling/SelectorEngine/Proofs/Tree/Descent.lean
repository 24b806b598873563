import SelectorEngine.Proofs.Search.Order
import SelectorEngine.Proofs.Tree.Growth

/-! What is below a node, in document order. Visiting the children of a node and all that is below them ends
with the nodes below it, and the elements among these are what a search for elements goes through. -/
namespace SelectorEngine.Arena

/-- Visiting what is pending and all that is below it ends, and these are the nodes on the way. -/
inductive Visits (arena : Arena) : List Nat → List Nat → Prop
  | done {pending : List Nat} : arena.visit? pending = none → Visits arena pending []
  | step {pending rest visited : List Nat} {id : Nat} : arena.visit? pending = some (id, rest) →
      Visits arena rest visited → Visits arena pending (id :: visited)

theorem Visits.unique {arena : Arena} {pending first second : List Nat} (visits : arena.Visits pending first)
    (others : arena.Visits pending second) : first = second := by
  induction visits generalizing second with
  | done isDone =>
    cases others with
    | done _ => rfl
    | step isStep _ => cases isDone.symm.trans isStep
  | step isStep _ ih =>
    cases others with
    | done isDone => cases isDone.symm.trans isStep
    | step isOther others =>
      obtain ⟨rfl, rfl⟩ := Prod.mk.inj (Option.some.inj (isStep.symm.trans isOther))
      rw [ih others]

section Depth

variable {arena : Arena} {depth : Nat → Nat}
  (grows : ∀ parent, ∀ child ∈ arena.children parent, depth parent < depth child)
  (bounded : ∀ id, depth id < arena.nodes.size)
include grows bounded

private theorem visits_descendantsWithin (fuel id : Nat) (enough : arena.nodes.size ≤ fuel + depth id)
    {pending visited : List Nat} (further : arena.Visits pending visited) :
    arena.Visits (arena.children id ++ pending) (arena.descendantsWithin fuel id ++ visited) := by
  induction fuel generalizing id pending visited with
  | zero => exact absurd (bounded id) (by omega)
  | succ fuel ih =>
    rw [descendantsWithin]
    have deeper : ∀ child ∈ arena.children id, arena.nodes.size ≤ fuel + depth child := by
      intro child member
      have grown := grows id child member
      omega
    -- What is below one child is visited before the children after it, which are pending until then.
    generalize arena.children id = children at deeper
    induction children with
    | nil => exact further
    | cons child rest ihRest =>
      have later := ihRest fun child member => deeper child (List.mem_cons_of_mem _ member)
      have inside := ih child (deeper child List.mem_cons_self) later
      rw [List.flatMap_cons, List.append_assoc]
      exact .step rfl inside

end Depth

variable {arena : Arena} {appended : List Nat}

theorem Grown.visits_descendants (grown : Grown appended arena) (acyclic : arena.IsAcyclic) (id : Nat) :
    arena.Visits (arena.children id) (arena.descendants id) := by
  obtain ⟨depth, grows, bounded⟩ := grown.exists_depth acyclic
  have nothing : arena.Visits [] [] := .done rfl
  have visits := visits_descendantsWithin grows bounded arena.nodes.size id (Nat.le_add_right _ _) nothing
  rwa [List.append_nil, List.append_nil] at visits

/-- The tree in which every node counts as an element. -/
def wholeView (arena : Arena) : TreeView Nat := { arena.view with isElement := fun _ => true }

private theorem descendantsWithin_eq (arena : Arena) (fuel id : Nat) :
    arena.descendantsWithin fuel id = arena.wholeView.elementsOnto fuel (arena.children id) [] := by
  induction fuel generalizing id with
  | zero => rfl
  | succ fuel ih =>
    rw [descendantsWithin, TreeView.elementsOnto_succ_eq_flatMap]
    exact List.flatMap_congr fun child _ => congrArg (child :: ·) (ih child)

theorem descendants_eq (arena : Arena) (id : Nat) :
    arena.descendants id = arena.wholeView.elementsFrom (arena.children id) :=
  arena.descendantsWithin_eq arena.nodes.size id

/-- Whatever stands between the two nodes is an element. -/
def isOpen (arena : Arena) (above below : Nat) : Bool :=
  (arena.view.ancestors below).all fun between =>
    arena.view.isElement between || !(arena.view.ancestors between).contains above

theorem Grown.isOpen_iff (grown : Grown appended arena) (acyclic : arena.IsAcyclic) (above below : Nat) :
    arena.isOpen above below = true ↔ arena.view.IsOpen above below := by
  simp only [isOpen, List.all_eq_true, Bool.or_eq_true, Bool.not_eq_true', List.contains_eq_mem,
    decide_eq_false_iff_not, grown.mem_ancestors acyclic, TreeView.IsOpen]
  refine forall_congr' fun between => ?_
  tauto

namespace Grown

variable (grown : Grown appended arena) (once : appended.Nodup) (acyclic : arena.IsAcyclic)
include grown once acyclic

theorem wholeView_isForest : arena.wholeView.IsForest :=
  have forest := grown.view_isForest once acyclic
  ⟨forest.mem_children, forest.nodup, forest.siblings_eq, forest.exists_depth⟩

theorem mem_descendants (id node : Nat) : node ∈ arena.descendants id ↔ arena.view.Below id node := by
  have solid : arena.wholeView.HasSolidInside := fun _ _ _ _ _ => rfl
  rw [descendants_eq]
  exact ((grown.wholeView_isForest once acyclic).mem_elementsFrom_children solid id node).trans
    (and_iff_right rfl)

theorem descendants_nodup (id : Nat) : (arena.descendants id).Nodup := by
  have forest := grown.wholeView_isForest once acyclic
  rw [descendants_eq]
  exact forest.elementsOnto_nodup _ ((forest.children_pairwise id).imp forest.apart_of_earlier)

theorem descendants_pairwise (id : Nat) : (arena.descendants id).Pairwise fun first second =>
    arena.view.Precedes first second ∧ ¬ arena.view.Precedes second first := by
  have forest := grown.wholeView_isForest once acyclic
  rw [descendants_eq]
  exact (forest.elementsOnto_precedes _ (forest.children_pairwise id)).imp fun before =>
    ⟨before, (grown.view_isForest once acyclic).precedes_asymm before⟩

end Grown
end SelectorEngine.Arena
