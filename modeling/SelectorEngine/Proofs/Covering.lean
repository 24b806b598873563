import SelectorEngine.Proofs.Search.Roots
import SelectorEngine.Proofs.Tree.Growth

/-! Roots of a search. Nodes that come again or are below another one are left out, whether that other one is
itself left out or not: above all nodes that lead to a node there is one that is kept. -/
namespace SelectorEngine

variable {ν : Type}

/-- The roots are nodes of the list, each at its first place, none below another; every node of the list is one
of them or below exactly one of them. -/
structure TreeView.AreRootsOf [DecidableEq ν] (tree : TreeView ν) (roots nodes : List ν) : Prop where
  sublist : roots.Sublist nodes
  nodup : roots.Nodup
  apart : ∀ root ∈ roots, ∀ other ∈ roots, ¬ tree.Below root other
  covers : ∀ node ∈ nodes, ∃! root, root ∈ roots ∧ tree.AtOrBelow root node
  atFirst : roots.Pairwise fun earlier later => nodes.idxOf earlier < nodes.idxOf later

namespace TreeView

variable [DecidableEq ν] {tree : TreeView ν} {same : ν → ν → Bool}
  (identity : ∀ first second, same first second = true ↔ first = second) (forest : tree.IsForest)
include identity forest

theorem removeSubsets_areRootsOf (nodes : List ν) : tree.AreRootsOf (tree.removeSubsets same nodes) nodes where
  sublist := tree.removeSubsets_sublist same nodes
  nodup := removeSubsets_nodup identity forest nodes
  apart root isRoot other isOther :=
    ((mem_removeSubsets identity forest nodes other).mp isOther).2 root
      ((mem_removeSubsets identity forest nodes root).mp isRoot).1
  covers _ member := existsUnique_root identity forest nodes member
  atFirst := removeSubsets_idxOf_pairwise identity forest nodes

theorem AreRootsOf.mem_iff {roots nodes : List ν} (areRoots : tree.AreRootsOf roots nodes) (node : ν) :
    node ∈ roots ↔ node ∈ tree.removeSubsets same nodes := by
  rw [mem_removeSubsets identity forest]
  constructor
  · intro isRoot
    refine ⟨areRoots.sublist.subset isRoot, fun above listed isBelow => ?_⟩
    obtain ⟨root, ⟨isHigher, inRoot⟩, _⟩ := areRoots.covers above listed
    rcases inRoot with rfl | further
    · exact areRoots.apart above isHigher node isRoot isBelow
    · exact areRoots.apart root isHigher node isRoot (further.trans isBelow)
  · intro known
    obtain ⟨member, top⟩ := known
    obtain ⟨root, ⟨isRoot, rfl | isBelow⟩, _⟩ := areRoots.covers node member
    · exact isRoot
    · exact absurd isBelow (top root (areRoots.sublist.subset isRoot))

/-- No other list are the roots of the nodes. -/
theorem areRootsOf_iff {roots nodes : List ν} :
    tree.AreRootsOf roots nodes ↔ roots = tree.removeSubsets same nodes := by
  constructor
  · intro areRoots
    have others := removeSubsets_areRootsOf identity forest nodes
    have permuted := (List.perm_ext_iff_of_nodup areRoots.nodup others.nodup).mpr
      (areRoots.mem_iff identity forest)
    exact permuted.eq_of_pairwise (fun first second _ _ before after => absurd after (Nat.lt_asymm before))
      areRoots.atFirst others.atFirst
  · rintro rfl
    exact removeSubsets_areRootsOf identity forest nodes

end TreeView

namespace Arena

/-- In a tree that was built by appending each node once, the search roots of any nodes are their topmost ones,
and nothing is left out of the roots again. -/
theorem Grown.removeSubsets_areRoots {appended : List Nat} {arena : Arena} (grown : arena.Grown appended)
    (once : appended.Nodup) (acyclic : arena.IsAcyclic) (nodes : List Nat) :
    let roots := arena.view.removeSubsets arena.view.same nodes
    arena.view.AreRootsOf roots nodes ∧ (∀ others, arena.view.AreRootsOf others nodes → others = roots) ∧
      arena.view.removeSubsets arena.view.same roots = roots := by
  have forest := grown.view_isForest once acyclic
  have identity (first second : Nat) : arena.view.same first second = true ↔ first = second :=
    beq_iff_eq
  exact ⟨TreeView.removeSubsets_areRootsOf identity forest nodes,
    fun _ => (TreeView.areRootsOf_iff identity forest).mp,
    TreeView.removeSubsets_of_apart identity forest (TreeView.removeSubsets_apart identity forest nodes)⟩

theorem removeSubsets_areRoots_withCousin :
    (∃ appended, withCousin.Grown appended ∧ appended.Nodup) ∧ withCousin.IsAcyclic ∧
      withCousin.view.removeSubsets withCousin.view.same [5, 2, 4, 5, 2] = [2, 4] ∧
      withCousin.view.AreRootsOf [2, 4] [5, 2, 4, 5, 2] := by
  obtain ⟨appended, sprouted⟩ := exists_sprouted_withCousin
  have acyclic := sprouted.ordered.isAcyclic
  have kept : withCousin.view.removeSubsets withCousin.view.same [5, 2, 4, 5, 2] = [2, 4] := by decide
  have areRoots := (sprouted.grown.removeSubsets_areRoots sprouted.once acyclic [5, 2, 4, 5, 2]).1
  rw [kept] at areRoots
  exact ⟨⟨appended, sprouted.grown, sprouted.once⟩, acyclic, kept, areRoots⟩

end Arena
end SelectorEngine
