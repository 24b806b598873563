import SelectorEngine.Proofs.Match.Calls
import SelectorEngine.Proofs.Search.Enumeration
import SelectorEngine.Proofs.Tree.Growth

/-! Searching is enumerating. A search for all elements tests, once each and in order, what its start nodes lead
to in preorder; a search for one element stops at the first that passes. -/
namespace SelectorEngine

variable {ν : Type}

theorem throughFirst_prefix (passes : ν → Bool) (items : List ν) : throughFirst passes items <+: items := by
  induction items with
  | nil => exact List.prefix_rfl
  | cons item rest ih =>
    rw [throughFirst]
    split
    · exact List.prefix_append [item] rest
    · exact (List.prefix_cons_inj item).mpr ih

namespace TreeView

variable {tree : TreeView ν} (passes : ν → Bool)

/-- The test that notes the nodes it is asked about. -/
def noted (node : ν) : StateM (List ν) Bool := noting node (passes node)

private theorem run_keeping (listed found calls : List ν) :
    (forIn listed found (keeping (noted passes))).run calls =
      (found ++ listed.filter passes, calls ++ listed) := by
  induction listed generalizing found calls with
  | nil =>
    rw [List.filter_nil, List.append_nil, List.append_nil]
    rfl
  | cons node rest ih =>
    have first : (keeping (noted passes) node found).run calls =
        (.yield (if passes node then found ++ [node] else found), calls ++ [node]) := rfl
    rw [List.forIn_cons, StateT.run_bind, first]
    refine (ih _ _).trans ?_
    cases kept : passes node <;> simp [kept]

private theorem run_stopping (listed calls : List ν) :
    (forIn listed none (stopping (noted passes))).run calls =
      ((listed.filter passes).head?, calls ++ throughFirst passes listed) := by
  induction listed generalizing calls with
  | nil =>
    rw [throughFirst, List.append_nil]
    rfl
  | cons node rest ih =>
    have first : (stopping (noted passes) node none).run calls =
        (if passes node then .done (some node) else .yield none, calls ++ [node]) := rfl
    rw [List.forIn_cons, StateT.run_bind, first, throughFirst]
    cases found : passes node with
    | true =>
      rw [List.filter_cons_of_pos found, if_pos rfl]
      rfl
    | false =>
      refine (ih _).trans ?_
      simp [found]

/-- A search goes through the elements that its start nodes lead to in preorder, start node by start node. All
that pass are found, and every element is asked about once, in order; the search for one element asks about them
through the first that passes. Loops over the pending nodes do the same. -/
theorem searches_enumerate (acyclic : tree.IsAcyclic) :
    ∃ preorder : ν → List ν,
      (∀ start, preorder start =
        if tree.isElement start then start :: (tree.children start).flatMap preorder else []) ∧
      (∀ start found, found ∈ preorder start ↔
        tree.isElement start = true ∧ Relation.ReflTransGen tree.ElementChild start found) ∧
      ∀ (nodes : List ν) (passes : ν → Bool) (calls : List ν),
        let listed := nodes.flatMap preorder
        (tree.findAll nodes (noted passes)).run calls = (listed.filter passes, calls ++ listed) ∧
        (tree.findOne nodes (noted passes)).run calls =
          ((listed.filter passes).head?, calls ++ throughFirst passes listed) ∧
        (tree.existsOne nodes (noted passes)).run calls =
          ((listed.filter passes).head?.isSome, calls ++ throughFirst passes listed) ∧
        throughFirst passes listed <+: listed ∧
        ∃ turns, ∀ more,
          tree.sweep (keeping (noted passes)) (turns + more) nodes [] =
            some <$> tree.findAll nodes (noted passes) ∧
          tree.sweep (stopping (noted passes)) (turns + more) nodes none =
            some <$> tree.findOne nodes (noted passes) := by
  refine ⟨fun start => tree.elementsFrom [start], fun start => ?_, mem_elementsFrom_singleton acyclic,
    fun nodes passes calls => ?_⟩
  · exact tree.elementsFrom_eq_flatMap (tree.children start) ▸ elementsFrom_singleton acyclic start
  · intro listed
    have whole : tree.elementsFrom nodes = listed := tree.elementsFrom_eq_flatMap nodes
    have one : (tree.findOne nodes (noted passes)).run calls =
        ((listed.filter passes).head?, calls ++ throughFirst passes listed) := by
      rw [findOne_eq_forIn, whole]
      exact run_stopping passes listed calls
    refine ⟨?_, one, ?_, throughFirst_prefix passes listed, acyclic.sweep_eq_searches (noted passes) nodes⟩
    · rw [findAll_eq_forIn, whole]
      exact run_keeping passes listed [] calls
    · rw [existsOne, StateT.run_bind, one]
      rfl

end TreeView

namespace Arena

variable {arena : Arena}

theorem IsAcyclic.view_isAcyclic (acyclic : arena.IsAcyclic) : arena.view.IsAcyclic where
  irrefl node below := acyclic node (below.lift id fun _ _ step => step.1)
  bounded := by
    refine ⟨Finset.range arena.nodes.size, (Finset.card_range _).le, fun node element => ?_⟩
    refine Finset.mem_range.mpr (not_le.mp fun outside => ?_)
    have missing : arena.get? node = none := Array.getElem?_eq_none outside
    simp [view, element?, missing] at element

end Arena

theorem TreeView.searches_enumerate_withCousin : Arena.withCousin.view.IsAcyclic ∧
    ∃ preorder : Nat → List Nat, ∀ passes : Nat → Bool,
      let listed := preorder 4 ++ preorder 1
      (Arena.withCousin.view.findAll [4, 1] (TreeView.noted passes)).run [] = (listed.filter passes, listed) ∧
        (Arena.withCousin.view.findOne [4, 1] (TreeView.noted passes)).run [] =
          ((listed.filter passes).head?, throughFirst passes listed) := by
  obtain ⟨appended, sprouted⟩ := Arena.exists_sprouted_withCousin
  have acyclic := sprouted.ordered.isAcyclic.view_isAcyclic
  obtain ⟨preorder, _, _, searches⟩ := TreeView.searches_enumerate acyclic
  refine ⟨acyclic, preorder, fun passes => ?_⟩
  obtain ⟨all, one, _⟩ := searches [4, 1] passes []
  rw [List.flatMap_cons, List.flatMap_singleton] at all one
  exact ⟨all, one⟩

end SelectorEngine
