import SelectorEngine.Proofs.Search.Found
import SelectorEngine.Proofs.Staging

/-! The order of a selection. It goes through the given nodes first and then through their later siblings,
through both in document order; together they are in document order if only one of the two is searched, or
if there is one node only. -/
namespace SelectorEngine

variable {ν σ : Type}

namespace TreeView

variable {tree : TreeView ν}

/-- First come elements at and below the given nodes, then elements at and below later siblings of them.
The first ones are in document order, and so are the others if all nodes between nodes are elements. -/
def IsArranged (tree : TreeView ν) (given found : List ν) : Prop :=
  ∃ inside beside, found = inside ++ beside ∧
    (∀ element ∈ inside, ∃ node ∈ given, tree.AtOrBelow node element) ∧
    (∀ element ∈ beside, tree.Beside given element) ∧
    inside.Pairwise tree.Precedes ∧ (tree.HasSolidInside → beside.Pairwise tree.Precedes)

theorem IsArranged.sublist {given found chosen : List ν} (arranged : tree.IsArranged given found)
    (sublist : chosen.Sublist found) : tree.IsArranged given chosen := by
  obtain ⟨inside, beside, rfl, areInside, areBeside, ordered, orderedBeside⟩ := arranged
  obtain ⟨first, second, rfl, fromInside, fromBeside⟩ := List.sublist_append_iff.mp sublist
  exact ⟨first, second, rfl, fun element member => areInside element (fromInside.subset member),
    fun element member => areBeside element (fromBeside.subset member), ordered.sublist fromInside,
    fun solid => (orderedBeside solid).sublist fromBeside⟩

end TreeView

/-- The nodes that are looked through because they are given, and the later siblings of them. -/
theorem searchRoots_siblings (options : Options ν σ) (root : MatchContext ν) :
    let further := root.toList.flatMap (options.tree.nextSiblings options.same)
    let topmost := options.tree.topmostAfter options.same (root.toList ++ further)
    searchRoots options root true = topmost [] root.toList ++ topmost root.toList further := by
  cases root <;> exact options.tree.topmostAfter_append options.same _ [] _ _

theorem Arena.precedes_withCousin :
    Arena.withCousin.view.Precedes 2 4 ∧ Arena.withCousin.view.Precedes 3 5 :=
  ⟨.inr (TreeView.before_of_earlier ⟨[], [3], [], rfl⟩),
    .inr ⟨3, 4, ⟨[2], [], [], rfl⟩, .inl rfl, .inr (.single rfl)⟩⟩

section Roots

variable {options : Options ν σ} (forest : options.tree.IsForest)
  (identity : ∀ first second, options.same first second = true ↔ first = second)
include forest identity

theorem searchRoots_apart (root : MatchContext ν) (siblings : Bool) :
    (searchRoots options root siblings).Pairwise options.tree.Apart := by
  cases root with
  | node only =>
    exact (searchRoots_node_pairwise forest identity only siblings).imp forest.apart_of_earlier
  | nodes nodes => exact searchRoots_nodes_apart forest identity nodes siblings

variable {root : MatchContext ν}
  (ordered : root.toList.Pairwise fun first second => first = second ∨ options.tree.Precedes first second)
include ordered

theorem searchRoots_before {siblings : Bool} (plain : root.toList.length ≤ 1 ∨ siblings = false) :
    (searchRoots options root siblings).Pairwise options.tree.Before := by
  have single (node : ν) (siblings : Bool) :
      (searchRoots options (.node node) siblings).Pairwise options.tree.Before :=
    (searchRoots_node_pairwise forest identity node siblings).imp TreeView.before_of_earlier
  cases root with
  | node only => exact single only siblings
  | nodes nodes =>
    cases siblings with
    | false =>
      have given := TreeView.topmostAfter_given_before identity forest ordered []
      rwa [List.append_nil] at given
    | true =>
      have few : nodes.length ≤ 1 := plain.resolve_right Bool.true_eq_false.mp
      match nodes, few with
      | [], _ => exact .nil
      | [only], _ => exact single only true

theorem elementsFrom_searchRoots_arranged (siblings : Bool) :
    options.tree.IsArranged root.toList
      (options.tree.elementsFrom (searchRoots options root siblings)) := by
  have reached {starts : List ν} {found : ν} (member : found ∈ options.tree.elementsFrom starts) :=
    forest.atOrBelow_of_mem_elementsOnto member
  cases siblings with
  | false =>
    refine ⟨_, [], (List.append_nil _).symm, fun found member => ?_, by simp, ?_, by simp⟩
    swap
    · exact forest.elementsOnto_precedes_of_before _
        (searchRoots_before forest identity ordered (.inr rfl))
    obtain ⟨start, isStart, inStart⟩ := reached member
    cases root with
    | node only =>
      have climbs := (forest.mem_children only start).mp isStart
      exact ⟨only, List.mem_singleton_self only, .trans (.inr (.single climbs)) inStart⟩
    | nodes nodes =>
      exact ⟨start, (options.tree.removeSubsets_sublist options.same nodes).subset isStart, inStart⟩
  | true =>
    rw [searchRoots_siblings, TreeView.elementsFrom_append]
    refine ⟨_, _, rfl, fun found member => ?_, fun found member => ?_, ?_, fun solid => ?_⟩
    · obtain ⟨start, isStart, inStart⟩ := reached member
      exact ⟨start, (options.tree.topmostAfter_sublist _ _ _ _).subset isStart, inStart⟩
    · obtain ⟨sibling, isStart, inSibling⟩ := reached member
      obtain ⟨node, listed, isNext⟩ :=
        List.mem_flatMap.mp ((options.tree.topmostAfter_sublist _ _ _ _).subset isStart)
      obtain ⟨element, earlier⟩ := (TreeView.mem_nextSiblings forest identity node sibling).mp isNext
      exact ⟨node, listed, sibling, element, earlier, inSibling⟩
    · exact forest.elementsOnto_precedes_of_before _
        (TreeView.topmostAfter_given_before identity forest ordered _)
    · refine forest.elementsOnto_precedes_of_before _
        (TreeView.topmostAfter_nextSiblings_before identity forest solid ordered ?_ _)
      intro node listed start isStart
      rcases List.mem_cons.mp isStart with rfl | isNext
      · exact List.mem_append_left _ listed
      · exact List.mem_append_right _ (List.mem_flatMap.mpr ⟨node, listed, isNext⟩)

end Roots

namespace Query

variable {query : Query ν σ} {root : MatchContext ν} {options : Options ν σ}

theorem selectAll_sublist (query : Query ν σ) (root : MatchContext ν) (options : Options ν σ)
    (session : Session σ) : ((query.selectAll root options).run session).1.Sublist
      (options.tree.elementsFrom (searchRoots options root query.reachesSiblings)) := by
  unfold selectAll
  split
  · exact List.nil_sublist _
  · exact options.tree.findAll_sublist query.test _ session

theorem selectOne_isHeadOf (query : Query ν σ) (root : MatchContext ν) (options : Options ν σ) :
    TreeView.IsHeadOf (query.selectOne root options) (query.selectAll root options) := by
  unfold selectAll selectOne
  split
  · exact fun session => .inl ⟨session, rfl, rfl⟩
  · exact options.tree.findOne_isHeadOf query.test _

end Query

namespace SelectorList

open CompileM

theorem Selects.selectOne {selectors : SelectorList} {root : MatchContext ν} {options : Options ν σ}
    {found : List ν} (selects : selectors.Selects root options found) {session : Session σ}
    (tidy : session.Tidy) :
    ∃ ended, Gives (selectors.selectOne root options) session found.head? ended := by
  obtain ⟨after, selected, _⟩ := selects session tidy
  obtain ⟨query, between, compiled, run⟩ := gives_bind.mp selected
  obtain ⟨all, last, ended, runAll, one⟩ := (query.selectOne_isHeadOf root options).exists_run between
  obtain rfl : all = found := (Prod.mk.inj (runAll.symm.trans (gives_lift.mp run))).1
  exact ⟨ended, gives_bind.mpr ⟨query, between, compiled, gives_lift.mpr one⟩⟩

/-- Every element is selected once, those at and below the root before those beside it; the selection is in
document order unless there are several nodes to select from and a group leads to siblings of them. The
one element that is selected is the first of all. -/
theorem selectAll_ordered {appended : List Nat} {arena : Arena} (grown : arena.Grown appended)
    (once : appended.Nodup) (acyclic : arena.IsAcyclic) {selectors : SelectorList}
    {root : MatchContext Nat}
    (ordered : root.toList.Pairwise fun first second => first = second ∨ arena.view.Precedes first second)
    (compiles : Compiles selectors (Options.ofTree arena.view : Options Nat σ) (some root))
    (session : Session σ) :
    ∃ found after ended,
      Gives (selectors.selectAll root (Options.ofTree arena.view)) session found after ∧
      Gives (selectors.selectOne root (Options.ofTree arena.view)) session found.head? ended ∧
      found.Nodup ∧ arena.view.IsArranged root.toList found ∧
      (root.toList.length ≤ 1 ∨ selectors.reachesSiblings arena.view root = false →
        found.Pairwise arena.view.Precedes) := by
  have forest : (Options.ofTree arena.view : Options Nat σ).tree.IsForest :=
    grown.view_isForest once acyclic
  have identity (first second : Nat) : arena.view.same first second = true ↔ first = second :=
    beq_iff_eq
  obtain ⟨first, query, last, compiled⟩ := compiles
  obtain ⟨unchecked, between, inner, _⟩ := gives_bind.mp compiled
  obtain ⟨query, middle, again, _⟩ :=
    (agree_compileUnchecked _ _ rfl rfl rfl rfl rfl rfl rfl selectors (some root)).gives inner session
  obtain ⟨found, after, ended, all, one⟩ :=
    (query.selectOne_isHeadOf root (Options.ofTree arena.view)).exists_run middle
  have sublist := query.selectAll_sublist root (Options.ofTree arena.view) middle
  rw [all] at sublist
  have nodup := forest.elementsOnto_nodup arena.view.bound
    (searchRoots_apart forest identity root query.reachesSiblings)
  have arranged := elementsFrom_searchRoots_arranged forest identity ordered query.reachesSiblings
  refine ⟨found, after, ended, gives_bind.mpr ⟨query, middle, again, gives_lift.mpr all⟩,
    gives_bind.mpr ⟨query, middle, again, gives_lift.mpr one⟩, nodup.sublist sublist,
    arranged.sublist sublist, fun plain => ?_⟩
  have reaches : query.reachesSiblings = selectors.reachesSiblings arena.view root := by
    rw [reachesSiblings_of_compileUnchecked rfl again, Prepared.anchors_eq rfl]
    rfl
  have single : root.toList.length ≤ 1 ∨ query.reachesSiblings = false :=
    plain.imp_right reaches.trans
  have before := searchRoots_before forest identity ordered single
  exact (forest.elementsOnto_precedes_of_before _ before).sublist sublist

/-- What stands right after the root, and what is in it. -/
def nextOrInside : SelectorList :=
  [[Selector.adjacent, Selector.universal], [Selector.child, Selector.universal]]

theorem selectAll_ordered_for_two_nodes :
    Arena.withCousin.view.Precedes 2 4 ∧ ∃ found after ended,
      Gives (selectAll nextOrInside (.nodes [2, 4]) (Options.ofTree Arena.withCousin.view))
        ({ host := () } : Session Unit) found after ∧
      Gives (selectOne nextOrInside (.nodes [2, 4]) (Options.ofTree Arena.withCousin.view))
        ({ host := () } : Session Unit) found.head? ended ∧
      found.Nodup ∧ Arena.withCousin.view.IsArranged [2, 4] found := by
  obtain ⟨appended, sprouted⟩ := Arena.exists_sprouted_withCousin
  have precedes := Arena.precedes_withCousin.1
  have ordered : (MatchContext.nodes [2, 4]).toList.Pairwise fun first second =>
      first = second ∨ Arena.withCousin.view.Precedes first second :=
    List.pairwise_pair.mpr (.inr precedes)
  have compiles : Compiles nextOrInside
      (Options.ofTree Arena.withCousin.view : Options Nat Unit) (some (.nodes [2, 4])) :=
    ⟨{ host := () }, _, _, rfl⟩
  obtain ⟨found, after, ended, all, one, nodup, arranged, _⟩ := selectAll_ordered sprouted.grown
    sprouted.once sprouted.ordered.isAcyclic ordered compiles { host := () }
  exact ⟨precedes, found, after, ended, all, one, nodup, arranged⟩

/-- From two nodes, what is below the second one is found before what stands between them. -/
theorem selectAll_out_of_order :
    (∃ appended, Arena.withCousin.Grown appended ∧ appended.Nodup) ∧ Arena.withCousin.IsAcyclic ∧
      Arena.withCousin.view.Precedes 2 4 ∧ Arena.withCousin.view.Precedes 3 5 ∧
      (∃ after, Gives (selectAll nextOrInside (.nodes [2, 4]) (Options.ofTree Arena.withCousin.view))
        ({ host := () } : Session Unit) [5, 3] after) ∧
      ∃ after, Gives (selectOne nextOrInside (.nodes [2, 4]) (Options.ofTree Arena.withCousin.view))
        ({ host := () } : Session Unit) (some 5) after := by
  obtain ⟨appended, sprouted⟩ := Arena.exists_sprouted_withCousin
  obtain ⟨nodes, found⟩ := Arena.precedes_withCousin
  exact ⟨⟨appended, sprouted.grown, sprouted.once⟩, sprouted.ordered.isAcyclic, nodes, found,
    ⟨_, rfl⟩, ⟨_, rfl⟩⟩

end SelectorList
end SelectorEngine
