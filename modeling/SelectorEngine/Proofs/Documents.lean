import SelectorEngine.Proofs.Ordering
import SelectorEngine.Proofs.Tree.Descent
import SelectorEngine.Proofs.Union.Compiling

/-! Selecting from the document is matching everything in it. A selection is compiled for the document and
goes through elements only, matching is compiled for no node at all; still what is selected are the nodes
below the document that match, in document order, but for those with another document or a text in between. -/
namespace SelectorEngine

variable {σ : Type}

namespace SelectorList

open CompileM

/-- A list that does not refer to the scope selects from the document what is below it, open to it and
matches; the one node that it selects is the first of these. -/
theorem selects_matches_from_document {appended : List Nat} {arena : Arena} (grown : arena.Grown appended)
    (once : appended.Nodup) (acyclic : arena.IsAcyclic) {selectors : SelectorList}
    (unfolded : selectors.uses (· == "icontains") = false)
    (scopeless : ∀ group ∈ selectors, Selector.startsRelative group = false ∧
      ∀ token ∈ group, token.IsScopeless)
    (compiles : Compiles selectors (Options.ofTree arena.view : Options Nat σ) none) :
    ∃ answer, selectors.Matches (Options.ofTree arena.view : Options Nat σ) none answer ∧
      selectors.Selects (.node 0) (Options.ofTree arena.view : Options Nat σ)
        ((arena.descendants 0).filter fun node => arena.isOpen 0 node && answer node) ∧
      ∀ session : Session σ, session.Tidy → ∃ ended,
        Gives (selectors.selectOne (.node 0) (Options.ofTree arena.view)) session
          ((arena.descendants 0).filter fun node => arena.isOpen 0 node && answer node).head? ended := by
  have forest := grown.view_isForest once acyclic
  have bears := grown.view_remembers acyclic
  have fromDocument : Compiles selectors (Options.ofTree arena.view : Options Nat σ) (some (.node 0)) :=
    (compiles_iff rfl rfl compiles.choose).mpr ((compiles_iff rfl rfl compiles.choose).mp compiles)
  obtain ⟨answer, isMatch, isAnswer⟩ := matchesWhere_of_compiles rfl rfl rfl bears unfolded compiles
  obtain ⟨found, selects, sublist, isFound⟩ := exists_selection rfl rfl rfl bears unfolded rfl fromDocument
  -- The document is no element, so nothing is anchored at it and its siblings are not looked at.
  have unanchored : Prepared.anchors (Options.ofTree arena.view : Options Nat σ)
      (some (Scope.fixed (.node 0))) = false := by
    have noElement := Arena.isElement_of_document grown.content_zero
    simp [Prepared.anchors, Prepared.scopeOf, Scope.isUsable, MatchContext.toList, Options.ofTree, noElement]
  have stays : (selectors.any fun group =>
      Selector.startsAmongSiblings (Selector.written false false group)) = false := by
    refine List.any_eq_false.mpr fun group listed => Bool.eq_false_iff.mp ?_
    obtain ⟨absolute, plain⟩ := scopeless group listed
    rw [Selector.written_of_absolute absolute, Selector.startsAmongSiblings_of_scopeless plain]
  let core : Options Nat σ := (Options.ofTree arena.view).core
  have alike : (core.reading depth).someHolds (some (.node 0)) false selectors =
      (core.reading depth).someHolds none false selectors :=
    Reading.someHolds_of_scopeless scopeless fun group listed token member =>
      core.reading_deepens.part_of_scopeless depth _ _ token ((scopeless group listed).2 token member)
  rw [unanchored, stays] at sublist isFound
  have same : found = (arena.descendants 0).filter fun node => arena.isOpen 0 node && answer node := by
    refine forest.eq_of_precedes ?_ ?_ fun node => ?_
    · exact (forest.elementsOnto_precedes _ (forest.children_pairwise 0)).sublist sublist
    · exact ((grown.descendants_pairwise once acyclic 0).imp And.left).filter _
    · rw [isFound, alike, List.mem_filter, grown.mem_descendants once acyclic, Bool.and_eq_true,
        grown.isOpen_iff acyclic, isAnswer]
      refine (and_congr_left' (forest.mem_elementsFrom_children_iff 0 node)).trans ?_
      constructor <;> intro known
      · obtain ⟨⟨element, isBelow, isOpen⟩, holds⟩ := known
        exact ⟨isBelow, isOpen, element, holds⟩
      · obtain ⟨isBelow, isOpen, element, holds⟩ := known
        exact ⟨⟨element, isBelow, isOpen⟩, holds⟩
  subst same
  exact ⟨answer, isMatch, selects, fun session tidy => selects.selectOne tidy⟩

theorem selects_matches_from_document_for_child :
    ∃ answer, Matches [[Selector.tag "b", Selector.child, Selector.tag "c"]]
        (Options.ofTree Arena.withElementsInside.view : Options Nat Unit) none answer ∧
      Selects [[Selector.tag "b", Selector.child, Selector.tag "c"]] (.node 0)
        (Options.ofTree Arena.withElementsInside.view : Options Nat Unit)
        ((Arena.withElementsInside.descendants 0).filter fun node =>
          Arena.withElementsInside.isOpen 0 node && answer node) := by
  obtain ⟨appended, sprouted⟩ := Arena.exists_sprouted_withElementsInside
  have compiles : Compiles [[Selector.tag "b", Selector.child, Selector.tag "c"]]
      (Options.ofTree Arena.withElementsInside.view : Options Nat Unit) none :=
    ⟨{ host := () }, _, _, rfl⟩
  obtain ⟨answer, isMatch, selects, _⟩ := selects_matches_from_document sprouted.grown sprouted.once
    sprouted.ordered.isAcyclic (by decide) (by decide) compiles
  exact ⟨answer, isMatch, selects⟩

/-- Where a document stands inside of an element, what matches below it is not selected. -/
theorem selectAll_overlooks_matches_below_document :
    (∃ appended, Arena.withDocumentInside.Grown appended ∧ appended.Nodup) ∧
      Arena.withDocumentInside.IsAcyclic ∧
      (∀ parent, ∀ child ∈ Arena.withDocumentInside.children parent,
        Arena.withDocumentInside.content? parent = some .document ∨
          Arena.withDocumentInside.view.isElement parent = true) ∧
      (∃ (query : Query Nat Unit) (after : Session Unit),
        Gives (compile [[Selector.universal]] (Options.ofTree Arena.withDocumentInside.view) none)
          { host := () } query after ∧
        (((Arena.withDocumentInside.descendants 0).filterM query.test).run after).1 = [1, 2, 4]) ∧
      ∃ after, Gives (selectAll [[Selector.universal]] (.node 0) (Options.ofTree Arena.withDocumentInside.view))
        ({ host := () } : Session Unit) [1, 2] after := by
  obtain ⟨appended, sprouted⟩ := Arena.exists_sprouted_withDocumentInside
  exact ⟨⟨appended, sprouted.grown, sprouted.once⟩, sprouted.ordered.isAcyclic,
    Arena.above_withDocumentInside, ⟨_, _, rfl, rfl⟩, ⟨_, rfl⟩⟩

end SelectorList
end SelectorEngine
