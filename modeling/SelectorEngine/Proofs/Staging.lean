import SelectorEngine.Proofs.Meaning.Stages
import SelectorEngine.Proofs.Search.Inside
import SelectorEngine.Proofs.Selecting

/-! Selecting in two stages. What a group selects from the document is what its part behind a combinator
selects from the elements that its part before the combinator selects. -/
namespace SelectorEngine

variable {ν σ : Type}

theorem Options.atScope_starts (options : Options ν σ)
    (identity : ∀ first second, options.same first second = true ↔ first = second) (depth : Nat)
    {starts : List ν} (filled : starts ≠ []) (node : ν) :
    (options.core.reading depth).AtScope (some (.nodes starts)) node ↔ node ∈ starts := by
  have nonempty : (MatchContext.nodes starts).toList ≠ [] := filled
  rw [Reading.atScope_nodes _ nonempty, options.core.reading_basis]
  change starts.any (options.same · node) = true ↔ node ∈ starts
  simp [identity]

namespace SelectorList

open CompileM

def Compiles (selectors : SelectorList) (options : Options ν σ) (given : Option (MatchContext ν)) :
    Prop :=
  ∃ session query after, Gives (selectors.compile options given) session query after

/-- Whatever was remembered before, these elements are selected. -/
def Selects (selectors : SelectorList) (root : MatchContext ν) (options : Options ν σ)
    (found : List ν) : Prop :=
  ∀ session : Session σ, session.Tidy → ∃ after,
    Gives (selectors.selectAll root options) session found after ∧ after.Tidy

/-- Some group, as it is anchored at the root, starts among siblings of it. -/
def reachesSiblings (selectors : SelectorList) (tree : TreeView ν) (root : MatchContext ν) : Bool :=
  selectors.any fun group =>
    Selector.startsAmongSiblings (Selector.written false (root.isUsable tree) group)

section Stages

variable {options : Options ν σ} (builtin : options.custom = {}) (root : options.root = .alwaysTrue)
  (relative : options.flags.relativeSelector = true) (bears : options.tree.Remembers)
include builtin root relative bears

/-- A list selects, of the elements that are looked through, those at which some group holds, in their
order. -/
theorem exists_selection {selectors : SelectorList}
    (unfolded : selectors.uses (· == "icontains") = false) {start : MatchContext ν}
    (free : options.context = none) (compiles : Compiles selectors options (some start)) :
    let reached := options.tree.elementsFrom (searchRoots options start
      (selectors.any fun group => Selector.startsAmongSiblings
        (Selector.written false (Prepared.anchors options (some (Scope.fixed start))) group)))
    ∃ found, Selects selectors start options found ∧ found.Sublist reached ∧ ∀ node, node ∈ found ↔
      node ∈ reached ∧ (options.core.reading depth).someHolds (some start)
        (Prepared.anchors options (some (Scope.fixed start))) selectors node := by
  obtain ⟨session, query, after, compiled⟩ := compiles
  obtain ⟨unchecked, between, inner, _⟩ := gives_bind.mp compiled
  refine ⟨(options.tree.elementsFrom (searchRoots options start unchecked.reachesSiblings)).filter
    (unchecked.predicate.passes none), fun other tidy => ?_, ?_, fun node => ?_⟩
  · obtain ⟨counterpart, middle, again, alike, same⟩ := (agree_compileUnchecked options options rfl rfl
      rfl rfl root root builtin selectors (some start)).gives inner other
    obtain ⟨ended, selected, endedTidy⟩ := gives_selectAll builtin root bears unfolded tidy again
    have passes : unchecked.predicate.passes none = counterpart.predicate.passes none :=
      funext (alike.passes none)
    rw [passes, same]
    exact ⟨ended, selected, endedTidy⟩
  · rw [reachesSiblings_of_compileUnchecked relative inner]
    exact List.filter_sublist
  · rw [List.mem_filter, reachesSiblings_of_compileUnchecked relative inner,
      passes_compileUnchecked builtin root relative inner, free]
    rfl

/-- One group selects, of the elements that are looked through, those at which it holds. -/
theorem exists_selects {group : Group} (unfolded : uses (· == "icontains") [group] = false)
    {start : MatchContext ν} (free : options.context = none) {anchors : Bool}
    (anchored : Prepared.anchors options (some (Scope.fixed start)) = anchors)
    (compiles : Compiles [group] options (some start)) :
    ∃ found, Selects [group] start options found ∧ ∀ node, node ∈ found ↔
      node ∈ options.tree.elementsFrom (searchRoots options start
          (Selector.startsAmongSiblings (Selector.written false anchors group))) ∧
        (options.core.reading depth).Holds (some start)
          (Selector.written start.isCollection anchors group) node := by
  obtain ⟨found, selects, -, isFound⟩ := exists_selection builtin root relative bears unfolded free compiles
  refine ⟨found, selects, fun node => ?_⟩
  rw [isFound, anchored, Reading.someHolds_iff]
  simp

end Stages

end SelectorList

namespace Selector

theorem startsAmongSiblings_of_scopeless {group : Group} (scopeless : ∀ token ∈ group, token.IsScopeless) :
    startsAmongSiblings group = false :=
  startsAmongSiblings_of_unmentioned
    (any_mentionsScope_eq_false fun token member => (scopeless token member).1)

/-- A group that starts with a combinator other than the descendant combinator is read from the scope. -/
theorem written_of_relative {kind : Combinator} (relative : kind ≠ .descendant) (collection anchored : Bool)
    (right : Group) : written collection anchored (.combinator kind :: right) =
      scope :: .combinator kind :: right := by
  cases collection <;> cases kind <;> first | rfl | exact absurd rfl relative

end Selector

section Meet

variable {options : Options ν σ} (forest : options.tree.IsForest)
  (identity : ∀ first second, options.same first second = true ↔ first = second)
  {document : ν} (top : options.tree.IsTop document) {kind : Combinator}
  (outward : kind.isOutward = true) {left right : Group}
  (scopeless : ∀ token ∈ left ++ right, token.IsScopeless) (away : .combinator .parent ∉ right)
  {starts : List ν} {depth : Nat} {context : Option (MatchContext ν)}
  (isStart : ∀ node, node ∈ starts ↔ options.tree.IsInside document node ∧
    (options.core.reading depth).Holds context left node)
include forest identity top scopeless isStart

include outward away in
/-- From the document, the whole group leads to where its second part leads from the starts. -/
theorem mem_second_of_holds {found : ν} (inside : options.tree.IsInside document found)
    (holds : (options.core.reading depth).Holds context (left ++ .combinator kind :: right) found) :
    found ∈ options.tree.elementsFrom (searchRoots options (.nodes starts) kind.isSideways) ∧
      (options.core.reading depth).Holds (some (.nodes starts))
        (Selector.scope :: .combinator kind :: right) found := by
  have leads := reading_leads_iff options forest identity depth
  have same := options.core.reading_deepens.map_part_of_scopeless depth context (some (.nodes starts))
    fun token member => scopeless token (List.mem_append_right left member)
  obtain ⟨other, arrives, next, moves, holdsLeft⟩ := (Reading.holds_append left right kind found).mp holds
  have otherInside : options.tree.IsInside document other := by
    refine Reading.stays_of_arrives (options.tree.IsInside document) ?_ arrives inside
    intro step member node upper moves nodeInside
    obtain ⟨element, relates⟩ := (leads step node upper).mp moves
    have notParent : step ≠ .parent := fun same => away (same ▸ member)
    exact TreeView.isInside_of_relates forest top notParent nodeInside element relates
  have nextInside : options.tree.IsInside document next := by
    obtain ⟨element, relates⟩ := (leads kind other next).mp moves
    have notParent : kind ≠ .parent := by
      rintro rfl
      cases outward
    exact TreeView.isInside_of_relates forest top notParent otherInside element relates
  have start := (isStart next).mpr ⟨nextInside, holdsLeft⟩
  have atScope := options.atScope_starts identity depth (List.ne_nil_of_mem start)
  have second : (options.core.reading depth).Holds (some (.nodes starts))
      (Selector.scope :: .combinator kind :: right) found := by
    refine (Reading.holds_append [Selector.scope] right kind found).mpr ⟨other, ?_, next, moves, ?_⟩
    · rwa [same] at arrives
    · exact ⟨(atScope next).mpr start, trivial⟩
  refine ⟨(mem_searchRoots_iff forest identity top (fun node listed => ((isStart node).mp listed).1)
    kind.isSideways found).mpr ⟨inside, ?_⟩, second⟩
  have element := TreeView.isElement_of_mem_elementsFrom inside
  obtain ⟨node, listed, inArea⟩ := Reading.region_of_holds
    (fun node => ∃ start ∈ starts, options.tree.InArea kind.isSideways start node) leads
    (rfl : Selector.scope.isScope = true)
    (fun node scope element isScope relates => ⟨scope, (atScope scope).mp isScope,
      TreeView.inArea_of_relates_scope outward id element relates⟩)
    (fun step member node next element relates reached => by
      obtain ⟨start, listed, inArea⟩ := reached
      have notParent : step ≠ .parent := fun same => away (same ▸ member)
      exact ⟨start, listed, forest.inArea_of_relates notParent element relates inArea⟩) element second
  exact ⟨node, listed, .inr inArea⟩

theorem holds_of_mem_second {found : ν}
    (reached : found ∈ options.tree.elementsFrom (searchRoots options (.nodes starts) kind.isSideways))
    (holds : (options.core.reading depth).Holds (some (.nodes starts))
      (Selector.scope :: .combinator kind :: right) found) :
    options.tree.IsInside document found ∧
      (options.core.reading depth).Holds context (left ++ .combinator kind :: right) found := by
  have same := options.core.reading_deepens.map_part_of_scopeless depth context (some (.nodes starts))
    fun token member => scopeless token (List.mem_append_right left member)
  obtain ⟨inside, node, listed, _⟩ := (mem_searchRoots_iff forest identity top
    (fun node listed => ((isStart node).mp listed).1) kind.isSideways found).mp reached
  obtain ⟨other, arrives, next, moves, isScope, _⟩ :=
    (Reading.holds_append [Selector.scope] right kind found).mp holds
  have start := (options.atScope_starts identity depth (List.ne_nil_of_mem listed) next).mp isScope
  refine ⟨inside, (Reading.holds_append left right kind found).mpr ⟨other, ?_, next, moves, ?_⟩⟩
  · rwa [same]
  · exact ((isStart next).mp start).2

end Meet

namespace SelectorList

open CompileM

section From

variable {options : Options ν σ} (builtin : options.custom = {}) (root : options.root = .alwaysTrue)
  (relative : options.flags.relativeSelector = true) (bears : options.tree.Remembers)
  (free : options.context = none) {group : Group} (unfolded : uses (· == "icontains") [group] = false)
include builtin root relative bears free unfolded

/-- A document is no element, so nothing is anchored at it. -/
theorem exists_selects_from_document {document : ν} (noElement : options.tree.isElement document = false)
    (absolute : Selector.startsRelative group = false) (scopeless : ∀ token ∈ group, token.IsScopeless)
    (compiles : Compiles [group] options (some (.node document))) :
    ∃ found, Selects [group] (.node document) options found ∧ ∀ node, node ∈ found ↔
      options.tree.IsInside document node ∧
        (options.core.reading depth).Holds (some (.node document)) group node := by
  have unanchored : Prepared.anchors options (some (Scope.fixed (.node document))) = false := by
    simp [Prepared.anchors, Prepared.scopeOf, free, Scope.isUsable, MatchContext.toList, noElement]
  have selects := exists_selects builtin root relative bears unfolded free unanchored compiles
  rw [MatchContext.isCollection, Selector.written_of_absolute absolute,
    Selector.startsAmongSiblings_of_scopeless scopeless] at selects
  exact selects

theorem exists_selects_from_starts {kind : Combinator} (absolute : kind ≠ .descendant) {right : Group}
    (stage : group = .combinator kind :: right) {starts : List ν}
    (compiles : Compiles [group] options (some (.nodes starts))) :
    ∃ found, Selects [group] (.nodes starts) options found ∧ ∀ node, node ∈ found ↔
      node ∈ options.tree.elementsFrom (searchRoots options (.nodes starts) kind.isSideways) ∧
        (options.core.reading depth).Holds (some (.nodes starts))
          (Selector.scope :: .combinator kind :: right) node := by
  subst stage
  have selects := exists_selects builtin root relative bears unfolded free rfl compiles
  rw [Selector.written_of_relative absolute, Selector.written_of_relative absolute,
    Selector.startsAmongSiblings_cons_cons] at selects
  simpa [Selector.scope, Selector.pseudo, Token.isScope] using selects

end From

/-- A selection from a document that is inside of nothing can be made in two stages: first of what the
part before a combinator selects, then, from these elements, of what the rest of the group selects. -/
theorem selects_in_two_stages {appended : List Nat} {arena : Arena} (grown : arena.Grown appended)
    (once : appended.Nodup) (acyclic : arena.IsAcyclic) (top : arena.parent 0 = none)
    {left right : Group} {kind : Combinator} (kinds : kind = .child ∨ kind = .sibling ∨ kind = .adjacent)
    (filled : left ≠ []) (absolute : Selector.startsWithCombinator left = false)
    (away : .combinator .parent ∉ right)
    (plain : ∀ token ∈ left ++ right, token.IsScopeless ∧ token.uses (· == "icontains") = false)
    (whole : Compiles [left ++ .combinator kind :: right] (Options.ofTree arena.view : Options Nat σ)
      (some (.node 0)))
    (first : Compiles [left] (Options.ofTree arena.view : Options Nat σ) (some (.node 0))) :
    ∃ found starts,
      Selects [left ++ .combinator kind :: right] (.node 0)
        (Options.ofTree arena.view : Options Nat σ) found ∧
      Selects [left] (.node 0) (Options.ofTree arena.view : Options Nat σ) starts ∧
      (Compiles [.combinator kind :: right] (Options.ofTree arena.view : Options Nat σ)
          (some (.nodes starts)) →
        ∃ others, Selects [.combinator kind :: right] (.nodes starts)
          (Options.ofTree arena.view : Options Nat σ) others ∧
            ∀ node, node ∈ found ↔ node ∈ others) := by
  have forest := grown.view_isForest once acyclic
  have bears := grown.view_remembers acyclic
  have identity (first second : Nat) : arena.view.same first second = true ↔ first = second :=
    beq_iff_eq
  have isTop : arena.view.IsTop 0 := ⟨Arena.isElement_of_document grown.content_zero, top⟩
  have outward : kind.isOutward = true := by
    rcases kinds with rfl | rfl | rfl <;> rfl
  have notDescendant : kind ≠ .descendant := by
    rcases kinds with rfl | rfl | rfl <;> decide
  have scopeless (token : Token) (member : token ∈ left ++ right) : token.IsScopeless :=
    (plain token member).1
  obtain ⟨head, tail, rfl⟩ := List.exists_cons_of_ne_nil filled
  have plainHead (rest : Group) : Selector.startsRelative (head :: rest) = false := by
    cases head <;> first | rfl | cases absolute
  have inLeft (token : Token) (member : token ∈ head :: tail) :=
    plain token (List.mem_append_left right member)
  have inWhole (token : Token) (member : token ∈ head :: tail ++ .combinator kind :: right) :
      token.IsScopeless ∧ token.uses (· == "icontains") = false := by
    rcases List.mem_append.mp member with isLeft | later
    · exact inLeft token isLeft
    · rcases List.mem_cons.mp later with rfl | isRight
      · exact ⟨⟨rfl, rfl⟩, rfl⟩
      · exact plain token (List.mem_append_right (head :: tail) isRight)
  have inSecond (token : Token) (member : token ∈ .combinator kind :: right) :=
    inWhole token (List.mem_append_right (head :: tail) member)
  obtain ⟨found, selects, isFound⟩ := exists_selects_from_document rfl rfl rfl bears rfl
    (uses_singleton fun token member => (inWhole token member).2) isTop.noElement (plainHead _)
    (fun token member => (inWhole token member).1) whole
  obtain ⟨starts, selectsFirst, isStart⟩ := exists_selects_from_document rfl rfl rfl bears rfl
    (uses_singleton fun token member => (inLeft token member).2) isTop.noElement (plainHead _)
    (fun token member => (inLeft token member).1) first
  refine ⟨found, starts, selects, selectsFirst, fun second => ?_⟩
  obtain ⟨others, selectsSecond, isOther⟩ := exists_selects_from_starts rfl rfl rfl bears rfl
    (uses_singleton fun token member => (inSecond token member).2) notDescendant rfl second
  refine ⟨others, selectsSecond, fun node => ?_⟩
  rw [isFound, isOther]
  constructor
  · intro known
    exact mem_second_of_holds forest identity isTop outward scopeless away isStart known.1 known.2
  · intro known
    exact holds_of_mem_second forest identity isTop scopeless isStart known.1 known.2

theorem selects_in_two_stages_for_child :
    Arena.withElementsInside.parent 0 = none ∧
    (∃ (query : Query Nat Unit) (after : Session Unit),
      Gives (compile [.combinator .child :: [Selector.tag "b"]]
        (Options.ofTree Arena.withElementsInside.view) (some (.nodes [1]))) { host := () } query after) ∧
    ∃ found starts,
      Selects [[Selector.tag "a"] ++ .combinator .child :: [Selector.tag "b"]] (.node 0)
        (Options.ofTree Arena.withElementsInside.view : Options Nat Unit) found ∧
      Selects [[Selector.tag "a"]] (.node 0)
        (Options.ofTree Arena.withElementsInside.view : Options Nat Unit) starts ∧
      (Compiles [.combinator .child :: [Selector.tag "b"]]
          (Options.ofTree Arena.withElementsInside.view : Options Nat Unit) (some (.nodes starts)) →
        ∃ others, Selects [.combinator .child :: [Selector.tag "b"]] (.nodes starts)
          (Options.ofTree Arena.withElementsInside.view : Options Nat Unit) others ∧
            ∀ node, node ∈ found ↔ node ∈ others) := by
  obtain ⟨appended, sprouted⟩ := Arena.exists_sprouted_withElementsInside
  have plain : ∀ token ∈ [Selector.tag "a"] ++ [Selector.tag "b"],
      token.IsScopeless ∧ token.uses (· == "icontains") = false := by
    decide
  have whole : Compiles [[Selector.tag "a"] ++ .combinator .child :: [Selector.tag "b"]]
      (Options.ofTree Arena.withElementsInside.view : Options Nat Unit) (some (.node 0)) :=
    ⟨{ host := () }, _, _, rfl⟩
  have first : Compiles [[Selector.tag "a"]]
      (Options.ofTree Arena.withElementsInside.view : Options Nat Unit) (some (.node 0)) :=
    ⟨{ host := () }, _, _, rfl⟩
  exact ⟨rfl, ⟨_, _, rfl⟩, selects_in_two_stages sprouted.grown sprouted.once
    sprouted.ordered.isAcyclic rfl (.inl rfl) (List.cons_ne_nil _ _) rfl (by simp [Selector.tag]) plain
    whole first⟩

/-- Where the document stands inside of an element, the whole group finds an element above the document
that no first stage selects. -/
theorem selects_apart_from_stages :
    (∃ appended, Arena.withDocumentUnder.Grown appended ∧ appended.Nodup) ∧
      Arena.withDocumentUnder.IsAcyclic ∧
      (∀ parent, ∀ child ∈ Arena.withDocumentUnder.children parent,
        Arena.withDocumentUnder.content? parent = some .document ∨
          Arena.withDocumentUnder.view.isElement parent = true) ∧
      (∃ after, Gives (selectAll [[Selector.tag "a", Selector.child, Selector.tag "b",
        Selector.descendant, Selector.tag "c"]] (.node 0)
          (Options.ofTree Arena.withDocumentUnder.view)) ({ host := () } : Session Unit) [3] after) ∧
      (∃ after, Gives (selectAll [[Selector.tag "a"]] (.node 0)
        (Options.ofTree Arena.withDocumentUnder.view)) ({ host := () } : Session Unit) [] after) ∧
      ∃ after, Gives (selectAll [[Selector.child, Selector.tag "b", Selector.descendant,
        Selector.tag "c"]] (.nodes []) (Options.ofTree Arena.withDocumentUnder.view))
          ({ host := () } : Session Unit) [] after :=
  ⟨⟨_, Arena.grown_withDocumentUnder, by decide⟩, Arena.isAcyclic_withDocumentUnder,
    Arena.above_withDocumentUnder, ⟨_, rfl⟩, ⟨_, rfl⟩, ⟨_, rfl⟩⟩

end SelectorList
end SelectorEngine
