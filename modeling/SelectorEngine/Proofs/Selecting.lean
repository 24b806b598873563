import SelectorEngine.Proofs.Compile.Documented
import SelectorEngine.Proofs.Compile.Remembering
import SelectorEngine.Proofs.Search.Roots
import SelectorEngine.Proofs.Tree.Growth

/-! Selecting is complete. A selection goes through a part of the tree only, below the node it starts
from, or at and below it and the elements after it; still it finds every element of the whole tree that
the selector list, compiled for that node, matches. -/
namespace SelectorEngine

variable {ν σ : Type}

theorem Query.ensures_selectAll {ledger : Ledger} {query : Query ν σ}
    (governed : query.predicate.toPlan.Governed ledger) (root : MatchContext ν) (options : Options ν σ) :
    ledger.Ensures (query.selectAll root options)
      (· = (options.tree.elementsFrom (searchRoots options root query.reachesSiblings)).filter
        (query.predicate.passes none)) := by
  unfold selectAll
  cases never : query.predicate.isAlwaysFalse with
  | false => exact Ledger.ensures_findAll _ (ensures_test governed) _
  | true =>
    have fails : query.predicate.passes none = fun _ => false := by
      cases found : query.predicate with
      | alwaysFalse => rfl
      | _ =>
        rw [found] at never
        cases never
    rw [fails, List.filter_false]
    exact Ledger.ensures_pure rfl

theorem searchRoots_node_siblings (options : Options ν σ) (node : ν) :
    searchRoots options (.node node) true = options.tree.removeSubsets options.same
      (node :: options.tree.nextSiblings options.same node) := by
  change options.tree.removeSubsets options.same
    ([node] ++ [node].flatMap (options.tree.nextSiblings options.same)) = _
  rw [List.flatMap_singleton]
  rfl

section Roots

variable {options : Options ν σ} (forest : options.tree.IsForest)
  (identity : ∀ first second, options.same first second = true ↔ first = second)
include forest identity

theorem searchRoots_node_pairwise (node : ν) (siblings : Bool) :
    (searchRoots options (.node node) siblings).Pairwise options.tree.Earlier := by
  cases siblings with
  | false => exact forest.children_pairwise node
  | true =>
    obtain ⟨before, after, split, fresh, _⟩ := forest.siblings_split node
    have chosen := options.tree.removeSubsets_sublist options.same
      (node :: options.tree.nextSiblings options.same node)
    rw [← searchRoots_node_siblings, options.tree.nextSiblings_eq identity fresh split] at chosen
    refine (forest.siblings_pairwise node).sublist (chosen.trans ?_)
    rw [split]
    exact (List.filter_sublist.cons_cons node).trans (List.sublist_append_right before _)

theorem mem_searchRoots_node (solid : options.tree.HasSolidInside) {node : ν}
    (isNode : options.tree.isElement node = true) (siblings : Bool) {found : ν}
    (element : options.tree.isElement found = true)
    (inArea : options.tree.InArea siblings node found) :
    found ∈ options.tree.elementsFrom (searchRoots options (.node node) siblings) := by
  cases siblings with
  | false =>
    refine (forest.mem_elementsFrom_children solid node found).mpr ⟨element, ?_⟩
    exact inArea.resolve_right fun further => Bool.false_ne_true further.1
  | true =>
    have isNext (other : ν) : other ∈ options.tree.nextSiblings options.same node ↔ _ :=
      TreeView.mem_nextSiblings forest identity node other
    have elements : ∀ start ∈ node :: options.tree.nextSiblings options.same node,
        options.tree.isElement start = true := by
      intro start member
      rcases List.mem_cons.mp member with rfl | later
      · exact isNode
      · exact ((isNext start).mp later).1
    rw [searchRoots_node_siblings,
      TreeView.mem_elementsFrom_removeSubsets identity forest solid elements found]
    refine ⟨element, ?_⟩
    rcases inArea with isBelow | ⟨_, sibling, isElement, later, inSibling⟩
    · exact ⟨node, List.mem_cons_self, .inr isBelow⟩
    · exact ⟨sibling, List.mem_cons_of_mem _ ((isNext sibling).mpr ⟨isElement, later⟩), inSibling⟩

theorem searchRoots_nodes_apart (nodes : List ν) (siblings : Bool) :
    (searchRoots options (.nodes nodes) siblings).Pairwise options.tree.Apart := by
  cases siblings <;> exact TreeView.removeSubsets_apart identity forest _

theorem mem_searchRoots_nodes (solid : options.tree.HasSolidInside) {nodes : List ν}
    (elements : ∀ node ∈ nodes, options.tree.isElement node = true) (siblings : Bool) {found : ν}
    (element : options.tree.isElement found = true)
    (inNodes : ∃ node ∈ nodes, options.tree.AtOrBelow node found) :
    found ∈ options.tree.elementsFrom (searchRoots options (.nodes nodes) siblings) := by
  obtain ⟨node, isNode, inNode⟩ := inNodes
  cases siblings with
  | false =>
    exact (TreeView.mem_elementsFrom_removeSubsets identity forest solid elements found).mpr
      ⟨element, node, isNode, inNode⟩
  | true =>
    have all : ∀ start ∈ nodes ++ nodes.flatMap (options.tree.nextSiblings options.same),
        options.tree.isElement start = true := by
      intro start member
      rcases List.mem_append.mp member with given | later
      · exact elements start given
      · obtain ⟨_, _, next⟩ := List.mem_flatMap.mp later
        exact (List.mem_filter.mp next).2
    exact (TreeView.mem_elementsFrom_removeSubsets identity forest solid all found).mpr
      ⟨element, node, List.mem_append_left _ isNode, inNode⟩

end Roots

namespace Selector

theorem exists_opening_of_collection {group : Group} (anchorable : IsAnchorable group) :
    ∃ opening kind rest, written true true group = opening :: .combinator kind :: rest ∧
      opening.isScope = true ∧ (kind = .descendantOrSelf ∨ .combinator kind ∈ group) ∧
        ∀ token ∈ rest, token ∈ group := by
  obtain ⟨opening, kind, rest, fronted, isScope, opens, behind⟩ := exists_opening anchorable
  have split : written true true group = widened (opening :: .combinator kind :: rest) := by
    rw [← fronted]
    rfl
  rw [split, widened]
  cases below : startsBelowScope (opening :: .combinator kind :: rest) with
  | true => exact ⟨opening, _, rest, rfl, isScope, .inl rfl, behind⟩
  | false =>
    refine ⟨opening, kind, rest, rfl, isScope, .inr (opens.resolve_left ?_), behind⟩
    intro same
    subst same
    rw [startsBelowScope, isScope] at below
    cases below

end Selector

namespace SelectorList

open CompileM

variable {options : Options ν σ} {selectors : SelectorList} {session after : Session σ}
  {query : Query ν σ}

theorem reachesSiblings_of_compileUnchecked {given : Option (MatchContext ν)}
    (relative : options.flags.relativeSelector = true)
    (compiled : Gives (selectors.compileUnchecked options given) session query after) :
    query.reachesSiblings = selectors.any fun group => Selector.startsAmongSiblings
      (Selector.written false (Prepared.anchors options (given.map Scope.fixed)) group) := by
  rw [Prepared.reachesSiblings_of_compile compiled, Prepared.amongSiblings_prepareGroups _ _ _ relative]
  rfl

section Area

variable (builtin : options.custom = {}) (root : options.root = .alwaysTrue)
  (relative : options.flags.relativeSelector = true) (anchored : options.anchored = true)
  (free : options.context = none) (forest : options.tree.IsForest)
  (identity : ∀ first second, options.same first second = true ↔ first = second)
  (unmentioned : ∀ group ∈ selectors, ∀ token ∈ group, token.mentionsScope = false)

include anchored free in
theorem anchors_of_isUsable {start : MatchContext ν} (usable : start.isUsable options.tree = true) :
    Prepared.anchors options ((some start).map Scope.fixed) = true := by
  rw [Prepared.anchors_eq anchored, free]
  exact usable

include builtin root relative anchored free

theorem exists_holds_of_passes {start : MatchContext ν} (usable : start.isUsable options.tree = true)
    (compiled : Gives (selectors.compileUnchecked options (some start)) session query after) {found : ν}
    (passes : query.predicate.passes none found = true) :
    ∃ group ∈ selectors, (options.core.reading depth).Holds (some start)
      (Selector.written start.isCollection true group) found := by
  rw [passes_compileUnchecked builtin root relative compiled,
    anchors_of_isUsable anchored free usable, free, Reading.someHolds_iff] at passes
  exact passes

include forest identity unmentioned

theorem inArea_of_passes
    (outward : ∀ group ∈ selectors, ∀ kind, .combinator kind ∈ group → kind.isOutward = true)
    {node : ν} (usable : (MatchContext.node node).isUsable options.tree = true)
    (compiled : Gives (selectors.compileUnchecked options (some (.node node))) session query after)
    {found : ν} (element : options.tree.isElement found = true)
    (passes : query.predicate.passes none found = true) :
    options.tree.InArea query.reachesSiblings node found := by
  obtain ⟨group, listed, holds⟩ :=
    exists_holds_of_passes builtin root relative anchored free usable compiled passes
  have wide (starts : Selector.startsAmongSiblings (Selector.written false true group) = true) :
      query.reachesSiblings = true := by
    rw [reachesSiblings_of_compileUnchecked relative compiled,
      anchors_of_isUsable anchored free usable, List.any_eq_true]
    exact ⟨group, listed, starts⟩
  exact Reading.inArea_of_holds (options.core.reading_basis depth) forest identity
    (reading_leads_iff options forest identity depth) (.inr (unmentioned group listed))
    (outward group listed) wide element holds

theorem atOrBelow_of_passes
    (downward : ∀ group ∈ selectors, ∀ kind, .combinator kind ∈ group →
      kind = .descendant ∨ kind = .child)
    {nodes : List ν} (filled : (MatchContext.nodes nodes).toList ≠ [])
    (usable : (MatchContext.nodes nodes).isUsable options.tree = true)
    (compiled : Gives (selectors.compileUnchecked options (some (.nodes nodes))) session query after)
    {found : ν} (element : options.tree.isElement found = true)
    (passes : query.predicate.passes none found = true) :
    ∃ node ∈ nodes, options.tree.AtOrBelow node found := by
  obtain ⟨group, listed, holds⟩ :=
    exists_holds_of_passes builtin root relative anchored free usable compiled passes
  obtain ⟨opening, kind, rest, written, isScope, opens, behind⟩ :=
    Selector.exists_opening_of_collection (.inr (unmentioned group listed))
  have holds : (options.core.reading depth).Holds (some (.nodes nodes))
      (Selector.written true true group) found := holds
  rw [written] at holds
  refine Reading.region_of_holds (fun found => ∃ node ∈ nodes, options.tree.AtOrBelow node found)
    (reading_leads_iff options forest identity depth) isScope (fun start scope _ atScope relates => ?_)
    (fun other member start next _ relates ⟨node, isNode, inNode⟩ => ?_) element holds
  · have isNode : scope ∈ nodes := by
      rw [Reading.atScope_nodes _ filled, options.core.reading_basis, List.any_eq_true] at atScope
      obtain ⟨node, isNode, same⟩ := atScope
      rwa [← (identity node scope).mp same]
    refine ⟨scope, isNode, ?_⟩
    rcases opens with rfl | own
    · rcases relates with rfl | isBelow
      · exact .inl rfl
      · exact .inr isBelow
    · rcases downward group listed kind own with rfl | rfl
      · exact .inr relates
      · exact .inr (.single relates)
  · refine ⟨node, isNode, .inr ?_⟩
    have isBelow : options.tree.Below next start := by
      rcases downward group listed other (behind _ member) with rfl | rfl
      · exact relates
      · exact .single relates
    rcases inNode with rfl | further
    · exact isBelow
    · exact further.trans isBelow

end Area

/-- Whatever was remembered before, the selection from the root has exactly the elements of the tree that
the selector list matches when it is compiled for the root, each once; from one node, they are in
document order. -/
def SelectsMatches (selectors : SelectorList) (root : MatchContext ν) (options : Options ν σ) : Prop :=
  ∀ (session after : Session σ) (query : Query ν σ), session.Tidy →
    Gives (selectors.compile options (some root)) session query after →
      ∃ answer, query.Answers after answer ∧ ∀ other : Session σ, other.Tidy → ∃ found ended,
        Gives (selectors.selectAll root options) other found ended ∧ ended.Tidy ∧ found.Nodup ∧
          (∀ node, node ∈ found ↔ options.tree.isElement node = true ∧ answer node = true) ∧
            (root.isCollection = false → found.Pairwise options.tree.Precedes)

theorem gives_selectAll (builtin : options.custom = {}) (root : options.root = .alwaysTrue)
    (bears : options.tree.Remembers) (unfolded : selectors.uses (· == "icontains") = false)
    {start : MatchContext ν} (tidy : session.Tidy)
    (compiled : Gives (selectors.compileUnchecked options (some start)) session query after) :
    ∃ ended, Gives (selectors.selectAll start options) session
        ((options.tree.elementsFrom (searchRoots options start query.reachesSiblings)).filter
          (query.predicate.passes none)) ended ∧ ended.Tidy := by
  obtain ⟨ledger, grows, governed⟩ := grows_compileUnchecked options builtin root (fun _ => bears)
    (fun _ => unfolded) compiled (Nat.le_refl (session.ledger tidy).bound)
  obtain ⟨found, ended, run, rfl, keeps, supply⟩ :=
    Query.ensures_selectAll governed start options after grows.keeps
  have within : ledger.bound ≤ ended.supply := by
    rw [supply]
    exact grows.within
  exact ⟨ended, gives_bind.mpr ⟨query, after, compiled, gives_lift.mpr run⟩, keeps.tidy within⟩

theorem selectsMatches_of_reached (builtin : options.custom = {}) (root : options.root = .alwaysTrue)
    (relative : options.flags.relativeSelector = true) (forest : options.tree.IsForest)
    (bears : options.tree.Remembers) (unfolded : selectors.uses (· == "icontains") = false)
    {start : MatchContext ν}
    (apart : ∀ siblings, (searchRoots options start siblings).Pairwise options.tree.Apart)
    (ordered : start.isCollection = false →
      ∀ siblings, (searchRoots options start siblings).Pairwise options.tree.Earlier)
    (reached : ∀ (session after : Session σ) (query : Query ν σ),
      Gives (selectors.compileUnchecked options (some start)) session query after →
        ∀ found, options.tree.isElement found = true → query.predicate.passes none found = true →
          found ∈ options.tree.elementsFrom (searchRoots options start query.reachesSiblings)) :
    selectors.SelectsMatches start options := by
  intro session after query tidy compiled
  obtain ⟨ledger, grows, governed⟩ := grows_compile options builtin root (fun _ => bears)
    (fun _ => unfolded) compiled (Nat.le_refl (session.ledger tidy).bound)
  refine ⟨query.predicate.passes none, Query.answers_of_governed grows.keeps grows.within governed,
    fun other otherTidy => ?_⟩
  obtain ⟨unguarded, between, inner, _⟩ := gives_bind.mp compiled
  obtain ⟨unchecked, middle, again, _⟩ := (agree_compileUnchecked options options rfl rfl rfl rfl root
    root builtin selectors (some start)).gives inner other
  obtain ⟨ended, selected, endedTidy⟩ := gives_selectAll builtin root bears unfolded otherTidy again
  refine ⟨_, ended, selected, endedTidy, (forest.elementsOnto_nodup _ (apart _)).filter _,
    fun node => ?_, fun single => (forest.elementsOnto_precedes _ (ordered single _)).filter _⟩
  rw [List.mem_filter, passes_compile builtin root relative compiled,
    passes_compileUnchecked builtin root relative again]
  constructor
  · intro known
    obtain ⟨inArea, holds⟩ := known
    have element := TreeView.isElement_of_mem_elementsFrom inArea
    exact ⟨element, element, holds⟩
  · intro known
    obtain ⟨element, _, holds⟩ := known
    have passes := (passes_compileUnchecked builtin root relative again none node).mpr holds
    exact ⟨reached other middle unchecked again node element passes, holds⟩

section Complete

variable (builtin : options.custom = {}) (root : options.root = .alwaysTrue)
  (relative : options.flags.relativeSelector = true) (anchored : options.anchored = true)
  (free : options.context = none) (forest : options.tree.IsForest)
  (identity : ∀ first second, options.same first second = true ↔ first = second)
  (solid : options.tree.HasSolidInside) (bears : options.tree.Remembers)
  (unfolded : selectors.uses (· == "icontains") = false)
  (unmentioned : ∀ group ∈ selectors, ∀ token ∈ group, token.mentionsScope = false)
include builtin root relative anchored free forest identity solid bears unfolded unmentioned

theorem selectsMatches_node
    (outward : ∀ group ∈ selectors, ∀ kind, .combinator kind ∈ group → kind.isOutward = true) {node : ν}
    (isNode : options.tree.isElement node = true)
    (inside : (options.tree.elementParent node).isSome = true) :
    selectors.SelectsMatches (.node node) options := by
  have usable : (MatchContext.node node).isUsable options.tree = true := by
    simp [MatchContext.isUsable, MatchContext.toList, isNode, inside]
  have siblings := searchRoots_node_pairwise forest identity node
  refine selectsMatches_of_reached builtin root relative forest bears unfolded
    (fun reached => (siblings reached).imp forest.apart_of_earlier) (fun _ => siblings)
    fun session after query compiled found element passes => ?_
  have inArea := inArea_of_passes builtin root relative anchored free forest identity unmentioned
    outward usable compiled element passes
  exact mem_searchRoots_node forest identity solid isNode _ element inArea

theorem selectsMatches_nodes
    (downward : ∀ group ∈ selectors, ∀ kind, .combinator kind ∈ group →
      kind = .descendant ∨ kind = .child)
    {nodes : List ν} (filled : nodes ≠ []) (elements : ∀ node ∈ nodes,
      options.tree.isElement node = true ∧ (options.tree.elementParent node).isSome = true) :
    selectors.SelectsMatches (.nodes nodes) options := by
  have usable : (MatchContext.nodes nodes).isUsable options.tree = true := by
    simpa [MatchContext.isUsable, MatchContext.toList] using elements
  have many : (MatchContext.nodes nodes).isCollection ≠ false := Bool.false_ne_true.symm
  refine selectsMatches_of_reached builtin root relative forest bears unfolded
    (searchRoots_nodes_apart forest identity nodes) (absurd · many)
    fun session after query compiled found element passes => ?_
  have inNodes := atOrBelow_of_passes builtin root relative anchored free forest identity unmentioned
    downward filled usable compiled element passes
  exact mem_searchRoots_nodes forest identity solid (fun node isNode => (elements node isNode).1) _
    element inNodes

end Complete

/-- Without `:scope` and combinators that lead to children, a selection from an element in an element finds
all matches; so does one from a collection of such elements, if all combinators lead downwards. -/
theorem selectsMatches_of_usable {appended : List Nat} {arena : Arena} (grown : arena.Grown appended)
    (once : appended.Nodup) (acyclic : arena.IsAcyclic) (layered : arena.IsLayered)
    (unfolded : selectors.uses (· == "icontains") = false)
    (unmentioned : ∀ group ∈ selectors, ∀ token ∈ group, token.mentionsScope = false) :
    ((∀ group ∈ selectors, ∀ kind, .combinator kind ∈ group → kind.isOutward = true) →
      ∀ node, arena.view.isElement node = true → (arena.view.elementParent node).isSome = true →
        selectors.SelectsMatches (.node node) (Options.ofTree arena.view : Options Nat σ)) ∧
    ((∀ group ∈ selectors, ∀ kind, .combinator kind ∈ group → kind = .descendant ∨ kind = .child) →
      ∀ nodes : List Nat, nodes ≠ [] → (∀ node ∈ nodes, arena.view.isElement node = true ∧
        (arena.view.elementParent node).isSome = true) →
          selectors.SelectsMatches (.nodes nodes) (Options.ofTree arena.view : Options Nat σ)) := by
  have forest := grown.view_isForest once acyclic
  have identity (first second : Nat) : arena.view.same first second = true ↔ first = second :=
    beq_iff_eq
  have bears := grown.view_remembers acyclic
  have solid := layered.hasSolidInside grown
  constructor
  · intro outward node isNode inside
    exact selectsMatches_node rfl rfl rfl rfl rfl forest identity solid bears unfolded unmentioned
      outward isNode inside
  · intro downward nodes filled elements
    exact selectsMatches_nodes rfl rfl rfl rfl rfl forest identity solid bears unfolded unmentioned
      downward filled elements

theorem selectsMatches_of_usable_for_child :
    (∃ (query : Query Nat Unit) (after : Session Unit),
      Gives (compile [[Selector.child, Selector.tag "c"]]
        (Options.ofTree Arena.withElementsInside.view) (some (.node 2))) { host := () } query after) ∧
    SelectsMatches [[Selector.child, Selector.tag "c"]] (.node 2)
      (Options.ofTree Arena.withElementsInside.view : Options Nat Unit) ∧
    SelectsMatches [[Selector.child, Selector.tag "c"]] (.nodes [2])
      (Options.ofTree Arena.withElementsInside.view : Options Nat Unit) := by
  obtain ⟨appended, sprouted⟩ := Arena.exists_sprouted_withElementsInside
  have only (group : Group) (listed : group ∈ [[Selector.child, Selector.tag "c"]]) (kind : Combinator)
      (member : .combinator kind ∈ group) : kind = .child := by
    rw [List.mem_singleton.mp listed] at member
    rcases List.mem_cons.mp member with same | last
    · cases same
      rfl
    · cases List.mem_singleton.mp last
  have both := selectsMatches_of_usable (σ := Unit) sprouted.grown sprouted.once
    sprouted.ordered.isAcyclic Arena.isLayered_withElementsInside
    (by decide : SelectorList.uses (· == "icontains") [[Selector.child, Selector.tag "c"]] = false)
    (by decide)
  exact ⟨⟨_, _, rfl⟩,
    both.1 (fun group listed kind member => only group listed kind member ▸ rfl) 2 rfl rfl,
    both.2 (fun group listed kind member => .inr (only group listed kind member)) [2]
      (List.cons_ne_nil _ _) fun node isNode => List.mem_singleton.mp isNode ▸ ⟨rfl, rfl⟩⟩

/-- Where a document stands inside of an element, what matches below it is not selected. -/
theorem selectAll_overlooks_below_document :
    (∃ appended, Arena.withDocumentInside.Grown appended ∧ appended.Nodup) ∧
      Arena.withDocumentInside.IsAcyclic ∧
      (∀ parent, ∀ child ∈ Arena.withDocumentInside.children parent,
        Arena.withDocumentInside.content? parent = some .document ∨
          Arena.withDocumentInside.view.isElement parent = true) ∧
      Arena.withDocumentInside.view.isElement 2 = true ∧
      (Arena.withDocumentInside.view.elementParent 2).isSome = true ∧
      ¬ SelectsMatches [[Selector.universal]] (.node 2)
        (Options.ofTree Arena.withDocumentInside.view : Options Nat Unit) := by
  obtain ⟨appended, sprouted⟩ := Arena.exists_sprouted_withDocumentInside
  refine ⟨⟨appended, sprouted.grown, sprouted.once⟩, sprouted.ordered.isAcyclic,
    Arena.above_withDocumentInside, rfl, rfl, fun selects => ?_⟩
  have tidy : Session.Tidy ({ host := () } : Session Unit) := Session.tidy_of_empty _ _ _
  obtain ⟨answer, answers, selected⟩ := selects { host := () } _ _ tidy rfl
  obtain ⟨found, ended, given, _, _, complete, _⟩ := selected { host := () } tidy
  have nothing : Gives (SelectorList.selectAll [[Selector.universal]] (.node 2)
      (Options.ofTree Arena.withDocumentInside.view)) ({ host := () } : Session Unit) [] _ := rfl
  obtain ⟨_, run, _⟩ := answers [4]
  have passes : [true] = [answer 4] := congrArg Prod.fst run
  have member := (complete 4).mpr ⟨rfl, (List.cons.inj passes).1.symm⟩
  rw [given.unique nothing] at member
  exact List.not_mem_nil member

end SelectorList
end SelectorEngine
