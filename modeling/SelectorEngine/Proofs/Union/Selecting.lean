import SelectorEngine.Proofs.Union.Compiling

/-! What a list selects and what its parts select. All groups of a list are looked for in one part of the
tree, and siblings of the root belong to it as soon as one group leads to them. So a list selects what its
parts select, and among the siblings it may select more. -/
namespace SelectorEngine

variable {ν σ : Type}

section Area

variable {options : Options ν σ} (forest : options.tree.IsForest)
  (identity : ∀ first second, options.same first second = true ↔ first = second)
include forest identity

/-- The elements that are looked through. A single node may or may not be among them; what is below a given
node that is no element is not. -/
theorem mem_elementsFrom_searchRoots (solid : options.tree.HasSolidInside) {root : MatchContext ν}
    (siblings : Bool) {found : ν} (single : root.isCollection = false →
      ∀ node ∈ root.toList, options.tree.isElement node = true ∧ found ≠ node) :
    found ∈ options.tree.elementsFrom (searchRoots options root siblings) ↔
      options.tree.isElement found = true ∧
        ((∃ node ∈ root.toList, options.tree.AtOrBelow node found) ∨
          siblings = true ∧ options.tree.Beside root.toList found) ∧
        ∀ node ∈ root.toList, options.tree.AtOrBelow node found → options.tree.isElement node = true := by
  have removed := TreeView.mem_elementsFrom_removeSubsets_iff identity forest solid
  cases siblings with
  | false =>
    simp only [Bool.false_eq_true, false_and, or_false]
    cases root with
    | node only =>
      obtain ⟨element, differs⟩ := single rfl only (List.mem_singleton_self only)
      refine (forest.mem_elementsFrom_children solid only found).trans (and_congr_right fun _ => ?_)
      simp [MatchContext.toList, TreeView.AtOrBelow, differs, element]
    | nodes nodes => exact removed nodes found
  | true =>
    have roots : searchRoots options root true = options.tree.removeSubsets options.same
        (root.toList ++ root.toList.flatMap (options.tree.nextSiblings options.same)) := by
      cases root <;> rfl
    have isNext (node other : ν) : other ∈ options.tree.nextSiblings options.same node ↔
        options.tree.isElement other = true ∧ options.tree.Earlier node other :=
      TreeView.mem_nextSiblings forest identity node other
    rw [roots, removed]
    simp only [List.mem_append, List.mem_flatMap, isNext, TreeView.Beside, true_and]
    grind

end Area

namespace SelectorList

open CompileM

theorem reachesSiblings_append (tree : TreeView ν) (root : MatchContext ν) (first second : SelectorList) :
    (first ++ second).reachesSiblings tree root =
      (first.reachesSiblings tree root || second.reachesSiblings tree root) :=
  List.any_append

/-- What two lists select and match, and what the list of all their groups does. -/
structure Selections (first second : SelectorList) (root : MatchContext ν) (options : Options ν σ)
    (firsts seconds found : List ν) (answer other : ν → Bool) : Prop where
  selectsFirst : Selects first root options firsts
  selectsSecond : Selects second root options seconds
  selectsBoth : Selects (first ++ second) root options found
  matchesFirst : first.Matches options (some root) answer
  matchesSecond : second.Matches options (some root) other
  matchesBoth : (first ++ second).Matches options (some root) fun node => answer node || other node

/-- All combinators lead away from the root, or, if there are several nodes, down from it. -/
def LeadsFrom (selectors : SelectorList) : MatchContext ν → Prop
  | .node _ => ∀ group ∈ selectors, ∀ kind, .combinator kind ∈ group → kind.isOutward = true
  | .nodes nodes => nodes ≠ [] ∧ ∀ group ∈ selectors, ∀ kind, .combinator kind ∈ group →
      kind = .descendant ∨ kind = .child

theorem LeadsFrom.part {selectors others : SelectorList} {root : MatchContext ν}
    (leads : selectors.LeadsFrom root) (part : ∀ group ∈ others, group ∈ selectors) :
    others.LeadsFrom root := by
  cases root with
  | node only => exact fun group listed => leads group (part group listed)
  | nodes nodes => exact ⟨leads.1, fun group listed => leads.2 group (part group listed)⟩

theorem Selects.mem_iff {selectors : SelectorList} {root : MatchContext ν} {options : Options ν σ}
    {found : List ν} {answer : ν → Bool} (selects : Selects selectors root options found)
    (matching : selectors.Matches options (some root) answer) (complete : selectors.SelectsMatches root options)
    (host : σ) (node : ν) :
    node ∈ found ↔ options.tree.isElement node = true ∧ answer node = true := by
  obtain ⟨session, tidy, made⟩ := options.root.exists_madeBefore host
  obtain ⟨query, after, compiled, answers⟩ := matching session tidy made
  obtain ⟨other, others, selected⟩ := complete _ after query tidy compiled
  obtain ⟨all, _, given, _, _, members, _⟩ := selected _ tidy
  obtain ⟨_, same, _⟩ := selects _ tidy
  rw [same.unique given, members, answers.unique others]

section Solid

variable {options : Options ν σ} (builtin : options.custom = {}) (rooted : options.root = .alwaysTrue)
  (relative : options.flags.relativeSelector = true) (anchored : options.anchored = true)
  (free : options.context = none) (forest : options.tree.IsForest)
  (identity : ∀ first second, options.same first second = true ↔ first = second)
  (solid : options.tree.HasSolidInside) (bears : options.tree.Remembers)
include builtin rooted relative anchored free forest identity solid bears

theorem selectsMatches_of_leadsFrom {selectors : SelectorList}
    (unfolded : selectors.uses (· == "icontains") = false)
    (unmentioned : ∀ group ∈ selectors, ∀ token ∈ group, token.mentionsScope = false)
    {root : MatchContext ν} (usable : root.isUsable options.tree = true)
    (leads : selectors.LeadsFrom root) : selectors.SelectsMatches root options := by
  have each (node : ν) (listed : node ∈ root.toList) :
      options.tree.isElement node = true ∧ (options.tree.elementParent node).isSome = true := by
    simpa [MatchContext.isUsable] using List.all_eq_true.mp usable node listed
  cases root with
  | node only =>
    obtain ⟨element, inside⟩ := each only (List.mem_singleton_self only)
    exact selectsMatches_node builtin rooted relative anchored free forest identity solid bears unfolded
      unmentioned leads element inside
  | nodes nodes =>
    exact selectsMatches_nodes builtin rooted relative anchored free forest identity solid bears unfolded
      unmentioned leads.2 leads.1 each

end Solid

section Default

variable {options : Options ν σ} (builtin : options.custom = {}) (rooted : options.root = .alwaysTrue)
  (relative : options.flags.relativeSelector = true) (anchored : options.anchored = true)
  (free : options.context = none) (bears : options.tree.Remembers) {root : MatchContext ν}
include builtin rooted relative anchored free bears

/-- Of the elements that are looked through, a list selects those that it matches. -/
theorem exists_selection_of_matches {selectors : SelectorList}
    (unfolded : selectors.uses (· == "icontains") = false)
    (compiles : Compiles selectors options (some root)) :
    ∃ found answer, Selects selectors root options found ∧
      selectors.Matches options (some root) answer ∧
      (∀ node, node ∈ found ↔ node ∈ options.tree.elementsFrom
        (searchRoots options root (selectors.reachesSiblings options.tree root)) ∧ answer node = true) ∧
      ∀ node, answer node = true ↔ options.tree.isElement node = true ∧
        (options.core.reading depth).someHolds (some root) (root.isUsable options.tree) selectors node := by
  obtain ⟨found, selects, -, isFound⟩ := exists_selection builtin rooted relative bears unfolded free compiles
  obtain ⟨answer, matching, answers⟩ := matchesWhere_of_compiles builtin rooted relative bears unfolded compiles
  have anchors : Prepared.anchors options (some (Scope.fixed root)) = root.isUsable options.tree := by
    have eq := Prepared.anchors_eq anchored (some root)
    rw [free] at eq
    exact eq
  refine ⟨found, answer, selects, matching, fun node => ?_, fun node => ?_⟩
  · rw [isFound, answers, free, anchors]
    refine and_congr_right fun inArea => ?_
    rw [← anchors]
    exact (and_iff_right (TreeView.isElement_of_mem_elementsFrom inArea)).symm
  · rw [answers, free, ← anchors]
    rfl

variable {first second : SelectorList}

/-- All groups are looked for in one area, and there is selected what one of the lists matches. -/
theorem exists_selections (unfolded : (first ++ second).uses (· == "icontains") = false)
    (compilesFirst : Compiles first options (some root))
    (compilesSecond : Compiles second options (some root)) :
    ∃ firsts seconds found answer other,
      Selections first second root options firsts seconds found answer other ∧
      (∀ node, answer node = true ∨ other node = true → options.tree.isElement node = true) ∧
      ∀ node, let reached siblings := node ∈ options.tree.elementsFrom (searchRoots options root siblings)
        (node ∈ firsts ↔ reached (first.reachesSiblings options.tree root) ∧ answer node = true) ∧
        (node ∈ seconds ↔ reached (second.reachesSiblings options.tree root) ∧ other node = true) ∧
        (node ∈ found ↔ reached ((first ++ second).reachesSiblings options.tree root) ∧
          (answer node = true ∨ other node = true)) := by
  obtain ⟨unfoldedFirst, unfoldedSecond⟩ : first.uses (· == "icontains") = false ∧
      second.uses (· == "icontains") = false := by
    simpa [uses_append] using unfolded
  have compiles := (compiles_append_iff builtin rooted first second).mpr ⟨compilesFirst, compilesSecond⟩
  obtain ⟨firsts, answer, selectsFirst, matchesFirst, isFirst, holdsFirst⟩ :=
    exists_selection_of_matches builtin rooted relative anchored free bears unfoldedFirst compilesFirst
  obtain ⟨seconds, other, selectsSecond, matchesSecond, isSecond, holdsSecond⟩ :=
    exists_selection_of_matches builtin rooted relative anchored free bears unfoldedSecond compilesSecond
  obtain ⟨found, either, selectsBoth, matchesBoth, isFound, holdsBoth⟩ :=
    exists_selection_of_matches builtin rooted relative anchored free bears unfolded compiles
  have eithers (node : ν) : either node = true ↔ answer node = true ∨ other node = true := by
    rw [holdsBoth, holdsFirst, holdsSecond, Reading.someHolds_append, and_or_left]
  obtain rfl : either = fun node => answer node || other node := by
    funext node
    rw [Bool.eq_iff_iff, eithers, Bool.or_eq_true]
  refine ⟨firsts, seconds, found, answer, other, ⟨selectsFirst, selectsSecond, selectsBoth, matchesFirst,
    matchesSecond, matchesBoth⟩, fun node passes => ((holdsBoth node).mp ((eithers node).mpr passes)).1,
    fun node => ⟨isFirst node, isSecond node, ?_⟩⟩
  rw [isFound, eithers]

end Default

/-- A list selects what its two parts select, if both or none of them lead to siblings of the root; or if
they mention no scope and lead away from a root inside of an element. In general it may select more: where
one part leads to the siblings, what the other one matches there is selected too. -/
theorem selectAll_append {appended : List Nat} {arena : Arena} (grown : arena.Grown appended)
    (once : appended.Nodup) (acyclic : arena.IsAcyclic) {first second : SelectorList}
    (unfolded : (first ++ second).uses (· == "icontains") = false) {root : MatchContext Nat}
    (compilesFirst : Compiles first (Options.ofTree arena.view : Options Nat σ) (some root))
    (compilesSecond : Compiles second (Options.ofTree arena.view : Options Nat σ) (some root)) :
    ∃ firsts seconds found answer other,
      Selections first second root (Options.ofTree arena.view : Options Nat σ) firsts seconds found
        answer other ∧
      (first.reachesSiblings arena.view root = second.reachesSiblings arena.view root →
        ∀ node, node ∈ found ↔ node ∈ firsts ∨ node ∈ seconds) ∧
      (arena.IsLayered → ∀ node, (root.isCollection = false →
          ∀ start ∈ root.toList, arena.view.isElement start = true ∧ node ≠ start) →
        (node ∈ found ↔ node ∈ firsts ∨ node ∈ seconds ∨
          (first ++ second).reachesSiblings arena.view root = true ∧
            arena.view.Beside root.toList node ∧ (answer node = true ∨ other node = true) ∧
              ∀ start ∈ root.toList, arena.view.AtOrBelow start node →
                arena.view.isElement start = true)) ∧
      (arena.IsLayered → root.isUsable arena.view = true → (first ++ second).LeadsFrom root →
        (∀ group ∈ first ++ second, ∀ token ∈ group, token.mentionsScope = false) →
          ∀ node, node ∈ found ↔ node ∈ firsts ∨ node ∈ seconds) := by
  have forest : (Options.ofTree arena.view : Options Nat σ).tree.IsForest :=
    grown.view_isForest once acyclic
  have identity (first second : Nat) : arena.view.same first second = true ↔ first = second :=
    beq_iff_eq
  have bears := grown.view_remembers acyclic
  obtain ⟨firsts, seconds, found, answer, other, selections, elements, members⟩ :=
    exists_selections rfl rfl rfl rfl rfl bears unfolded compilesFirst compilesSecond
  simp only [Options.ofTree_tree] at elements members
  refine ⟨firsts, seconds, found, answer, other, selections, fun same node => ?_,
    fun layered node single => ?_, fun layered usable leads unmentioned node => ?_⟩
  · obtain ⟨isFirst, isSecond, isFound⟩ := members node
    rw [isFound, isFirst, isSecond, reachesSiblings_append, same, Bool.or_self, and_or_left]
  · obtain ⟨isFirst, isSecond, isFound⟩ := members node
    have inArea (siblings : Bool) := mem_elementsFrom_searchRoots forest identity
      (layered.hasSolidInside grown) siblings single
    simp only [Options.ofTree_tree] at inArea
    rw [isFound, isFirst, isSecond, inArea, inArea, inArea, reachesSiblings_append, Bool.or_eq_true]
    grind
  · have complete {selectors : SelectorList} (part : ∀ group ∈ selectors, group ∈ first ++ second)
        (plain : selectors.uses (· == "icontains") = false) :
        selectors.SelectsMatches root (Options.ofTree arena.view : Options Nat σ) :=
      selectsMatches_of_leadsFrom rfl rfl rfl rfl rfl forest identity (layered.hasSolidInside grown) bears
        plain (fun group listed => unmentioned group (part group listed)) usable (leads.part part)
    have host : σ := compilesFirst.choose.host
    rw [selections.selectsBoth.mem_iff selections.matchesBoth (complete (fun _ => id) unfolded) host,
      selections.selectsFirst.mem_iff selections.matchesFirst
        (complete (fun _ => List.mem_append_left second) ?_) host,
      selections.selectsSecond.mem_iff selections.matchesSecond
        (complete (fun _ => List.mem_append_right first) ?_) host, Bool.or_eq_true, and_or_left]
    all_goals
      rw [uses_append, Bool.or_eq_false_iff] at unfolded
      simp [unfolded]

theorem selectAll_append_for_two_tags : ∃ firsts seconds found answer other,
    Selections [[Selector.tag "b"]] [[Selector.tag "c"]] (.node 0)
      (Options.ofTree Arena.withElementsInside.view : Options Nat Unit) firsts seconds found answer other ∧
    ∀ node, node ∈ found ↔ node ∈ firsts ∨ node ∈ seconds := by
  obtain ⟨appended, sprouted⟩ := Arena.exists_sprouted_withElementsInside
  have compiles (name : String) : Compiles [[Selector.tag name]]
      (Options.ofTree Arena.withElementsInside.view : Options Nat Unit) (some (.node 0)) :=
    ⟨{ host := () }, _, _, rfl⟩
  obtain ⟨firsts, seconds, found, answer, other, selections, union, _⟩ := selectAll_append sprouted.grown
    sprouted.once sprouted.ordered.isAcyclic (by decide) (compiles "b") (compiles "c")
  exact ⟨firsts, seconds, found, answer, other, selections, union rfl⟩

/-- Neither list selects anything from the second element; together, as one of them leads to siblings, they
select the siblings that the other one matches. -/
theorem selectAll_append_finds_siblings :
    (∃ appended, Arena.withCousin.Grown appended ∧ appended.Nodup) ∧ Arena.withCousin.IsAcyclic ∧
      (∃ after, Gives (selectAll [[Selector.noneOf [[Selector.scope]]]] (.node 2)
        (Options.ofTree Arena.withCousin.view)) ({ host := () } : Session Unit) [] after) ∧
      (∃ after, Gives (selectAll [[Selector.adjacent, Selector.tag "c"]] (.node 2)
        (Options.ofTree Arena.withCousin.view)) ({ host := () } : Session Unit) [] after) ∧
      ∃ after, Gives (selectAll ([[Selector.noneOf [[Selector.scope]]]] ++
        [[Selector.adjacent, Selector.tag "c"]]) (.node 2) (Options.ofTree Arena.withCousin.view))
          ({ host := () } : Session Unit) [3, 4, 5] after := by
  obtain ⟨appended, sprouted⟩ := Arena.exists_sprouted_withCousin
  exact ⟨⟨appended, sprouted.grown, sprouted.once⟩, sprouted.ordered.isAcyclic, ⟨_, rfl⟩, ⟨_, rfl⟩,
    ⟨_, rfl⟩⟩

end SelectorList
end SelectorEngine
