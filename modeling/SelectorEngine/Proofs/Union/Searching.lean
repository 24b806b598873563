import SelectorEngine.Proofs.Scoping
import SelectorEngine.Proofs.Search.Order
import SelectorEngine.Proofs.Union.Compiling

/-! Arguments of `:has()` put together. The argument is looked for as a whole: if one group leads to siblings
of the node, all are looked for among the siblings. Below the node, each group is found as if it were alone. -/
namespace SelectorEngine

variable {ν σ : Type}

namespace Selector

theorem isRelative_append (first second : SelectorList) :
    isRelative (first ++ second) = (isRelative first || isRelative second) := List.any_append

theorem reachesSiblings_append (first second : SelectorList) :
    reachesSiblings (first ++ second) = (reachesSiblings first || reachesSiblings second) := by
  rw [Bool.eq_iff_iff, Bool.or_eq_true]
  simp only [reachesSiblings_iff, List.mem_append, or_and_right, exists_or]

/-- The argument of `:has()` is read with the node as the scope, or does not depend on it. -/
def KeepsScope (groups : SelectorList) : Prop :=
  isRelative groups = true ∨ ∀ group ∈ groups, ∀ token ∈ group, token.asksAfar = false

theorem KeepsScope.append {first second : SelectorList} (keepsFirst : KeepsScope first)
    (keepsSecond : KeepsScope second) : KeepsScope (first ++ second) := by
  unfold KeepsScope
  rw [isRelative_append, Bool.or_eq_true]
  rcases keepsFirst with relative | near
  · exact .inl (.inl relative)
  · rcases keepsSecond with relative | nearSecond
    · exact .inl (.inr relative)
    · refine .inr fun group listed => ?_
      rcases List.mem_append.mp listed with inFirst | inSecond
      · exact near group inFirst
      · exact nearSecond group inSecond

end Selector

namespace TreeView

variable {tree : TreeView ν} {node found : ν}

/-- The search comes to the element from an element that stands behind the node. -/
def VisitsBehind (tree : TreeView ν) (node found : ν) : Prop :=
  ∃ start, tree.isElement start = true ∧ tree.Earlier node start ∧
    Relation.ReflTransGen tree.ElementChild start found

theorem visits_iff (siblings : Prop) : tree.Visits siblings node found ↔
    tree.Visits False node found ∨ siblings ∧ tree.VisitsBehind node found := by
  unfold Visits VisitsBehind Earlier
  grind

/-- What is asked for in two searches is found by one of them, or, by the search for both, among siblings. -/
theorem exists_visits_or {sideways besides : Prop} {wanted asked : ν → Prop} :
    (∃ found, tree.Visits (sideways ∨ besides) node found ∧ (wanted found ∨ asked found)) ↔
      (∃ found, tree.Visits sideways node found ∧ wanted found) ∨
      (∃ found, tree.Visits besides node found ∧ asked found) ∨
      (sideways ∨ besides) ∧ ∃ found, tree.VisitsBehind node found ∧ (wanted found ∨ asked found) := by
  have within {siblings : Prop} {found : ν} (visits : tree.Visits False node found) :
      tree.Visits siblings node found := (visits_iff siblings).mpr (.inl visits)
  have wider {siblings : Prop} (implies : siblings → sideways ∨ besides) {found : ν}
      (visits : tree.Visits siblings node found) : tree.Visits (sideways ∨ besides) node found := by
    rcases (visits_iff siblings).mp visits with below | ⟨reached, behind⟩
    · exact within below
    · exact (visits_iff _).mpr (.inr ⟨implies reached, behind⟩)
  constructor
  · intro known
    obtain ⟨found, visits, either⟩ := known
    rcases (visits_iff _).mp visits with below | ⟨reached, behind⟩
    · rcases either with first | second
      · exact .inl ⟨found, within below, first⟩
      · exact .inr (.inl ⟨found, within below, second⟩)
    · exact .inr (.inr ⟨reached, found, behind, either⟩)
  · intro known
    rcases known with ⟨found, visits, first⟩ | ⟨found, visits, second⟩ | ⟨reached, found, behind, either⟩
    · exact ⟨found, wider .inl visits, .inl first⟩
    · exact ⟨found, wider .inr visits, .inr second⟩
    · exact ⟨found, (visits_iff _).mpr (.inr ⟨reached, behind⟩), either⟩

theorem VisitsBehind.isElement (behind : tree.VisitsBehind node found) : tree.isElement found = true := by
  obtain ⟨start, element, _, way⟩ := behind
  exact isElement_of_way element way

theorem VisitsBehind.not_below (forest : tree.IsForest) (behind : tree.VisitsBehind node found) :
    ¬ tree.Below node found := by
  obtain ⟨start, _, earlier, way⟩ := behind
  intro isBelow
  exact (forest.apart_of_earlier earlier).ne (.inr isBelow) (forest.below_of_way way) rfl

end TreeView

namespace Basis

/-- `:has()` looks for the argument among siblings. -/
def SearchesSiblings (basis : Basis ν) (groups : SelectorList) : Prop :=
  Selector.reachesSiblings groups = true ∧ ¬ basis.KnowsArgument groups

/-- `:has()` overlooks siblings: a group leads to them, but the argument is known to match everything. -/
def OverlooksSiblings (basis : Basis ν) (groups : SelectorList) : Prop :=
  Selector.reachesSiblings groups = true ∧ basis.KnowsArgument groups

/-- An argument with a group that is known to match everything is known to match everything. -/
private theorem knowsArgument_of_subset {basis : Basis ν} {groups others : SelectorList}
    (relative : Selector.isRelative groups = true) (knows : basis.KnowsArgument groups)
    (part : ∀ group ∈ groups, group ∈ others) (accepted : (Finding.choice
      (Token.surveyGroups basis.outlook (Selector.isRelative others) others)).refused = false) :
    basis.KnowsArgument others := by
  have alsoRelative : Selector.isRelative others = true := by
    obtain ⟨group, listed, combines⟩ := List.any_eq_true.mp relative
    exact List.any_eq_true.mpr ⟨group, part group listed, combines⟩
  have verdict := congrArg Finding.verdict knows
  rw [relative, Finding.verdict_choice_eq_always_iff, Token.surveyGroups_eq_map] at verdict
  obtain ⟨finding, listed, always⟩ := verdict
  obtain ⟨group, inGroups, rfl⟩ := List.mem_map.mp listed
  rw [alsoRelative] at accepted
  have found : (Finding.choice (Token.surveyGroups basis.outlook true others)).verdict = .always := by
    rw [Finding.verdict_choice_eq_always_iff, Token.surveyGroups_eq_map]
    exact ⟨_, List.mem_map_of_mem (part group inGroups), always⟩
  rw [KnowsArgument, alsoRelative]
  exact congrArg₂ Finding.mk found accepted

theorem OverlooksSiblings.of_subset {basis : Basis ν} {groups others : SelectorList}
    (overlooks : basis.OverlooksSiblings groups) (part : ∀ group ∈ groups, group ∈ others)
    (accepted : (Finding.choice
      (Token.surveyGroups basis.outlook (Selector.isRelative others) others)).refused = false) :
    basis.OverlooksSiblings others := by
  obtain ⟨reaches, knows⟩ := overlooks
  obtain ⟨relative, _⟩ := Bool.and_eq_true_iff.mp reaches
  obtain ⟨group, listed, starts⟩ := (Selector.reachesSiblings_iff groups).mp reaches
  exact ⟨(Selector.reachesSiblings_iff others).mpr ⟨group, part group listed, starts⟩,
    knowsArgument_of_subset relative knows part accepted⟩

/-- A group that leads nowhere but away from the scope holds among siblings only if it leads to them. -/
theorem startsAmongSiblings_of_behind {basis : Basis ν} (forest : basis.tree.IsForest)
    (identity : ∀ first second, basis.same first second = true ↔ first = second) {depth : Nat}
    {group : Group} (anchorable : Selector.IsAnchorable group)
    (outward : ∀ kind, .combinator kind ∈ group → kind.isOutward = true) {node found : ν}
    (behind : basis.tree.VisitsBehind node found)
    (holds : (basis.visited depth).Holds (some (.node node)) (Selector.written false true group) found) :
    Selector.startsAmongSiblings (Selector.written false true group) = true := by
  by_contra stays
  have inArea : basis.tree.InArea false node found :=
    Reading.inArea_of_holds (basis.visited_basis depth) forest identity (basis.visited_leads depth)
      anchorable outward (absurd · stays) behind.isElement holds
  exact behind.not_below forest (inArea.resolve_right fun among => Bool.false_ne_true among.1)

end Basis

section Has

variable (options : Options ν σ) (builtin : options.custom = {}) (session : Session σ)
include builtin session

theorem Options.holds_has_iff_searched (groups : SelectorList) (node : ν) :
    (options.core.reading SelectorList.depth).Holds none [.subselect "has" groups] node ↔
      ∃ found siblings, (siblings = true ↔ options.toBasis.SearchesSiblings groups) ∧
        found ∈ Subselect.searchArea options.toBasis siblings node ∧
          (options.core.reading SelectorList.depth).someHolds
            (if Selector.isRelative groups then some (.node node) else none)
            (Selector.isRelative groups) groups found := by
  have coreBuiltin : options.core.custom = {} := builtin
  have known : options.core.isKnown SelectorList.depth groups ↔ options.toBasis.KnowsArgument groups :=
    Options.isKnown_iff coreBuiltin rfl session fun _ _ token _ => token.expandsWithin
  rw [Reading.holds_has_iff, options.core.reading_relative]
  apply exists_congr
  intro found
  rw [options.core.reading_searched, known]
  constructor
  · intro searched
    obtain ⟨⟨siblings, inArea, chosen⟩, holds⟩ := searched
    exact ⟨siblings, chosen, inArea, holds⟩
  · intro searched
    obtain ⟨siblings, chosen, inArea, holds⟩ := searched
    exact ⟨⟨siblings, inArea, chosen⟩, holds⟩

/-- Two arguments that are read and looked for alike are found together as they are found alone. -/
theorem Options.holds_has_append_of_alike {first second : SelectorList}
    (relative : Selector.isRelative first = Selector.isRelative second)
    (searchFirst : options.toBasis.SearchesSiblings first ↔
      options.toBasis.SearchesSiblings (first ++ second))
    (searchSecond : options.toBasis.SearchesSiblings second ↔
      options.toBasis.SearchesSiblings (first ++ second)) (node : ν) :
    (options.core.reading SelectorList.depth).Holds none [.subselect "has" (first ++ second)] node ↔
      (options.core.reading SelectorList.depth).Holds none [.subselect "has" first] node ∨
        (options.core.reading SelectorList.depth).Holds none [.subselect "has" second] node := by
  simp only [options.holds_has_iff_searched builtin session, searchFirst, searchSecond,
    Selector.isRelative_append, relative, Bool.or_self, Reading.someHolds_append, and_or_left, exists_or]

variable (forest : options.tree.IsForest)
  (identity : ∀ first second, options.same first second = true ↔ first = second)
include forest identity

theorem Options.holds_has_iff_visits {groups : SelectorList} (keeps : Selector.KeepsScope groups)
    (searched : ¬ options.toBasis.OverlooksSiblings groups) {node : ν}
    (element : options.tree.isElement node = true) :
    (options.core.reading SelectorList.depth).Holds none [.subselect "has" groups] node ↔
      ∃ found, options.tree.Visits (∃ group ∈ groups,
          Selector.startsAmongSiblings (Selector.written false true group) = true) node found ∧
        ∃ group ∈ groups, (options.toBasis.visited SelectorList.depth).Holds (some (.node node))
          (Selector.written false true group) found :=
  (options.holds_has_iff_visited builtin forest identity session groups node).trans
    (Basis.exists_visited_iff forest identity SelectorList.depth keeps searched element)

variable {first second : SelectorList} (keepsFirst : Selector.KeepsScope first)
  (keepsSecond : Selector.KeepsScope second) (accepted : (Finding.choice (Token.surveyGroups
    options.toBasis.outlook (Selector.isRelative (first ++ second)) (first ++ second))).refused = false)
  (searched : ¬ options.toBasis.OverlooksSiblings (first ++ second)) {node : ν}
  (element : options.tree.isElement node = true)
include keepsFirst keepsSecond accepted searched element

/-- Two arguments are found together where one of them is found alone; and, if one of them leads to siblings,
where either is found from there. -/
theorem Options.holds_has_append :
    (options.core.reading SelectorList.depth).Holds none [.subselect "has" (first ++ second)] node ↔
      (options.core.reading SelectorList.depth).Holds none [.subselect "has" first] node ∨
      (options.core.reading SelectorList.depth).Holds none [.subselect "has" second] node ∨
      Selector.reachesSiblings (first ++ second) = true ∧ ∃ found, options.tree.VisitsBehind node found ∧
        ∃ group ∈ first ++ second, (options.toBasis.visited SelectorList.depth).Holds
          (some (.node node)) (Selector.written false true group) found := by
  have visits {groups : SelectorList} (keeps : Selector.KeepsScope groups)
      (part : ∀ group ∈ groups, group ∈ first ++ second) :=
    options.holds_has_iff_visits builtin session forest identity keeps
      (fun overlooks => searched (overlooks.of_subset part accepted)) element
  have split (wanted : Group → Prop) : (∃ group ∈ first ++ second, wanted group) ↔
      (∃ group ∈ first, wanted group) ∨ ∃ group ∈ second, wanted group := by
    simp only [List.mem_append, or_and_right, exists_or]
  rw [visits (keepsFirst.append keepsSecond) fun _ => id, visits keepsFirst fun _ => List.mem_append_left _,
    visits keepsSecond fun _ => List.mem_append_right _, Selector.reachesSiblings_iff]
  simp only [split]
  exact TreeView.exists_visits_or

/-- Nothing more is found if the arguments both lead to siblings or both do not; or if what a group finds
among siblings it finds because it leads there itself. -/
theorem Options.holds_has_append_of_outward
    (alike : Selector.reachesSiblings first = Selector.reachesSiblings second ∨
      ∀ group ∈ first ++ second, Selector.IsAnchorable group ∧
        ∀ kind, .combinator kind ∈ group → kind.isOutward = true) :
    (options.core.reading SelectorList.depth).Holds none [.subselect "has" (first ++ second)] node ↔
      (options.core.reading SelectorList.depth).Holds none [.subselect "has" first] node ∨
        (options.core.reading SelectorList.depth).Holds none [.subselect "has" second] node := by
  rw [options.holds_has_append builtin session forest identity keepsFirst keepsSecond accepted searched
    element, ← or_assoc]
  refine or_iff_left_of_imp fun known => ?_
  obtain ⟨reaches, found, behind, group, listed, holds⟩ := known
  have leads : (Selector.reachesSiblings first = true ∧ Selector.reachesSiblings second = true) ∨
      Selector.startsAmongSiblings (Selector.written false true group) = true := by
    rcases alike with same | outward
    · rw [Selector.reachesSiblings_append, same, Bool.or_self] at reaches
      exact .inl ⟨same.trans reaches, reaches⟩
    · obtain ⟨anchorable, outward⟩ := outward group listed
      exact .inr (Basis.startsAmongSiblings_of_behind forest identity anchorable outward behind holds)
  have alone {groups : SelectorList} (keeps : Selector.KeepsScope groups)
      (part : ∀ group ∈ groups, group ∈ first ++ second) (inGroups : group ∈ groups)
      (reaches : Selector.reachesSiblings groups = true) :=
    (options.holds_has_iff_visits builtin session forest identity keeps
      (fun overlooks => searched (overlooks.of_subset part accepted)) element).mpr
        ⟨found, (TreeView.visits_iff _).mpr (.inr ⟨(Selector.reachesSiblings_iff groups).mp reaches, behind⟩),
          group, inGroups, holds⟩
  rcases List.mem_append.mp listed with inFirst | inSecond
  · refine .inl (alone keepsFirst (fun _ => List.mem_append_left _) inFirst ?_)
    exact leads.elim And.left fun starts => (Selector.reachesSiblings_iff first).mpr ⟨group, inFirst, starts⟩
  · refine .inr (alone keepsSecond (fun _ => List.mem_append_right _) inSecond ?_)
    exact leads.elim And.right fun starts =>
      (Selector.reachesSiblings_iff second).mpr ⟨group, inSecond, starts⟩

end Has

namespace SelectorList

open CompileM

section Default

variable {options : Options ν σ} (builtin : options.custom = {}) (root : options.root = .alwaysTrue)
include builtin root

theorem compiles_has_append {given : Option (MatchContext ν)} {first second : SelectorList}
    (compilesFirst : Compiles [[.subselect "has" first]] options given)
    (compilesSecond : Compiles [[.subselect "has" second]] options given) :
    Compiles [[.subselect "has" (first ++ second)]] options given := by
  have session := compilesFirst.choose
  have may : options.root.isAlwaysFalse = false := root ▸ rfl
  rw [compiles_iff builtin may session, isRefused_has, refused_surveyGroups] at *
  rw [List.any_append, compilesFirst, compilesSecond]
  rfl

theorem matchesWhere_has (relative : options.flags.relativeSelector = true)
    (bears : options.tree.Remembers) (free : options.context = none)
    {groups : SelectorList} (unfolded : groups.uses (· == "icontains") = false)
    (compiles : Compiles [[.subselect "has" groups]] options none) :
    MatchesWhere [[.subselect "has" groups]] options none
      ((options.core.reading depth).Holds none [.subselect "has" groups]) := by
  have uses : SelectorList.uses (· == "icontains") [[.subselect "has" groups]] = false :=
    uses_singleton (List.forall_mem_singleton.mpr ((Token.uses_subselect _ "has" groups).trans unfolded))
  obtain ⟨answer, matching, answers⟩ := matchesWhere_of_compiles builtin root relative bears uses compiles
  rw [Option.map_none, Prepared.anchors_eq_false free, free] at answers
  have compound : ∀ token ∈ [Token.subselect "has" groups], token.isCombinator = false :=
    List.forall_mem_singleton.mpr rfl
  exact ⟨answer, matching, fun node => (answers node).trans
    (and_congr_right fun _ => Reading.someHolds_compound _ _ compound node)⟩

end Default

/-- `:has()` of two arguments matches what one of the two `:has()` matches, if they are read and looked for
alike, in whatever tree; or, in a tree, if they both lead to siblings or both do not, and also if no group
leads anywhere but away from the node. In general it matches more: where one argument leads to siblings, the
other one is looked for among them too. Two kinds of arguments are left out: those read without the node as
the scope, and those known to match everything and so not looked for among siblings. -/
theorem test_has_append {appended : List Nat} {arena : Arena} (grown : arena.Grown appended)
    (acyclic : arena.IsAcyclic) {first second : SelectorList}
    (unfolded : (first ++ second).uses (· == "icontains") = false)
    (compilesFirst : Compiles [[.subselect "has" first]] (Options.ofTree arena.view : Options Nat σ) none)
    (compilesSecond :
      Compiles [[.subselect "has" second]] (Options.ofTree arena.view : Options Nat σ) none) :
    let basis := (Options.ofTree arena.view : Options Nat σ).toBasis
    ∃ answer other either : Nat → Bool,
      Matches [[.subselect "has" first]] (Options.ofTree arena.view : Options Nat σ) none answer ∧
      Matches [[.subselect "has" second]] (Options.ofTree arena.view : Options Nat σ) none other ∧
      Matches [[.subselect "has" (first ++ second)]] (Options.ofTree arena.view : Options Nat σ) none
        either ∧
      (Selector.isRelative first = Selector.isRelative second →
        (basis.SearchesSiblings first ↔ basis.SearchesSiblings (first ++ second)) →
        (basis.SearchesSiblings second ↔ basis.SearchesSiblings (first ++ second)) →
          ∀ node, either node = (answer node || other node)) ∧
      (appended.Nodup → Selector.KeepsScope first → Selector.KeepsScope second →
        ¬ basis.OverlooksSiblings (first ++ second) →
          (∀ node, arena.view.isElement node = true →
            (either node = true ↔ answer node = true ∨ other node = true ∨
              Selector.reachesSiblings (first ++ second) = true ∧
                ∃ found, arena.view.VisitsBehind node found ∧ ∃ group ∈ first ++ second,
                  (basis.visited depth).Holds (some (.node node)) (Selector.written false true group)
                    found)) ∧
          (Selector.reachesSiblings first = Selector.reachesSiblings second ∨
              (∀ group ∈ first ++ second, Selector.IsAnchorable group ∧
                ∀ kind, .combinator kind ∈ group → kind.isOutward = true) →
            ∀ node, either node = (answer node || other node))) := by
  intro basis
  have bears := grown.view_remembers acyclic
  have session : Session σ := compilesFirst.choose
  obtain ⟨unfoldedFirst, unfoldedSecond⟩ : first.uses (· == "icontains") = false ∧
      second.uses (· == "icontains") = false := by
    simpa [uses_append] using unfolded
  have compiles := compiles_has_append rfl rfl compilesFirst compilesSecond
  have accepted := (compiles_iff rfl rfl session).mp compiles
  rw [isRefused_has] at accepted
  obtain ⟨answer, matchesFirst, holdsFirst⟩ :=
    matchesWhere_has rfl rfl rfl bears rfl unfoldedFirst compilesFirst
  obtain ⟨other, matchesSecond, holdsSecond⟩ :=
    matchesWhere_has rfl rfl rfl bears rfl unfoldedSecond compilesSecond
  obtain ⟨either, matchesBoth, holdsBoth⟩ := matchesWhere_has rfl rfl rfl bears rfl unfolded compiles
  -- The answers follow what the lists hold at, of which elements only are asked.
  have union {node : Nat} (holds : arena.view.isElement node = true →
      (((Options.ofTree arena.view : Options Nat σ).core.reading depth).Holds none
          [.subselect "has" (first ++ second)] node ↔
        ((Options.ofTree arena.view : Options Nat σ).core.reading depth).Holds none
            [.subselect "has" first] node ∨
          ((Options.ofTree arena.view : Options Nat σ).core.reading depth).Holds none
            [.subselect "has" second] node)) : either node = (answer node || other node) := by
    rw [Bool.eq_iff_iff, Bool.or_eq_true, holdsBoth, holdsFirst, holdsSecond, ← and_or_left]
    exact and_congr_right holds
  refine ⟨answer, other, either, matchesFirst, matchesSecond, matchesBoth,
    fun relative searchFirst searchSecond node => union fun _ => ?_,
    fun once keepsFirst keepsSecond searched => ⟨fun node element => ?_,
      fun alike node => union fun element => ?_⟩⟩
  · exact (Options.ofTree arena.view).holds_has_append_of_alike rfl session relative searchFirst
      searchSecond node
  · have forest := grown.view_isForest once acyclic
    have found := (Options.ofTree arena.view : Options Nat σ).holds_has_append rfl session forest
      (fun _ _ => beq_iff_eq) keepsFirst keepsSecond accepted searched element
    rw [holdsBoth, holdsFirst, holdsSecond]
    simp only [Options.ofTree_tree, element, true_and]
    exact found
  · exact (Options.ofTree arena.view : Options Nat σ).holds_has_append_of_outward rfl session
      (grown.view_isForest once acyclic) (fun _ _ => beq_iff_eq) keepsFirst keepsSecond accepted searched
      element alike

theorem test_has_append_for_descendant_and_child : ∃ answer other either : Nat → Bool,
    Matches [[.subselect "has" [[Selector.tag "b"]]]]
      (Options.ofTree Arena.withElementsInside.view : Options Nat Unit) none answer ∧
    Matches [[.subselect "has" [[Selector.child, Selector.tag "c"]]]]
      (Options.ofTree Arena.withElementsInside.view : Options Nat Unit) none other ∧
    Matches [[.subselect "has" [[Selector.tag "b"], [Selector.child, Selector.tag "c"]]]]
      (Options.ofTree Arena.withElementsInside.view : Options Nat Unit) none either ∧
    ∀ node, either node = (answer node || other node) := by
  obtain ⟨appended, sprouted⟩ := Arena.exists_sprouted_withElementsInside
  have first : Compiles [[.subselect "has" [[Selector.tag "b"]]]]
      (Options.ofTree Arena.withElementsInside.view : Options Nat Unit) none :=
    ⟨{ host := () }, _, _, rfl⟩
  have second : Compiles [[.subselect "has" [[Selector.child, Selector.tag "c"]]]]
      (Options.ofTree Arena.withElementsInside.view : Options Nat Unit) none :=
    ⟨{ host := () }, _, _, rfl⟩
  obtain ⟨answer, other, either, isFirst, isSecond, isBoth, _, union⟩ := test_has_append sprouted.grown
    sprouted.ordered.isAcyclic (by decide) first second
  refine ⟨answer, other, either, isFirst, isSecond, isBoth, ?_⟩
  exact (union sprouted.once (.inr (by decide)) (.inl rfl)
    fun overlooks => Bool.false_ne_true overlooks.1).2 (.inl rfl)

/-- With a group that leads to siblings, another group is found among them; and where a node has been appended
twice, so that it is no child of its parent, a combinator in one group changes where the other one holds. -/
theorem test_has_append_differs :
    ((∃ appended, Arena.withCousin.Grown appended ∧ appended.Nodup) ∧ Arena.withCousin.IsAcyclic ∧
      (∃ (query : Query Nat Unit) (after : Session Unit),
        Gives (compile [[.subselect "has" [[Selector.adjacent, Selector.tag "c"]]]]
          (Options.ofTree Arena.withCousin.view) none) { host := () } query after ∧
        ((query.test 2).run after).1 = false) ∧
      (∃ (query : Query Nat Unit) (after : Session Unit),
        Gives (compile [[.subselect "has" [[Selector.noneOf [[Selector.scope]]]]]]
          (Options.ofTree Arena.withCousin.view) none) { host := () } query after ∧
        ((query.test 2).run after).1 = false) ∧
      ∃ (query : Query Nat Unit) (after : Session Unit),
        Gives (compile [[.subselect "has" [[Selector.adjacent, Selector.tag "c"],
          [Selector.noneOf [[Selector.scope]]]]]] (Options.ofTree Arena.withCousin.view) none)
            { host := () } query after ∧
        ((query.test 2).run after).1 = true) ∧
    (∃ appended, Arena.withTwoParents.Grown appended) ∧ Arena.withTwoParents.IsAcyclic ∧
      (∃ (query : Query Nat Unit) (after : Session Unit),
        Gives (compile [[.subselect "has" [[Selector.tag "b"]]]]
          (Options.ofTree Arena.withTwoParents.view) none) { host := () } query after ∧
        ((query.test 1).run after).1 = true) ∧
      ∃ (query : Query Nat Unit) (after : Session Unit),
        Gives (compile [[.subselect "has" [[Selector.tag "b"], [Selector.child, Selector.tag "c"]]]]
          (Options.ofTree Arena.withTwoParents.view) none) { host := () } query after ∧
        ((query.test 1).run after).1 = false := by
  obtain ⟨appended, sprouted⟩ := Arena.exists_sprouted_withCousin
  refine ⟨⟨⟨appended, sprouted.grown, sprouted.once⟩, sprouted.ordered.isAcyclic, ?_, ?_, ?_⟩,
    ⟨_, Arena.grown_withTwoParents⟩, Arena.isAcyclic_withTwoParents, ?_, ?_⟩
  all_goals exact ⟨_, _, rfl, rfl⟩

end SelectorList
end SelectorEngine
