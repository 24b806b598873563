import SelectorEngine.Proofs.Compile.Documented
import SelectorEngine.Proofs.Compile.Skipping
import SelectorEngine.Proofs.Meaning.Compound
import SelectorEngine.Proofs.Meaning.Stages
import SelectorEngine.Proofs.Tree.Growth
import SelectorEngine.Proofs.Union.Compiling

/-! A descendant combinator at the start of a group. The group is put below the scope all the same, so that
the combinator leads on from an element below the scope: it is not the one that anchoring implies. -/
namespace SelectorEngine

variable {ν σ : Type}

namespace Reading

variable {reading : Reading ν} {context : Option (MatchContext ν)}
  (leadsOn : ∀ node middle above, reading.leads .descendant node middle →
    reading.leads .descendant middle above → reading.leads .descendant node above)
include leadsOn

theorem holds_of_two_descendants {opening : Token} {group : Group} {node : ν}
    (holds : reading.Holds context (opening :: .combinator .descendant :: .combinator .descendant :: group)
      node) : reading.Holds context (opening :: .combinator .descendant :: group) node := by
  obtain ⟨other, arrives, middle, lower, above, upper, opens⟩ :=
    (holds_append [opening, .combinator .descendant] group .descendant node).mp holds
  exact (holds_append [opening] group .descendant node).mpr
    ⟨other, arrives, above, leadsOn other middle above lower upper, opens⟩

end Reading

theorem Selector.isRelative_singleton (group : Group) : isRelative [group] = group.any Token.isCombinator := by
  rw [isRelative, List.any_cons, List.any_nil, Bool.or_false]

/-- A group that can be anchored does not ask a search for siblings. -/
theorem Selector.reachesSiblings_of_unmentioned {group : Group} (absolute : startsRelative group = false)
    (unmentioned : group.any Token.mentionsScope = false) : reachesSiblings [group] = false := by
  have front : Selector.front true group = .scopeDescendant := by
    rw [front_of_absolute absolute, unmentioned]
    rfl
  rw [reachesSiblings, List.any_cons, List.any_nil, front, Bool.and_eq_false_iff]
  exact .inr rfl

section Has

variable (core : Options ν σ) (depth : Nat)
  (leadsOn : ∀ node middle above : ν, middle ∈ Combinator.descendant.reach core.toBasis node →
    above ∈ Combinator.descendant.reach core.toBasis middle →
      above ∈ Combinator.descendant.reach core.toBasis node)
  {group : Group} (plain : Selector.startsWithCombinator group = false)
  (unmentioned : group.any Token.mentionsScope = false)
  (near : group.any Token.isCombinator = true ∨ ∀ token ∈ group, token.nestsRelative = false)
include leadsOn plain unmentioned near

/-- What `:has()` finds behind a descendant combinator, it finds without, too. -/
theorem Options.searches_of_descendant {node found : ν}
    (searched : (core.reading depth).searched [Selector.descendant :: group] node found)
    (holds : (core.reading depth).someHolds (some (.node node)) true [Selector.descendant :: group] found) :
    (core.reading depth).searched [group] node found ∧
      (core.reading depth).someHolds (if Selector.isRelative [group] then some (.node node) else none)
        (Selector.isRelative [group]) [group] found := by
  have absolute := Selector.startsRelative_of_plain plain
  constructor
  · rw [core.reading_searched] at searched ⊢
    obtain ⟨siblings, inArea, chosen⟩ := searched
    refine ⟨siblings, inArea, chosen.trans ?_⟩
    have below : Selector.reachesSiblings [Selector.descendant :: group] = false :=
      Selector.reachesSiblings_of_unmentioned rfl unmentioned
    rw [below, Selector.reachesSiblings_of_unmentioned absolute unmentioned]
    exact iff_of_false (fun reaches => Bool.false_ne_true reaches.1) fun reaches =>
      Bool.false_ne_true reaches.1
  · rw [Reading.someHolds_iff] at holds ⊢
    obtain ⟨_, listed, inGroup⟩ := holds
    obtain rfl := List.mem_singleton.mp listed
    refine ⟨group, List.mem_singleton.mpr rfl, ?_⟩
    have unmentioned' : (Selector.descendant :: group).any Token.mentionsScope = false :=
      unmentioned
    have written : Selector.written false true (Selector.descendant :: group) =
        Selector.scope :: .combinator .descendant :: .combinator .descendant :: group :=
      Selector.written_anchored rfl unmentioned' false
    change (core.reading depth).Holds (some (.node node))
      (Selector.written false true (Selector.descendant :: group)) found at inGroup
    rw [written] at inGroup
    have behind : (core.reading depth).Holds (some (.node node))
        (Selector.scope :: .combinator .descendant :: group) found := by
      refine Reading.holds_of_two_descendants ?_ inGroup
      rw [core.reading_leads]
      exact leadsOn
    cases relative : Selector.isRelative [group] with
    | true =>
      rw [if_pos rfl, Selector.written_anchored absolute unmentioned]
      exact behind
    | false =>
      rw [if_neg Bool.false_ne_true, Selector.written_of_unmentioned absolute unmentioned]
      rw [Selector.isRelative_singleton] at relative
      have scopeless (token : Token) (member : token ∈ group) : token.IsScopeless :=
        ⟨Bool.eq_false_iff.mpr (List.any_eq_false.mp unmentioned token member),
          near.resolve_left (by rw [relative]; exact Bool.false_ne_true) token member⟩
      have part (token : Token) (member : token ∈ group) :=
        core.reading_deepens.part_of_scopeless depth none (some (.node node)) token (scopeless token member)
      rw [Reading.holds_congr_of_part part]
      exact Reading.holds_of_holds_cons_cons behind

/-- Behind whatever it is fronted with, `:has()` holds without the descendant combinator where it holds
with it. -/
theorem Options.someHolds_has_of_descendant {context : Option (MatchContext ν)} {anchored : Bool} {node : ν}
    (holds : (core.reading depth).someHolds context anchored
      [[.subselect "has" [Selector.descendant :: group]]] node) :
    (core.reading depth).someHolds context anchored [[.subselect "has" [group]]] node := by
  have compound (groups : SelectorList) : ∀ token ∈ [Token.subselect "has" groups],
      token.isCombinator = false := List.forall_mem_singleton.mpr rfl
  refine Reading.someHolds_of_compounds (compound [Selector.descendant :: group]) (compound [group]) rfl
    (fun isHas => ?_) holds
  rw [Reading.holds_has_iff, core.reading_relative] at isHas ⊢
  obtain ⟨found, searched, inside⟩ := isHas
  exact ⟨found, core.searches_of_descendant depth leadsOn plain unmentioned near searched inside⟩

end Has

theorem Finding.refused_descendant (outlook : Outlook) (group : Group) :
    (Finding.group .nothing (Token.surveyGroup outlook (Selector.descendant :: group))).refused =
      (Finding.group .nothing (Token.surveyGroup outlook group)).refused := by
  have arranged := arrange_append_barrier Token.rank (show Selector.descendant.rank < 0 by decide) [] group
  rw [Finding.group, Finding.group, Token.arrange_surveyGroup, Token.arrange_surveyGroup]
  change (Finding.sequence ((arrange Token.rank ([] ++ Selector.descendant :: group)).map _)).refused = _
  rw [arranged]
  exact (Bool.false_or _).trans (Bool.true_and _)

namespace SelectorList

open CompileM

section Refused

variable (options : Options ν σ) (group : Group)

theorem isRefused_descendant (relative : options.flags.relativeSelector = true) :
    isRefused options [Selector.descendant :: group] = isRefused options [group] := by
  rw [isRefused, isRefused, relative, refused_surveyGroups, refused_surveyGroups, List.any_cons,
    List.any_cons, List.any_nil, Finding.refused_descendant]
  rfl

theorem isRefused_has_descendant :
    isRefused options [[.subselect "has" [Selector.descendant :: group]]] =
      isRefused options [[.subselect "has" [group]]] := by
  rw [isRefused_has, isRefused_has, refused_surveyGroups, refused_surveyGroups, List.any_cons,
    List.any_cons, Finding.refused_descendant, List.any_nil]

end Refused

/-- The first list can be compiled if, and only if, the second can, and matches no more than that. -/
def Narrows (narrow wide : SelectorList) (options : Options ν σ) (given : Option (MatchContext ν)) : Prop :=
  (narrow.Compiles options given ↔ wide.Compiles options given) ∧
    (wide.Compiles options given → ∃ answer further, wide.Matches options given answer ∧
      narrow.Matches options given further ∧ ∀ node, further node = true → answer node = true)

theorem narrows_of_someHolds {options : Options ν σ} (builtin : options.custom = {})
    (root : options.root = .alwaysTrue) (relative : options.flags.relativeSelector = true)
    (bears : options.tree.Remembers) {narrow wide : SelectorList} {given : Option (MatchContext ν)}
    (unfolded : narrow.uses (· == "icontains") = false) (unfolded' : wide.uses (· == "icontains") = false)
    (refused : isRefused options narrow = isRefused options wide)
    (implies : ∀ node, (options.core.reading depth).someHolds (options.context.or given)
        (Prepared.anchors options (given.map Scope.fixed)) narrow node →
      (options.core.reading depth).someHolds (options.context.or given)
        (Prepared.anchors options (given.map Scope.fixed)) wide node) :
    Narrows narrow wide options given := by
  have same : narrow.Compiles options given ↔ wide.Compiles options given :=
    compiles_iff_of_isRefused builtin (root ▸ rfl) refused
  refine ⟨same, fun compiles => ?_⟩
  obtain ⟨answer, answers, meant⟩ := matchesWhere_of_compiles builtin root relative bears unfolded' compiles
  obtain ⟨further, furtherAnswers, furtherMeant⟩ :=
    matchesWhere_of_compiles builtin root relative bears unfolded (same.mpr compiles)
  refine ⟨answer, further, answers, furtherAnswers, fun node passes => (meant node).mpr ?_⟩
  obtain ⟨element, holds⟩ := (furtherMeant node).mp passes
  exact ⟨element, implies node holds⟩

/-- A descendant combinator at the start of a group is not the one that anchoring implies. With an element
inside another one as the context, a group that mentions no `:scope` and starts with no combinator compiles
as it does behind `:scope` and a descendant combinator; behind a descendant combinator alone it compiles as it
does below any element, and matches no more than it does without. The same goes for arguments of `:has()`, if
the argument has a combinator or no list in it is read from the scope. -/
theorem matches_behind_descendant {appended : List Nat} {arena : Arena} (grown : arena.Grown appended)
    (acyclic : arena.IsAcyclic) {scope : Nat}
    (usable : (MatchContext.node scope).isUsable arena.view = true) {group : Group}
    (plain : Selector.startsWithCombinator group = false)
    (unmentioned : group.any Token.mentionsScope = false) :
    let options : Options Nat σ := Options.ofTree arena.view
    let within : Option (MatchContext Nat) := some (.node scope)
    compile [group] options within =
        compile [Selector.scope :: Selector.descendant :: group] options within ∧
      compile [Selector.descendant :: group] options within =
        compile [Selector.universal :: Selector.descendant :: group] options within ∧
      (uses (· == "icontains") [group] = false →
        Narrows [Selector.descendant :: group] [group] options within) ∧
      ∀ given : Option (MatchContext Nat),
        compile [[.subselect "has" [Selector.descendant :: group]]] options given =
          compile [[.subselect "has" [Selector.universal :: Selector.descendant :: group]]] options given ∧
        (uses (· == "icontains") [group] = false →
          (group.any Token.isCombinator = true ∨ ∀ token ∈ group, token.nestsRelative = false) →
          Narrows [[.subselect "has" [Selector.descendant :: group]]] [[.subselect "has" [group]]] options
            given) := by
  intro options within
  have absolute := Selector.startsRelative_of_plain plain
  have bears : options.tree.Remembers := grown.view_remembers acyclic
  have anchors : Prepared.anchors options (within.map Scope.fixed) = true :=
    (Prepared.anchors_eq rfl within).trans usable
  have leadsOn (node middle above : Nat)
      (lower : middle ∈ Combinator.descendant.reach options.core.toBasis node)
      (upper : above ∈ Combinator.descendant.reach options.core.toBasis middle) :
      above ∈ Combinator.descendant.reach options.core.toBasis node := by
    unfold Combinator.reach at lower upper ⊢
    rw [List.mem_filter] at lower upper ⊢
    refine ⟨(grown.mem_ancestors acyclic node above).mpr ?_, upper.2⟩
    exact .trans ((grown.mem_ancestors acyclic middle above).mp upper.1)
      ((grown.mem_ancestors acyclic node middle).mp lower.1)
  refine ⟨compile_front_eq within rfl plain unmentioned anchors, compile_descendant_eq within rfl group,
    fun unfolded => ?_, fun given => ⟨compile_has_descendant_eq given rfl group, fun unfolded near => ?_⟩⟩
  · refine narrows_of_someHolds rfl rfl rfl bears unfolded unfolded (isRefused_descendant options group rfl)
      fun node holds => ?_
    rw [anchors, Reading.someHolds_iff] at holds ⊢
    obtain ⟨_, listed, inGroup⟩ := holds
    obtain rfl := List.mem_singleton.mp listed
    refine ⟨group, List.mem_singleton.mpr rfl, ?_⟩
    have unmentioned' : (Selector.descendant :: group).any Token.mentionsScope = false := unmentioned
    rw [Selector.written_anchored rfl unmentioned'] at inGroup
    rw [Selector.written_anchored absolute unmentioned]
    refine Reading.holds_of_two_descendants ?_ inGroup
    rw [options.core.reading_leads]
    exact leadsOn
  · have argument (group : Group) (unused : uses (· == "icontains") [group] = false) :
        uses (· == "icontains") [[.subselect "has" [group]]] = false := by
      rw [uses, List.any_cons, List.any_nil, List.any_cons, List.any_nil, Token.uses,
        Token.anyGroupUses_eq_any]
      exact (Bool.or_false _).trans ((Bool.or_false _).trans unused)
    exact narrows_of_someHolds rfl rfl rfl bears (argument (Selector.descendant :: group) unfolded)
      (argument group unfolded) (isRefused_has_descendant options group)
      fun node => options.core.someHolds_has_of_descendant depth leadsOn plain unmentioned near

theorem matches_behind_descendant_for_tag :
    let options : Options Nat Unit := Options.ofTree Arena.withElementsInside.view
    compile [[Selector.tag "c"]] options (some (.node 2)) =
        compile [[Selector.scope, Selector.descendant, Selector.tag "c"]] options (some (.node 2)) ∧
      compile [[Selector.descendant, Selector.tag "c"]] options (some (.node 2)) =
        compile [[Selector.universal, Selector.descendant, Selector.tag "c"]] options (some (.node 2)) ∧
      Narrows [[Selector.descendant, Selector.tag "c"]] [[Selector.tag "c"]] options (some (.node 2)) ∧
      Narrows [[.subselect "has" [[Selector.descendant, Selector.tag "c"]]]]
        [[.subselect "has" [[Selector.tag "c"]]]] options none := by
  obtain ⟨appended, sprouted⟩ := Arena.exists_sprouted_withElementsInside
  have usable : (MatchContext.node 2).isUsable Arena.withElementsInside.view = true := by decide
  have unfolded : uses (· == "icontains") [[Selector.tag "c"]] = false := by decide
  have near : ∀ token ∈ [Selector.tag "c"], token.nestsRelative = false := by decide
  obtain ⟨front, universal, narrows, has⟩ := matches_behind_descendant sprouted.grown
    sprouted.ordered.isAcyclic usable (by decide : Selector.startsWithCombinator [Selector.tag "c"] = false)
    (by decide)
  exact ⟨front, universal, narrows unfolded, (has none).2 unfolded (.inr near)⟩

/-- With the middle one of three elements as the context, the one inside of it is not matched behind a
descendant combinator. -/
theorem descendant_overlooks_child :
    let options : Options Nat Unit := Options.ofTree Arena.withElementsInside.view
    (∃ appended, Arena.withElementsInside.Grown appended) ∧ Arena.withElementsInside.IsAcyclic ∧
      (MatchContext.node 2).isUsable Arena.withElementsInside.view = true ∧
      (∃ (query : Query Nat Unit) (after : Session Unit),
        Gives (compile [[Selector.tag "c"]] options (some (.node 2))) { host := () } query after ∧
        ((query.test 3).run after).1 = true) ∧
      (∃ (query : Query Nat Unit) (after : Session Unit),
        Gives (compile [[Selector.descendant, Selector.tag "c"]] options (some (.node 2)))
          { host := () } query after ∧
        ((query.test 3).run after).1 = false) ∧
      (∃ (query : Query Nat Unit) (after : Session Unit),
        Gives (compile [[.subselect "has" [[Selector.tag "c"]]]] options none) { host := () } query after ∧
        ((query.test 2).run after).1 = true) ∧
      ∃ (query : Query Nat Unit) (after : Session Unit),
        Gives (compile [[.subselect "has" [[Selector.descendant, Selector.tag "c"]]]] options none)
          { host := () } query after ∧
        ((query.test 2).run after).1 = false := by
  obtain ⟨appended, sprouted⟩ := Arena.exists_sprouted_withElementsInside
  refine ⟨⟨appended, sprouted.grown⟩, sprouted.ordered.isAcyclic, by decide, ?_, ?_, ?_, ?_⟩
  all_goals exact ⟨_, _, rfl, rfl⟩

end SelectorList
end SelectorEngine
