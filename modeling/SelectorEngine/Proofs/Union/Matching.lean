import SelectorEngine.Proofs.Compile.Rooted
import SelectorEngine.Proofs.Compile.Twin
import SelectorEngine.Proofs.Union.Compiling

/-! What a list matches and what its groups match one by one, for every root. A list matches what some group
of it matches, unless the root is a check and some group adds nothing to it: then the list matches where the
check passes, whatever the other groups are. -/
namespace SelectorEngine

variable {ν σ : Type}

namespace Predicate

/-- Tested with a node, the predicate gives this answer and leaves everything as it is. -/
def IsPure (predicate : Predicate ν σ) (answer : ν → Bool) : Prop :=
  ∀ node, predicate.test node = pure (answer node)

theorem isPure_ofCheck (check : ν → Bool) (session : Session σ) :
    ((ofCheck fun node => pure (check node)).run session).1.IsPure check :=
  fun _ => rfl

theorem IsPure.answer_eq {value : Bool} {answer : ν → Bool}
    (isPure : (constant value : Predicate ν σ).IsPure answer) (session : Session σ) (node : ν) :
    answer node = value := by
  have run := congrArg (fun action : SessionM σ Bool => (action.run session).1) (isPure node)
  cases value <;> exact run.symm

/-- A check is tested like the property that it answers with. -/
theorem IsPure.twin {identity : Nat} {plan : Plan ν σ} {answer : ν → Bool}
    (isPure : (dynamic identity plan).IsPure answer) :
    (dynamic identity plan).Twin (.dynamic identity (.holds answer)) :=
  .dynamic identity (funext isPure)

end Predicate

namespace SelectorList

open CompileM

/-- The group adds nothing to the root, so that the root is what it compiles to. -/
def IsBare (options : Options ν σ) (given : Option (MatchContext ν)) (group : Group) : Prop :=
  Selector.IsBare options.toBasis.outlook (Prepared.anchors options (given.map Scope.fixed)) group

/-- What the list matches, by what its groups mean and where the root holds. -/
structure Sums (options : Options ν σ) (given : Option (MatchContext ν)) (holds : ν → Bool)
    (means : Group → ν → Prop) (selectors : SelectorList) (answer : ν → Bool) : Prop where
  matched : selectors.Matches options given answer
  absorbs : (∃ group ∈ selectors, IsBare options given group) →
    ∀ node, answer node = (options.tree.isElement node && holds node)
  adds : options.root.isDynamic = false ∨ (∀ group ∈ selectors, ¬ IsBare options given group) →
    ∀ node, answer node = true ↔ options.tree.isElement node = true ∧ ∃ group ∈ selectors, means group node

namespace Sums

variable {options : Options ν σ} {given : Option (MatchContext ν)} {holds : ν → Bool}
  {means : Group → ν → Prop} {selectors : SelectorList} {answer : ν → Bool} {answers : Group → ν → Bool}
  (whole : Sums options given holds means selectors answer)
  (parts : ∀ group ∈ selectors, Sums options given holds means [group] (answers group))
include whole parts

theorem iff_some_part
    (open' : options.root.isDynamic = false ∨ (∀ group ∈ selectors, ¬ IsBare options given group)) (node : ν) :
    answer node = true ↔ ∃ group ∈ selectors, answers group node = true := by
  have single (group : Group) (listed : group ∈ selectors) :
      answers group node = true ↔ options.tree.isElement node = true ∧ means group node := by
    have alone := (parts group listed).adds (open'.imp_right fun none other member =>
      List.mem_singleton.mp member ▸ none group listed) node
    simpa only [List.mem_singleton, exists_eq_left] using alone
  rw [whole.adds open']
  constructor
  · intro both
    obtain ⟨element, group, listed, meant⟩ := both
    exact ⟨group, listed, (single group listed).mpr ⟨element, meant⟩⟩
  · intro some
    obtain ⟨group, listed, passes⟩ := some
    obtain ⟨element, meant⟩ := (single group listed).mp passes
    exact ⟨element, group, listed, meant⟩

theorem exists_part {node : ν} (passes : answer node = true) :
    ∃ group ∈ selectors, answers group node = true := by
  by_cases bare : ∃ group ∈ selectors, IsBare options given group
  · -- A bare group by itself matches what the whole list matches.
    obtain ⟨group, listed, isBare⟩ := bare
    refine ⟨group, listed, ?_⟩
    rw [(parts group listed).absorbs ⟨group, List.mem_singleton_self group, isBare⟩,
      ← whole.absorbs ⟨group, listed, isBare⟩]
    exact passes
  · exact (whole.iff_some_part parts (.inr fun group listed isBare => bare ⟨group, listed, isBare⟩) node).mp
      passes

end Sums

variable {options : Options ν σ} (builtin : options.custom = {})
  (relative : options.flags.relativeSelector = true) {given : Option (MatchContext ν)}

section AlwaysTrue

include builtin relative

theorem someHolds_of_isBare (root : options.root = .alwaysTrue) {selectors : SelectorList}
    (compiles : Compiles selectors options given) (bare : ∃ group ∈ selectors, IsBare options given group)
    (node : ν) : (options.core.reading depth).someHolds (options.context.or given)
      (Prepared.anchors options (given.map Scope.fixed)) selectors node := by
  have coreBuiltin : options.core.custom = {} := builtin
  obtain ⟨session, query, after, compiled⟩ := compiles
  obtain ⟨unchecked, between, inner, _⟩ := gives_bind.mp compiled
  have meant := passes_compileUnchecked builtin root relative inner none node
  unfold compileUnchecked at inner
  rw [aliasDepth_eq builtin] at inner
  have known := ((Prepared.settles_compile (Prepared.tells_survey _)
    (Step.foreseen_atScope coreBuiltin (expansion depth))
    (foreseen_prepareGroups coreBuiltin selectors) rfl root _).of_gives inner).2
  rw [relative, Prepared.findingsAs_survey, tokens_prepareGroups] at known
  have always : unchecked.predicate = .alwaysTrue := by
    rw [Predicate.eq_alwaysTrue_iff, known, Finding.verdict_choice_eq_always_iff, Token.surveyGroups_eq_map]
    obtain ⟨group, listed, isBare⟩ := bare
    exact ⟨_, List.mem_map_of_mem listed, (Selector.isBare_iff _ _ _).mp isBare⟩
  rw [← meant, always]
  rfl

theorem exists_sums_of_alwaysTrue (root : options.root = .alwaysTrue) (bears : options.tree.Remembers)
    {selectors : SelectorList} (unfolded : selectors.uses (· == "icontains") = false)
    (compiles : Compiles selectors options given) :
    ∃ answer, Sums options given (fun _ => true)
      (fun group => (options.core.reading depth).someHolds (options.context.or given)
        (Prepared.anchors options (given.map Scope.fixed)) [group]) selectors answer := by
  obtain ⟨answer, matched, meant⟩ := matchesWhere_of_compiles builtin root relative bears unfolded compiles
  refine ⟨answer, matched, fun bare node => ?_, fun _ node => ?_⟩
  · rw [Bool.eq_iff_iff, meant, Bool.and_true]
    exact and_iff_left (someHolds_of_isBare builtin relative root compiles bare node)
  · rw [meant]
    simp only [Reading.someHolds_iff, List.mem_singleton, exists_eq_left]

end AlwaysTrue

theorem foldGroups_alwaysFalse (root : options.root = .alwaysFalse) (scope : Option (Scope ν))
    (groups : List (List (Prepared ν σ))) :
    Prepared.foldGroups options scope groups .alwaysFalse = pure .alwaysFalse := by
  induction groups with
  | nil => rfl
  | cons group rest ih =>
    rw [Prepared.foldGroups, root, Prepared.fold_alwaysFalse, pure_bind]
    exact ih

include relative in
theorem sums_of_alwaysFalse (root : options.root = .alwaysFalse) (selectors : SelectorList) :
    Sums options given (fun _ => false) (fun _ _ => False) selectors fun _ => false := by
  refine ⟨fun session tidy _ => ?_, fun _ _ => (Bool.and_false _).symm, fun _ _ => by simp⟩
  unfold compile compileUnchecked
  rw [Prepared.compile_eq, if_neg (by simp [Prepared.refused, relative]), foldGroups_alwaysFalse root]
  have keeps : (session.ledger tidy).Keeps session := fun _ _ _ found => found
  exact ⟨_, session, rfl, Query.answers_of_governed keeps (Nat.le_refl _) trivial⟩

section Check

/-- What a group means to a root that answers with the property. -/
def meaning (options : Options ν σ) (given : Option (MatchContext ν)) (holds : ν → Bool) (group : Group) :
    ν → Prop :=
  (options.core.reading depth).HoldsFrom (fun node => holds node = true) (options.context.or given)
    (Selector.written ((options.context.or given).any MatchContext.isCollection)
      (Prepared.anchors options (given.map Scope.fixed)) group)

include builtin relative

theorem exists_sums_of_property {identity : Nat} {holds : ν → Bool}
    (root : options.root = .dynamic identity (.holds holds)) (bears : options.tree.Remembers)
    {selectors : SelectorList} (unfolded : selectors.uses (· == "icontains") = false)
    (compiles : Compiles selectors options given) :
    ∃ answer, Sums options given holds (meaning options given holds) selectors answer := by
  classical
  let bare := ∃ group ∈ selectors, IsBare options given group
  let answer := fun node => decide (options.tree.isElement node = true ∧
    if bare then holds node = true else ∃ group ∈ selectors, meaning options given holds group node)
  have may : options.root.isAlwaysFalse = false := root ▸ rfl
  have fits (ledger : Ledger) (scope : Option (Scope ν)) : options.root.Fits ledger scope := by
    rw [root]
    exact ⟨trivial, fun _ _ _ _ => rfl⟩
  refine ⟨answer, fun session tidy made => ?_, fun absorbs node => ?_, fun adds node => ?_⟩
  · have accepted := (compiles_iff builtin may session).mp compiles
    obtain ⟨query, after, compiled⟩ := gives_of_accepted builtin may accepted session
    obtain ⟨ledger, grows, governed⟩ := grows_compile_of_fits options builtin (fun _ => bears)
      (fun _ => unfolded) (Nat.le_refl (session.ledger tidy).bound) fits compiled
    have answers := Query.answers_of_governed grows.keeps grows.within governed
    obtain ⟨unchecked, between, inner, rest⟩ := gives_bind.mp compiled
    obtain ⟨guarded, middle, guarding, last⟩ := gives_bind.mp rest
    obtain ⟨rfl, _⟩ := gives_pure.mp last
    rw [root] at made
    have united := united_compileUnchecked builtin relative root made inner
    have same : guarded.passes none = answer := by
      funext node
      rw [Bool.eq_iff_iff, decide_eq_true_iff, ← guarding.lifted, Predicate.passes_guard, Bool.and_eq_true]
      refine and_congr_right fun _ => ?_
      by_cases absorbs : bare
      · rw [if_pos absorbs, united.absorbed absorbs, root]
        rfl
      · rw [if_neg absorbs, united.meant absorbs, root]
        rfl
    rw [← same]
    exact ⟨_, after, compiled, answers⟩
  · have isBare : bare := absorbs
    simp only [answer, if_pos isBare]
    cases options.tree.isElement node <;> simp
  · have isNotBare : ¬ bare := by
      rcases adds with known | none
      · rw [root] at known
        cases known
      · exact fun ⟨group, listed, isBare⟩ => none group listed isBare
    rw [decide_eq_true_iff, if_neg isNotBare]

end Check

section Twin

variable {root : Predicate ν σ} (twin : options.root.Twin root) {selectors : SelectorList}
include builtin twin

theorem compiles_of_twin (compiles : Compiles selectors options given) :
    Compiles selectors { options with root } given := by
  obtain ⟨session, query, after, compiled⟩ := compiles
  obtain ⟨other, again, _⟩ := follows_compile builtin twin selectors given session query after compiled
  exact ⟨session, other, after, again⟩

theorem matches_of_twin {answer : ν → Bool} (matched : Matches selectors options given answer) :
    Matches selectors { options with root } given answer := by
  intro session tidy made
  have before : options.root.MadeBefore session := by
    generalize options.root = first at twin
    cases twin <;> exact made
  obtain ⟨query, after, compiled, answers⟩ := matched session tidy before
  obtain ⟨other, again, same⟩ := follows_compile builtin twin selectors given session query after compiled
  refine ⟨other, after, again, ?_⟩
  unfold Query.Answers at answers ⊢
  rw [← same]
  exact answers

end Twin

include builtin relative in
/-- Every pure root gives the groups a meaning, and lists match by the meanings of their groups. -/
theorem exists_meaning {holds : ν → Bool} (isPure : options.root.IsPure holds)
    (bears : options.tree.Remembers) (given : Option (MatchContext ν)) :
    ∃ means : Group → ν → Prop, ∀ selectors : SelectorList, selectors.uses (· == "icontains") = false →
      Compiles selectors options given → ∃ answer, Sums options given holds means selectors answer := by
  cases root : options.root with
  | alwaysTrue =>
    refine ⟨fun group => (options.core.reading depth).someHolds (options.context.or given)
      (Prepared.anchors options (given.map Scope.fixed)) [group], fun selectors unfolded compiles => ?_⟩
    have always : (Predicate.constant true).IsPure holds := root ▸ isPure
    obtain rfl : holds = fun _ => true := funext (always.answer_eq compiles.choose)
    exact exists_sums_of_alwaysTrue builtin relative root bears unfolded compiles
  | alwaysFalse =>
    refine ⟨fun _ _ => False, fun selectors _ compiles => ?_⟩
    have never : (Predicate.constant false).IsPure holds := root ▸ isPure
    obtain rfl : holds = fun _ => false := funext (never.answer_eq compiles.choose)
    exact ⟨_, sums_of_alwaysFalse relative root selectors⟩
  | dynamic identity plan =>
    rw [root] at isPure
    let plain : Options ν σ := { options with root := .dynamic identity (.holds holds) }
    have plainBuiltin : plain.custom = {} := builtin
    have twin : options.root.Twin plain.root := root ▸ isPure.twin
    refine ⟨meaning plain given holds, fun selectors unfolded compiles => ?_⟩
    obtain ⟨answer, sums⟩ := exists_sums_of_property plainBuiltin relative rfl bears unfolded
      (compiles_of_twin builtin twin compiles)
    refine ⟨answer, matches_of_twin plainBuiltin twin.symm sums.matched, sums.absorbs,
      fun adds => sums.adds ?_⟩
    rw [root] at adds
    exact adds

end SelectorList

/-- The options with another root. -/
def Options.withRoot (options : Options ν σ) (root : Predicate ν σ) : Options ν σ := { options with root }

namespace SelectorList

open CompileM

/-- A list matches nothing that no group of it matches. It matches all that some group of it matches if its
root is known beforehand or every group adds something to the root; if some group adds nothing, the list
matches the elements at which the root holds. -/
theorem matches_by_groups {appended : List Nat} {arena : Arena} (grown : arena.Grown appended)
    (acyclic : arena.IsAcyclic) {root : Predicate Nat σ} {holds : Nat → Bool} (isPure : root.IsPure holds)
    {selectors : SelectorList} (unfolded : selectors.uses (· == "icontains") = false)
    {given : Option (MatchContext Nat)}
    (compiles : Compiles selectors ((Options.ofTree arena.view).withRoot root) given)
    (each : ∀ group ∈ selectors, Compiles [group] ((Options.ofTree arena.view).withRoot root) given) :
    ∃ (answer : Nat → Bool) (answers : Group → Nat → Bool),
      selectors.Matches ((Options.ofTree arena.view).withRoot root) given answer ∧
      (∀ group ∈ selectors,
        Matches [group] ((Options.ofTree arena.view).withRoot root) given (answers group)) ∧
      (∀ node, answer node = true → ∃ group ∈ selectors, answers group node = true) ∧
      (root.isDynamic = false ∨
          (∀ group ∈ selectors, ¬ IsBare ((Options.ofTree arena.view).withRoot root) given group) →
        ∀ node, answer node = true ↔ ∃ group ∈ selectors, answers group node = true) ∧
      ((∃ group ∈ selectors, IsBare ((Options.ofTree arena.view).withRoot root) given group) →
        ∀ node, answer node = (arena.view.isElement node && holds node)) := by
  have builtin : ((Options.ofTree arena.view).withRoot root).custom = {} := rfl
  obtain ⟨means, sums⟩ := exists_meaning builtin rfl isPure (grown.view_remembers acyclic) given
  obtain ⟨answer, whole⟩ := sums selectors unfolded compiles
  have parts (group : Group) : ∃ answer, group ∈ selectors →
      Sums ((Options.ofTree arena.view).withRoot root) given holds means [group] answer := by
    by_cases listed : group ∈ selectors
    · have plain := uses_singleton fun token member => uses_of_mem unfolded listed member
      obtain ⟨answer, part⟩ := sums [group] plain (each group listed)
      exact ⟨answer, fun _ => part⟩
    · exact ⟨fun _ => false, fun member => absurd member listed⟩
  choose answers part using parts
  exact ⟨answer, answers, whole.matched, fun group listed => (part group listed).matched,
    fun _ => whole.exists_part part, whole.iff_some_part part, whole.absorbs⟩

/-- The universal selector, which is bare, and a group that is not. -/
def absorbing : SelectorList := [[Selector.universal], [Selector.tag "a", Selector.child, Selector.tag "b"]]

theorem matches_by_groups_for_absorbing :
    ∃ root : Predicate Nat Unit,
      (∃ session after, (Predicate.ofCheck fun node => pure (node == 1)).run session = (root, after)) ∧
      ∃ (answer : Nat → Bool) (answers : Group → Nat → Bool),
        absorbing.Matches ((Options.ofTree Arena.withElementsInside.view).withRoot root) none answer ∧
        (∀ group ∈ absorbing, Matches [group]
          ((Options.ofTree Arena.withElementsInside.view).withRoot root) none (answers group)) ∧
        ∀ node, answer node = (Arena.withElementsInside.view.isElement node && node == 1) := by
  obtain ⟨appended, sprouted⟩ := Arena.exists_sprouted_withElementsInside
  let root : Predicate Nat Unit := .dynamic 0 (.asks fun node => pure (node == 1))
  let options : Options Nat Unit := (Options.ofTree Arena.withElementsInside.view).withRoot root
  have compiles : Compiles absorbing options none := ⟨{ host := () }, _, _, rfl⟩
  have each : ∀ group ∈ absorbing, Compiles [group] options none := by
    rw [absorbing, List.forall_mem_cons, List.forall_mem_singleton]
    exact ⟨⟨{ host := () }, _, _, rfl⟩, { host := () }, _, _, rfl⟩
  have bare : ∃ group ∈ absorbing, IsBare options none group := by
    refine ⟨[Selector.universal], List.mem_cons_self, rfl, fun token member => ?_⟩
    obtain rfl := List.mem_singleton.mp member
    rfl
  obtain ⟨answer, answers, whole, parts, _, _, absorbs⟩ := matches_by_groups sprouted.grown
    sprouted.ordered.isAcyclic (Predicate.isPure_ofCheck (· == 1) { host := () }) (by decide) compiles each
  exact ⟨root, ⟨{ host := () }, _, rfl⟩, answer, answers, whole, parts, absorbs bare⟩

/-- The root holds at the first element only. The list does not match the second one, although a group of it
does. -/
theorem absorbing_overlooks_child : ∃ (root : Predicate Nat Unit) (session : Session Unit),
    (∃ appended, Arena.withElementsInside.Grown appended) ∧ Arena.withElementsInside.IsAcyclic ∧
    (Predicate.ofCheck fun node => pure (node == 1)).run { host := () } = (root, session) ∧
    root.IsPure (· == 1) ∧
    (∃ query after, Gives (compile [[Selector.universal]]
        ((Options.ofTree Arena.withElementsInside.view).withRoot root) none) session query after ∧
      ((query.test 2).run after).1 = false) ∧
    (∃ query after, Gives (compile [[Selector.tag "a", Selector.child, Selector.tag "b"]]
        ((Options.ofTree Arena.withElementsInside.view).withRoot root) none) session query after ∧
      ((query.test 2).run after).1 = true) ∧
    ∃ query after, Gives (absorbing.compile
        ((Options.ofTree Arena.withElementsInside.view).withRoot root) none) session query after ∧
      ((query.test 2).run after).1 = false := by
  obtain ⟨appended, sprouted⟩ := Arena.exists_sprouted_withElementsInside
  refine ⟨_, _, ⟨appended, sprouted.grown⟩, sprouted.ordered.isAcyclic, rfl,
    Predicate.isPure_ofCheck _ { host := () }, ?_, ?_, ?_⟩
  all_goals exact ⟨_, _, rfl, rfl⟩

end SelectorList
end SelectorEngine
