import SelectorEngine.Proofs.Compile.Steady
import SelectorEngine.Proofs.Tree.Growth

/-! Selector lists are tested from the left and no further than to the first group that matches. -/
namespace SelectorEngine.SelectorList

open CompileM

/-- A list of groups each of which gives a predicate to be tested answers whether some group matches. It calls
what its groups call when they are compiled alone, one after the other through the first one that matches, and
nothing for the groups after that. Where only elements match, nothing is called for other nodes. -/
theorem calls_through_first_match {ν : Type} {options : Options ν (List (Call ν))}
    (root : options.root = .alwaysTrue) (forgets : options.flags.cacheResults = false)
    (plain : options.custom.filters = []) (noted : options.custom.NoteCalls)
    (selectors : SelectorList) (given : Option (MatchContext ν))
    (dynamic : ∀ group ∈ selectors, ∃ session query after,
      Gives (compileUnchecked [group] options given) session query after ∧
        query.predicate.isDynamic = true) :
    ∃ (answer : Group → ν → Bool) (calls : Group → ν → List (Call ν)),
      (∀ group ∈ selectors, ∀ session, ∃ query after,
        Gives (compileUnchecked [group] options given) session query after ∧
          ∀ node, Calls (query.test node) (answer group node) (calls group node)) ∧
      (∀ session, ∃ query after, Gives (selectors.compileUnchecked options given) session query after ∧
        ∀ node, Calls (query.test node) (selectors.any (answer · node))
          ((throughFirst (answer · node) selectors).flatMap (calls · node))) ∧
      ∀ session, ∃ query after, Gives (selectors.compile options given) session query after ∧
        ∀ node, Calls (query.test node) (options.tree.isElement node && selectors.any (answer · node))
          (if options.tree.isElement node then
            (throughFirst (answer · node) selectors).flatMap (calls · node) else []) := by
  have each : ∀ group ∈ selectors, ∃ answer calls, FoldsTo options given group answer calls := by
    intro group listed
    obtain ⟨session, query, after, compiled, isDynamic⟩ := dynamic group listed
    exact exists_foldsTo root forgets plain noted compiled isDynamic
  choose! answer calls folds using each
  refine ⟨answer, calls, fun group listed => (folds group listed).alone root,
    exists_compileUnchecked root folds, fun session => ?_⟩
  obtain ⟨query, after, compiled, tests⟩ := exists_compileUnchecked root folds session
  exact ⟨_, _, gives_bind.mpr ⟨query, after, compiled, gives_bind.mpr ⟨_, _, gives_lift.mpr rfl,
    gives_pure.mpr ⟨rfl, rfl⟩⟩⟩, Predicate.calls_guard tests options.tree.isElement after⟩

/-- A check that holds for one node and notes its calls. -/
def checkOnly (name : String) (only : Nat) : String × CustomCheck Nat (List (Call Nat)) :=
  (name, { takesArgument := false, check := fun node argument => noting ⟨name, argument, node⟩ (node == only) })

def twoChecks : Options Nat (List (Call Nat)) :=
  { Options.ofTree Arena.withElementsInside.view with
    flags := { cacheResults := false }
    custom := { checks := [checkOnly "first" 2, checkOnly "second" 3] } }

/-- The second group is asked about the third element, which the first group does not match, and not about the
second one, which it matches. -/
theorem calls_through_first_match_for_two_checks :
    ∃ query after, Gives (compileUnchecked [[Selector.pseudo "first"],
        [Selector.tag "b", Selector.child, Selector.pseudo "second"]] twoChecks none) { host := [] } query after ∧
      Calls (query.test 2) true [⟨"first", none, 2⟩] ∧
      Calls (query.test 3) true [⟨"first", none, 3⟩, ⟨"second", none, 3⟩] := by
  have noted : twoChecks.custom.NoteCalls := by
    refine List.forall_mem_cons.mpr ⟨⟨fun node _ => node == 2, fun _ _ => rfl⟩, ?_⟩
    exact List.forall_mem_singleton.mpr ⟨fun node _ => node == 3, fun _ _ => rfl⟩
  obtain ⟨answer, calls, alone, list, _⟩ := calls_through_first_match rfl rfl rfl noted
    [[Selector.pseudo "first"], [Selector.tag "b", Selector.child, Selector.pseudo "second"]] none
    (List.forall_mem_cons.mpr ⟨⟨{ host := [] }, _, _, rfl, rfl⟩,
      List.forall_mem_singleton.mpr ⟨{ host := [] }, _, _, rfl, rfl⟩⟩)
  obtain ⟨first, _, compiled, tests⟩ := alone _ List.mem_cons_self { host := [] }
  obtain ⟨second, _, compiled', tests'⟩ := alone _ (List.mem_cons_of_mem _ List.mem_cons_self) { host := [] }
  have firstAtTwo : Calls (first.test 2) true [⟨"first", none, 2⟩] := by
    cases compiled.unique rfl
    exact fun _ => rfl
  have firstAtThree : Calls (first.test 3) false [⟨"first", none, 3⟩] := by
    cases compiled.unique rfl
    exact fun _ => rfl
  have secondAtThree : Calls (second.test 3) true [⟨"second", none, 3⟩] := by
    cases compiled'.unique rfl
    exact fun _ => rfl
  obtain ⟨passes, called⟩ := (tests 2).unique firstAtTwo
  obtain ⟨fails, called'⟩ := (tests 3).unique firstAtThree
  obtain ⟨passes', further⟩ := (tests' 3).unique secondAtThree
  obtain ⟨query, after, compiled, tests⟩ := list { host := [] }
  refine ⟨query, after, compiled, ?_, ?_⟩
  · have result := tests 2
    simpa [throughFirst, passes, called] using result
  · have result := tests 3
    simpa [throughFirst, fails, called', passes', further] using result

end SelectorEngine.SelectorList
