import SelectorEngine.Proofs.Compile.Documented
import SelectorEngine.Proofs.Compile.Remembering
import SelectorEngine.Proofs.Tree.Growth

/-! Matching is what the documentation says it is: a compiled selector list without `:has()` matches the
elements at which one of its groups, anchored as documented, holds when it is read from right to left. -/
namespace SelectorEngine

variable {ν σ : Type}

namespace SelectorList

open CompileM

/-- A selector list without `:has()` that compiles matches exactly the elements at which some group of it
holds, in the documented reading of the group as it is anchored. -/
theorem test_iff_some_group_holds {appended : List Nat} {arena : Arena}
    (grown : arena.Grown appended) (once : appended.Nodup) (acyclic : arena.IsAcyclic)
    {options : Options Nat σ} (key : Nat → Option Nat) (supports : ElementState → Bool)
    (isIn : Nat → ElementState → Bool)
    (seen : options.tree = { arena.view with key, supports, isIn })
    (identity : options.same = arena.view.same) (builtin : options.custom = {})
    (root : options.root = .alwaysTrue) (anchored : options.anchored = true)
    (relative : options.flags.relativeSelector = true)
    (forgetful : options.flags.cacheResults = false) {selectors : SelectorList}
    (searchless : selectors.uses Selector.searches = false) {given : Option (MatchContext Nat)}
    {session after : Session σ} {query : Query Nat σ}
    (compiled : Gives (selectors.compile options given) session query after)
    (node : Nat) (later : Session σ) :
    ((query.test node).run later).1 = true ↔ options.tree.isElement node = true ∧
      ∃ group ∈ selectors, (options.toBasis.documented depth).Holds (options.context.or given)
        (Selector.written ((options.context.or given).any MatchContext.isCollection)
          ((options.context.or given).any (MatchContext.isUsable options.tree)) group) node := by
  have forest : options.tree.IsForest := by
    rw [seen]
    exact grown.isForest once acyclic key supports isIn
  have identity (first second : Nat) : options.same first second = true ↔ first = second := by
    rw [identity]
    exact beq_iff_eq
  have outside : ∃ node, options.tree.isElement node = false := by
    rw [seen]
    exact ⟨_, arena.view_isElement_size⟩
  have plainly (group : Group) (listed : group ∈ selectors) (token : Token) (member : token ∈ group) :
      token.SearchesPlainly options.tree := by
    intro searches
    rw [uses_of_mem searchless listed member] at searches
    cases searches
  have unremembered : ¬ options.flags.cacheResults = true := by
    rw [forgetful]
    exact Bool.false_ne_true
  have within : Ledger.blank.bound ≤ session.supply := Nat.zero_le _
  obtain ⟨ledger, grows, governed⟩ := grows_compile options builtin root (absurd · unremembered)
    (absurd · unremembered) compiled within
  rw [grows.stays unremembered] at governed
  rw [Query.run_test_of_tableless governed, passes_compile builtin root relative compiled,
    Prepared.anchors_eq anchored]
  apply and_congr_right
  intro element
  rw [someHolds_iff_documented options builtin forest identity outside depth plainly _ _ element,
    Reading.someHolds_iff]

theorem test_iff_some_group_holds_for_child :
    ∃ (arena : Arena) (query : Query Nat Unit) (after : Session Unit),
      Arena.build? [(0, .element "a" []), (1, .element "b" [])] = some arena ∧
        Gives (compile [[Selector.tag "a", Selector.child, Selector.tag "b"]]
          { Options.ofTree arena.view with flags := { cacheResults := false } } none)
          { host := () } query after ∧
        ∀ node later, ((query.test node).run later).1 = true ↔ arena.view.isElement node = true ∧
          ∃ group ∈ [[Selector.tag "a", Selector.child, Selector.tag "b"]],
            ((Basis.mk arena.view arena.view.same { cacheResults := false }).documented depth).Holds
              none (Selector.written false false group) node := by
  obtain ⟨arena, built⟩ : ∃ arena,
      Arena.build? [(0, .element "a" []), (1, .element "b" [])] = some arena := ⟨_, rfl⟩
  obtain ⟨appended, sprouted⟩ := Arena.exists_sprouted_of_build built
  obtain ⟨query, after, compiled⟩ : ∃ (query : Query Nat Unit) (after : Session Unit),
      Gives (compile [[Selector.tag "a", Selector.child, Selector.tag "b"]]
        { Options.ofTree arena.view with flags := { cacheResults := false } } none)
        { host := () } query after := ⟨_, _, rfl⟩
  refine ⟨arena, query, after, built, compiled, fun node later => ?_⟩
  exact test_iff_some_group_holds sprouted.grown sprouted.once sprouted.ordered.isAcyclic some
    (fun _ => false) (fun _ _ => false) rfl rfl rfl rfl rfl rfl rfl (by decide +kernel) compiled node
    later

end SelectorList
end SelectorEngine
