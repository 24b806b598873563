import SelectorEngine.Proofs.Compile.Foresight
import SelectorEngine.Proofs.Tree.Growth

/-! Which selector lists cannot be compiled. A group is compiled up to the first token that is known never to
match, so that a token after it is not even looked at; what is looked at has to be without fault. -/
namespace SelectorEngine

variable {ν σ : Type}

namespace SelectorList

open CompileM

/-- Whatever the tree, the flags, the context and the session: compiling fails exactly if a group starts with
a combinator while that is not allowed, or if some token is come upon that cannot be compiled. A faulty token
is never missed in a list in which nothing is known never to match. -/
theorem fails_iff_comesUpon (options : Options ν σ) (builtin : options.custom = {})
    (root : options.root = .alwaysTrue) (selectors : SelectorList) (given : Option (MatchContext ν))
    (session : Session σ) :
    ((∃ error, Fails (selectors.compile options given) session error) ↔
      (options.flags.relativeSelector = false ∧
        ∃ group ∈ selectors, Selector.startsWithCombinator group = true) ∨
      ∃ group ∈ selectors, Selector.ComesUpon options.toBasis.outlook
        (fun token => (token.survey options.toBasis.outlook).refused = true) group) ∧
    ((∀ token : Token, token.OccursIn selectors →
        (token.survey options.toBasis.outlook).verdict ≠ .never) →
      ((∃ error, Fails (selectors.compile options given) session error) ↔
        (options.flags.relativeSelector = false ∧
          ∃ group ∈ selectors, Selector.startsWithCombinator group = true) ∨
        ∃ token : Token, token.OccursIn selectors ∧ token.isFaulty = true)) := by
  have fails : (∃ error, Fails (selectors.compile options given) session error) ↔
      (options.flags.relativeSelector = false ∧
        ∃ group ∈ selectors, Selector.startsWithCombinator group = true) ∨
      ∃ group ∈ selectors, Selector.ComesUpon options.toBasis.outlook
        (fun token => (token.survey options.toBasis.outlook).refused = true) group := by
    rw [(settles_compile builtin root selectors given).fails_iff session, isRefused, Bool.or_eq_true,
      Bool.and_eq_true, Bool.not_eq_true', List.any_eq_true, refused_surveyGroups_iff]
  refine ⟨fails, fun may => fails.trans (or_congr_right ⟨fun known => ?_, fun known => ?_⟩)⟩
  · obtain ⟨group, listed, comes⟩ := known
    exact exists_faulty_of_comesUpon listed comes
  · obtain ⟨token, occurs, faulty⟩ := known
    exact comesUpon_of_faulty may occurs faulty

theorem fails_iff_comesUpon_for_nested : ∃ error,
    Fails (compile [[Selector.anyOf [[Selector.tag "a", Selector.pseudoElement "before"]]]]
      (Options.ofTree Arena.withElementsInside.view) none) ({ host := () } : Session Unit) error := by
  have inside : (Selector.pseudoElement "before").OccursIn
      [[Selector.anyOf [[Selector.tag "a", Selector.pseudoElement "before"]]]] :=
    .deeper List.mem_cons_self List.mem_cons_self (.here List.mem_cons_self (by simp))
  refine ((fails_iff_comesUpon (Options.ofTree Arena.withElementsInside.view) rfl rfl _ none _).2
    fun token occurs => ?_).mpr (.inr ⟨_, inside, rfl⟩)
  cases occurs with
  | here listed member =>
    obtain rfl := List.mem_singleton.mp listed
    obtain rfl := List.mem_singleton.mp member
    decide
  | deeper listed member occurs =>
    obtain rfl := List.mem_singleton.mp listed
    cases List.mem_singleton.mp member
    cases occurs with
    | here listed member =>
      obtain rfl := List.mem_singleton.mp listed
      revert token
      decide
    | deeper listed member occurs =>
      obtain rfl := List.mem_singleton.mp listed
      simp [Selector.tag, Selector.pseudoElement] at member

/-- After a state that the tree does not support, a pseudo-element is not looked at; and pseudo-classes that
need no argument take any. -/
theorem compile_overlooks_faults :
    (∃ (query : Query Nat Unit) (after : Session Unit),
      Gives (compile [[Selector.pseudo "hover", Selector.pseudoElement "before"]]
        (Options.ofTree Arena.withElementsInside.view) none) { host := () } query after) ∧
    (Selector.pseudoElement "before").OccursIn
      [[Selector.pseudo "hover", Selector.pseudoElement "before"]] ∧
    (Selector.pseudoElement "before").isFaulty = true ∧
    ∃ (query : Query Nat Unit) (after : Session Unit),
      Gives (compile [[Selector.pseudoWith "root" "x"]] (Options.ofTree Arena.withElementsInside.view) none)
        { host := () } query after :=
  ⟨⟨_, _, rfl⟩, .here List.mem_cons_self (by simp), rfl, ⟨_, _, rfl⟩⟩

end SelectorList
end SelectorEngine
