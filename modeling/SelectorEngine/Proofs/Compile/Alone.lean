import SelectorEngine.Proofs.Union.Compiling

/-! Lists of one token that is no combinator. Nothing is put in front of it and nothing is united with it,
whatever the flags: the list compiles to the token's own step and the test that the node is an element. -/
namespace SelectorEngine

variable {ν σ : Type}

theorem Predicate.alwaysFalse_union (inner : Predicate ν σ) :
    alwaysFalse.union inner .alwaysTrue = (pure inner : SessionM σ (Predicate ν σ)) := by
  cases inner <;> rfl

namespace Prepared

variable (atScope : Step ν σ) {item : Prepared ν σ} (lone : item.token.isCombinator = false)
include lone

theorem complete_alone (relative : Bool) : complete atScope relative false false [item] = [item] := by
  have arranged : arrange (fun item => item.token.rank) [item] = [item] :=
    List.perm_singleton.mp (arrange_perm _ _)
  have plain : Selector.front false (tokens [item]) = .nothing := by
    obtain ⟨token, step⟩ := item
    cases token <;> first | rfl | cases lone
  rw [complete, arranged, anchor, plain]
  cases relative <;> rfl

theorem compile_alone {options : Options ν σ} (root : options.root = .alwaysTrue)
    (free : options.context = none) :
    compile atScope [[item]] options none =
      item.step options none .alwaysTrue >>= fun predicate => pure ⟨predicate, false⟩ := by
  have arranged : arrange (fun item => item.token.rank) [item] = [item] :=
    List.perm_singleton.mp (arrange_perm _ _)
  have accepted : refused [[item]] options = false := by
    rw [refused, List.map_singleton, arranged]
    simp [Selector.startsWithCombinator, tokens, lone]
  have scopeless : scopeOf options none = none := by
    rw [scopeOf, free]
    rfl
  have whole : completed atScope [[item]] options none = [[item]] := by
    rw [completed, anchors_eq_false free, scopeless, List.map_singleton, Option.any_none,
      complete_alone atScope lone]
  have still : amongSiblings atScope [[item]] options none = false := by
    rw [amongSiblings, anchors_eq_false free, List.any_cons, complete_alone atScope lone]
    rfl
  rw [compile_eq, accepted, if_neg Bool.false_ne_true, scopeless, whole, still]
  simp only [foldGroups, fold, root, Predicate.isAlwaysFalse, Bool.false_eq_true, ↓reduceIte, bind_pure,
    bind_assoc, Predicate.alwaysFalse_union]
  rfl

end Prepared

namespace SelectorList

open CompileM

/-- What governs the step of the token governs the list, and where the step says yes the list does. -/
theorem matchesWhere_alone {options : Options ν σ} (builtin : options.custom = {})
    (root : options.root = .alwaysTrue) (free : options.context = none) {token : Token}
    (lone : token.isCombinator = false) (accepted : isRefused options [[token]] = false)
    {remembering : Prop} (may : options.flags.cacheResults = true → remembering)
    (governs : Step.Governs options.tree remembering
      (tokenStep (σ := σ) (expansion options.custom.aliasDepth) token)) {holds : ν → Prop}
    (realizes : Step.Realizes options.core (fun _ => .test holds)
      (tokenStep (expansion options.custom.aliasDepth) token)) :
    MatchesWhere [[token]] options none holds := by
  classical
  refine ⟨fun node => decide (options.tree.isElement node = true ∧ holds node), fun session tidy _ => ?_,
    fun node => decide_eq_true_iff⟩
  obtain ⟨query, after, compiled⟩ := gives_of_accepted builtin (root ▸ rfl) accepted session
  refine ⟨query, after, compiled, ?_⟩
  obtain ⟨unchecked, between, inner, rest⟩ := gives_bind.mp compiled
  obtain ⟨guarded, last, guarding, made⟩ := gives_bind.mp rest
  obtain ⟨rfl, rfl⟩ := gives_pure.mp made
  rw [compileUnchecked, prepareGroups_eq_map, List.map_singleton, prepareGroup_eq_map, List.map_singleton,
    Option.map_none, Prepared.compile_alone _ lone root free] at inner
  obtain ⟨predicate, _, stepped, whole⟩ := gives_bind.mp inner
  obtain ⟨rfl, rfl⟩ := gives_pure.mp whole
  have careful : options.Careful options.tree remembering none := ⟨rfl, builtin, may, fun _ => nofun⟩
  obtain ⟨ledger, grows, fits⟩ := governs options none careful _ session _ _ stepped
    (session.ledger tidy) (Nat.le_refl _) Predicate.fits_alwaysTrue
  obtain ⟨fitsGuarded, grew⟩ := Predicate.made_guard fits (.holds options.tree.isElement) trivial
    (fun _ _ _ _ => rfl) between
  rw [gives_lift.mp guarding] at fitsGuarded grew
  have grown := grows.trans (Ledger.grows_of_grew remembering grows.within grew)
  have same : guarded.passes none =
      fun node => decide (options.tree.isElement node = true ∧ holds node) := by
    funext node
    rw [Bool.eq_iff_iff, decide_eq_true_iff, ← guarding.lifted, Predicate.passes_guard, Bool.and_eq_true,
      realizes options rfl none _ session _ between stepped none (Scope.isResolved_none none) node]
    exact and_congr_right fun _ => and_iff_left rfl
  rw [← same]
  exact Query.answers_of_governed grown.keeps grown.within fitsGuarded.governed

/-- Whatever the flags, an attribute selector matches the elements at which it holds. -/
theorem matchesWhere_attribute {options : Options ν σ} (builtin : options.custom = {})
    (root : options.root = .alwaysTrue) (free : options.context = none) (selector : AttributeSelector) :
    MatchesWhere [[.attribute selector]] options none (selector.Holds options.toBasis) := by
  have accepted : isRefused options [[.attribute selector]] = false :=
    isRefused_token options rfl
  exact matchesWhere_alone builtin root free rfl accepted (fun _ => trivial)
    (Step.governs_attribute selector) (Step.realizes_attribute selector)

theorem tokenStep_text {name : String} {fold : String → String}
    (filter : name = "contains" ∧ fold = id ∨ name = "icontains" ∧ fold = Text.lower)
    (expand : SelectorList → Step ν σ) (piece : String) {options : Options ν σ}
    (builtin : options.custom = {}) (scope : Option (Scope ν)) (next : Predicate ν σ) :
    tokenStep expand (Selector.pseudoWith name piece) options scope next =
      BuiltinFilter.textStep fold piece options scope next := by
  rw [Selector.pseudoWith, tokenStep, pseudoClassStep_builtin _ _ _ (CustomClasses.lacks_of_empty builtin name)]
  rcases filter with ⟨rfl, rfl⟩ | ⟨rfl, rfl⟩ <;> rfl

/-- Where nothing is remembered, a search for text matches the elements whose text has the piece. -/
theorem matchesWhere_text {options : Options ν σ} (builtin : options.custom = {})
    (root : options.root = .alwaysTrue) (free : options.context = none)
    (forgets : options.flags.cacheResults = false) {name : String} {fold : String → String}
    (filter : name = "contains" ∧ fold = id ∨ name = "icontains" ∧ fold = Text.lower) (piece : String) :
    MatchesWhere [[Selector.pseudoWith name piece]] options none fun node =>
      (fold piece).toList <:+: (fold (options.tree.text node)).toList := by
  have accepted : isRefused options [[Selector.pseudoWith name piece]] = false := by
    rw [isRefused_token options rfl]
    rcases filter with ⟨rfl, rfl⟩ | ⟨rfl, rfl⟩ <;> rfl
  have never (remembers : options.flags.cacheResults = true) : False := by
    cases forgets.symm.trans remembers
  refine matchesWhere_alone builtin root free rfl accepted never ?_ ?_
  · intro others scope careful next session result after given
    rw [tokenStep_text filter _ _ careful.builtin] at given
    exact Step.governs_text nofun fold nofun piece others scope careful next session result after given
  · intro others same scope next session result after given
    have lacks : others.custom = {} := (congrArg (·.custom) same).trans builtin
    rw [tokenStep_text filter _ _ lacks] at given
    exact Step.realizes_text fold piece others same scope next session result after given

end SelectorList
end SelectorEngine
