import SelectorEngine.Proofs.Compile.Fronted
import SelectorEngine.Proofs.Meaning.Context

/-! Lists that compile to the same. Of a group only the steps are folded; a step that leaves everything as
it is can be left out, and what a group is fronted with can be written out. -/
namespace SelectorEngine

variable {ν σ : Type}

open CompileM

namespace Selector

theorem startsAmongSiblings_of_head {first : Token} {rest : Group} (elsewhere : first.isScope = false) :
    startsAmongSiblings (first :: rest) = false := by
  rw [startsAmongSiblings_eq]
  cases leads : leading rest <;> simp [opening, leads, elsewhere]

theorem startsBelowScope_of_head {first : Token} {rest : Group} (elsewhere : first.isScope = false) :
    startsBelowScope (first :: rest) = false := by
  rw [startsBelowScope_eq]
  cases leads : leading rest <;> simp [opening, leads, elsewhere]

end Selector

namespace Prepared

variable {options : Options ν σ} {scope given : Option (Scope ν)} {atScope : Step ν σ}

theorem fold_congr_of_steps {group other : List (Prepared ν σ)}
    (steps : group.map Prepared.step = other.map Prepared.step) (start : Predicate ν σ) :
    fold options scope group start = fold options scope other start := by
  induction group generalizing other start with
  | nil =>
    cases other with
    | nil => rfl
    | cons => cases steps
  | cons first rest ih =>
    cases other with
    | nil => cases steps
    | cons head tail =>
      obtain ⟨same, further⟩ := List.cons.inj steps
      rw [fold, fold, same]
      split
      · rfl
      · exact congrArg _ (funext (ih further))

theorem fold_skip {skip : Prepared ν σ}
    (skips : ∀ options scope next, skip.step options scope next = pure next)
    (before after : List (Prepared ν σ)) (start : Predicate ν σ) :
    fold options scope (before ++ skip :: after) start = fold options scope (before ++ after) start := by
  rw [fold_append, fold_append]
  refine congrArg _ (funext fun next => ?_)
  rw [fold]
  split
  · next never =>
    obtain rfl := Predicate.eq_alwaysFalse never
    rw [fold_alwaysFalse]
  · rw [skips, pure_bind]

/-- Two groups compile to the same if they are folded alike and ask for siblings alike. -/
theorem compile_congr (relative : options.flags.relativeSelector = true)
    {group other : List (Prepared ν σ)}
    (folds : ∀ collection start, fold options (scopeOf options given)
        (complete atScope true (anchors options given) collection group) start =
      fold options (scopeOf options given)
        (complete atScope true (anchors options given) collection other) start)
    (reaches : Selector.startsAmongSiblings
        (tokens (complete atScope true (anchors options given) false group)) =
      Selector.startsAmongSiblings
        (tokens (complete atScope true (anchors options given) false other))) :
    compile atScope [group] options given = compile atScope [other] options given := by
  rw [compile_eq, compile_eq, refused_of_relative relative, refused_of_relative relative,
    if_neg Bool.false_ne_true, if_neg Bool.false_ne_true]
  unfold completed amongSiblings
  rw [relative, List.map_singleton, List.map_singleton, foldGroups, foldGroups, folds,
    List.any_cons, List.any_cons, reaches]

/-- What a group is fronted with that does not open at the scope itself. -/
def opened (atScope : Step ν σ) (collection fronted : Bool) : List (Prepared ν σ) :=
  if fronted then [⟨Selector.scope, atScope⟩,
    ofCombinator (if collection then .descendantOrSelf else .descendant)]
  else []

theorem complete_eq_opened (anchored collection : Bool) {group : List (Prepared ν σ)}
    (absolute : Selector.startsRelative (tokens group) = false)
    (elsewhere : Selector.startsBelowScope (tokens group) = false) :
    complete atScope true anchored collection group =
      opened atScope collection (anchored && !(tokens group).any Token.mentionsScope) ++
        arrange (fun item => item.token.rank) group := by
  have stays : widen (arrange (fun item => item.token.rank) group) =
      arrange (fun item => item.token.rank) group := by
    have notBelow : Selector.startsBelowScope
        (tokens (arrange (fun item => item.token.rank) group)) = false := by
      rw [tokens_arrange, Selector.startsBelowScope_eq, Selector.opening_arrange,
        ← Selector.startsBelowScope_eq]
      exact elsewhere
    unfold widen
    split
    · rw [notBelow, if_neg Bool.false_ne_true]
    · rfl
  unfold complete
  dsimp only
  rw [if_pos rfl, anchor, tokens_arrange, Selector.front_arrange, Selector.front, absolute,
    if_neg Bool.false_ne_true]
  cases anchored && !(tokens group).any Token.mentionsScope with
  | false =>
    rw [if_neg Bool.false_ne_true]
    cases collection with
    | false => rfl
    | true => exact stays
  | true => cases collection <;> rfl

theorem startsAmongSiblings_opened {fronted : Bool} {group : List (Prepared ν σ)}
    (elsewhere : Selector.startsAmongSiblings (tokens group) = false) :
    Selector.startsAmongSiblings (tokens (opened atScope false fronted ++ group)) = false := by
  cases fronted with
  | false => exact elsewhere
  | true => rfl

theorem rank_descendant : (ofCombinator .descendant : Prepared ν σ).token.rank < 0 :=
  show (Token.combinator .descendant).rank < 0 by decide

theorem complete_descendant (anchored collection : Bool) (group : List (Prepared ν σ)) :
    complete atScope true anchored collection (ofCombinator .descendant :: group) =
      opened atScope collection (anchored && !(tokens group).any Token.mentionsScope) ++
        ofCombinator .descendant :: arrange (fun item => item.token.rank) group := by
  have elsewhere : Selector.startsBelowScope (tokens (ofCombinator .descendant :: group)) = false :=
    Selector.startsBelowScope_of_head rfl
  have arranged := arrange_append_barrier (fun item : Prepared ν σ => item.token.rank) rank_descendant
    [] group
  rw [complete_eq_opened anchored collection rfl elsewhere]
  exact congrArg _ arranged

theorem complete_before_descendant (anchored collection : Bool) (skip : Step ν σ)
    (group : List (Prepared ν σ)) :
    complete atScope true anchored collection
        (⟨Selector.universal, skip⟩ :: ofCombinator .descendant :: group) =
      opened atScope collection (anchored && !(tokens group).any Token.mentionsScope) ++
        ⟨Selector.universal, skip⟩ :: ofCombinator .descendant ::
          arrange (fun item => item.token.rank) group := by
  have elsewhere : Selector.startsBelowScope
      (tokens (⟨Selector.universal, skip⟩ :: ofCombinator .descendant :: group)) = false :=
    Selector.startsBelowScope_of_head rfl
  have arranged := arrange_append_barrier (fun item : Prepared ν σ => item.token.rank) rank_descendant
    [⟨Selector.universal, skip⟩] group
  rw [arrange_singleton] at arranged
  rw [complete_eq_opened anchored collection rfl elsewhere]
  exact congrArg _ arranged

theorem complete_scope_descendant (anchored collection : Bool) (group : List (Prepared ν σ)) :
    complete atScope true anchored collection
        (⟨Selector.scope, atScope⟩ :: ofCombinator .descendant :: group) =
      opened atScope collection true ++ arrange (fun item => item.token.rank) group := by
  have arranged := arrange_append_barrier (fun item : Prepared ν σ => item.token.rank) rank_descendant
    [⟨Selector.scope, atScope⟩] group
  rw [arrange_singleton] at arranged
  have front : Selector.front anchored
      (tokens (arrange (fun item => item.token.rank)
        (⟨Selector.scope, atScope⟩ :: ofCombinator .descendant :: group))) = .nothing := by
    rw [tokens_arrange, Selector.front_arrange]
    cases anchored <;> rfl
  unfold complete
  dsimp only
  rw [if_pos rfl, anchor, front]
  change (if collection then widen (arrange _ ([_] ++ _ :: group)) else arrange _ ([_] ++ _ :: group)) = _
  rw [arranged]
  cases collection <;> rfl

/-- With nothing before it, a descendant combinator compiles to what it compiles to behind the universal
selector. -/
theorem compile_before_descendant (relative : options.flags.relativeSelector = true) {skip : Step ν σ}
    (skips : ∀ options scope next, skip options scope next = pure next) (group : List (Prepared ν σ)) :
    compile atScope [ofCombinator .descendant :: group] options given =
      compile atScope [⟨Selector.universal, skip⟩ :: ofCombinator .descendant :: group] options given := by
  refine compile_congr relative (fun collection start => ?_) ?_
  · rw [complete_descendant, complete_before_descendant]
    exact (fold_skip skips _ _ start).symm
  · have elsewhere (first : Prepared ν σ) (rest : List (Prepared ν σ)) (other : first.token.isScope = false) :
        Selector.startsAmongSiblings (tokens (first :: rest)) = false :=
      Selector.startsAmongSiblings_of_head other
    rw [complete_descendant, complete_before_descendant, startsAmongSiblings_opened (elsewhere _ _ rfl),
      startsAmongSiblings_opened (elsewhere _ _ rfl)]

/-- A group of one token compiles as another one with the same step, if both mention `:scope` or none. -/
theorem compile_singleton_congr (relative : options.flags.relativeSelector = true)
    {first second : Prepared ν σ} (step : first.step = second.step)
    (simple : first.token.isCombinator = false) (simple' : second.token.isCombinator = false)
    (mentions : first.token.mentionsScope = second.token.mentionsScope) :
    compile atScope [[first]] options given = compile atScope [[second]] options given := by
  have absolute {item : Prepared ν σ} (simple : item.token.isCombinator = false) :
      Selector.startsRelative (tokens [item]) = false :=
    Selector.startsRelative_of_compound (List.forall_mem_singleton.mpr simple)
  have fronted : (tokens [first]).any Token.mentionsScope = (tokens [second]).any Token.mentionsScope := by
    simp only [tokens, List.map_cons, List.map_nil, List.any_cons, List.any_nil, mentions]
  refine compile_congr relative (fun collection start => ?_) ?_
  · rw [complete_eq_opened _ collection (absolute simple) rfl,
      complete_eq_opened _ collection (absolute simple') rfl, arrange_singleton, arrange_singleton,
      fronted]
    refine fold_congr_of_steps ?_ start
    rw [List.map_append, List.map_append, List.map_singleton, List.map_singleton, step]
  · rw [complete_eq_opened _ false (absolute simple) rfl,
      complete_eq_opened _ false (absolute simple') rfl, arrange_singleton, arrange_singleton,
      startsAmongSiblings_opened rfl, startsAmongSiblings_opened rfl]

end Prepared

namespace Subselect

variable {atScope : Step ν σ}

/-- `:has()` compiles alike for arguments that compile alike. -/
theorem hasStep_congr {groups other : List (List (Prepared ν σ))}
    (relative : isRelative groups = true) (relative' : isRelative other = true)
    (compiles : ∀ options scope, options.flags.relativeSelector = true →
      Prepared.compile atScope groups options scope = Prepared.compile atScope other options scope) :
    hasStep atScope groups = hasStep atScope other := by
  funext options scope next
  rw [hasStep_eq, hasStep_eq, hasQuery, hasQuery, relative, relative', if_pos rfl, if_pos rfl,
    compiles options.embedded.unremembering (some .subject) rfl]
  refine congrArg _ (funext fun query => ?_)
  rw [hasSearch, hasSearch, relative, relative']

end Subselect

namespace SelectorList

variable (options : Options ν σ) (given : Option (MatchContext ν))

private theorem compile_of_prepared {selectors other : SelectorList}
    (same : ∀ expand : SelectorList → Step ν σ,
      Prepared.compile (scopeStep expand) (prepareGroups expand selectors) options (given.map Scope.fixed) =
        Prepared.compile (scopeStep expand) (prepareGroups expand other) options
          (given.map Scope.fixed)) :
    compile selectors options given = compile other options given := by
  unfold compile compileUnchecked
  dsimp only
  rw [same]

variable {options} (relative : options.flags.relativeSelector = true) (group : Group)
include relative

/-- A group that starts with a descendant combinator compiles as if the universal selector stood before
it. -/
theorem compile_descendant_eq :
    compile [Selector.descendant :: group] options given =
      compile [Selector.universal :: Selector.descendant :: group] options given :=
  compile_of_prepared options given fun expand =>
    Prepared.compile_before_descendant relative (fun _ _ _ => rfl) (prepareGroup expand group)

theorem compile_has_descendant_eq :
    compile [[.subselect "has" [Selector.descendant :: group]]] options given =
      compile [[.subselect "has" [Selector.universal :: Selector.descendant :: group]]] options given := by
  refine compile_of_prepared options given fun expand => ?_
  have steps : Subselect.hasStep (scopeStep expand)
        (prepareGroups expand [Selector.descendant :: group]) =
      Subselect.hasStep (scopeStep expand)
        (prepareGroups expand [Selector.universal :: Selector.descendant :: group]) :=
    Subselect.hasStep_congr rfl rfl fun options scope relative =>
      Prepared.compile_before_descendant relative (fun _ _ _ => rfl) (prepareGroup expand group)
  exact Prepared.compile_singleton_congr relative steps rfl rfl rfl

/-- With a context to anchor it at, a group that mentions no `:scope` and starts with no combinator compiles
as it does with its front written out. -/
theorem compile_front_eq {group : Group} (plain : Selector.startsWithCombinator group = false)
    (unmentioned : group.any Token.mentionsScope = false)
    (anchors : Prepared.anchors options (given.map Scope.fixed) = true) :
    compile [group] options given =
      compile [Selector.scope :: Selector.descendant :: group] options given := by
  refine compile_of_prepared options given fun expand => ?_
  have tokens := Prepared.tokens_prepareGroup expand group
  have complete (collection : Bool) :
      Prepared.complete (scopeStep expand) true true collection (prepareGroup expand group) =
        Prepared.complete (scopeStep expand) true true collection
          (⟨Selector.scope, scopeStep expand⟩ :: Prepared.ofCombinator .descendant ::
            prepareGroup expand group) := by
    have absolute : Selector.startsRelative (Prepared.tokens (prepareGroup expand group)) = false := by
      rw [tokens, Selector.startsRelative_of_plain plain]
    have elsewhere : Selector.startsBelowScope (Prepared.tokens (prepareGroup expand group)) = false := by
      rw [tokens, Selector.startsBelowScope_of_unmentioned unmentioned]
    rw [Prepared.complete_eq_opened true collection absolute elsewhere,
      Prepared.complete_scope_descendant, tokens, unmentioned]
    rfl
  refine Prepared.compile_congr relative (fun collection start => ?_) ?_
  · rw [anchors, complete collection]
    rfl
  · rw [anchors, complete false]
    rfl

end SelectorList
end SelectorEngine
