import SelectorEngine.Proofs.Compile.Extension
import SelectorEngine.Proofs.Meaning.Region

/-! Compiling with relative selectors allowed and without. When no group starts with a combinator, all that
differs is what groups are fronted with; and a front has no influence on whether compiling fails, nor on
the error it fails with. -/
namespace SelectorEngine

variable {ν σ : Type}

/-- The options with relative selectors not allowed; then groups are not anchored either. -/
def Options.withoutRelative (options : Options ν σ) : Options ν σ :=
  { options with flags := { options.flags with relativeSelector := false } }

namespace CompileM

variable {τ α β : Type}

theorem agree_of_cases {related : α → β → Prop} {first : CompileM σ α} {second : CompileM τ β}
    (each : ∀ session other, (∃ error, Fails first session error ∧ Fails second other error) ∨
      ∃ value after counterpart ended, Gives first session value after ∧
        Gives second other counterpart ended ∧ related value counterpart) :
    Agree related first second := by
  intro session other
  rcases each session other with
    ⟨error, failed, failed'⟩ | ⟨value, after, counterpart, ended, given, given', pair⟩
  · unfold Fails at failed failed'
    rw [failed, failed']
  · unfold Gives at given given'
    rw [given, given']
    exact pair

/-- What comes before and always succeeds does not matter. -/
theorem agree_bind_left {related : α → β → Prop} {kept : α → Prop} {action : CompileM σ α}
    {next : α → CompileM σ α} {other : CompileM τ β} (start : Settles action false kept)
    (rest : ∀ value, kept value → Agree related (next value) other) :
    Agree related (action >>= next) other := by
  refine agree_of_cases fun session another => ?_
  obtain ⟨value, between, given, isKept⟩ := start session
  rcases gives_or_fails (next value) between with ⟨result, after, gives⟩ | ⟨error, fails⟩
  · obtain ⟨counterpart, ended, given', pair⟩ := (rest value isKept).gives gives another
    exact .inr ⟨result, after, counterpart, ended, gives_bind.mpr ⟨value, between, given, gives⟩,
      given', pair⟩
  · exact .inl ⟨error, given.bind_fails fails, (rest value isKept).fails fails another⟩

theorem Agree.mono {related kept : α → β → Prop} {first : CompileM σ α} {second : CompileM τ β}
    (agree : Agree related first second)
    (weaker : ∀ value counterpart, related value counterpart → kept value counterpart) :
    Agree kept first second := by
  refine agree_of_cases fun session other => ?_
  rcases gives_or_fails first session with ⟨value, after, given⟩ | ⟨error, failed⟩
  · obtain ⟨counterpart, ended, given', pair⟩ := agree.gives given other
    exact .inr ⟨value, after, counterpart, ended, given, given', weaker value counterpart pair⟩
  · exact .inl ⟨error, failed, agree.fails failed other⟩

end CompileM

theorem Predicate.Alike.refl (predicate : Predicate ν σ) : predicate.Alike predicate := by
  cases predicate with
  | alwaysTrue => exact .alwaysTrue
  | alwaysFalse => exact .alwaysFalse
  | dynamic identity plan => exact .dynamic identity identity fun _ _ => rfl

theorem Extension.isAlwaysFalse_apply (extension : Extension ν σ) (session : Session σ)
    (next : Predicate ν σ) : ((extension.apply next).run session).1.isAlwaysFalse =
      (extension.verdict == .never || next.isAlwaysFalse) := by
  cases extension with
  | and first => cases first <;> cases next <;> rfl
  | walk kind options =>
    obtain ⟨identity, plan, made, _⟩ := combinatorWalk_run session kind options next.toPlan
    unfold apply
    dsimp only
    cases never : next.isAlwaysFalse with
    | true => rfl
    | false =>
      rw [if_neg Bool.false_ne_true, made]
      rfl
  | _ => cases next <;> rfl

open CompileM

/-- Whether a step fails, and with which error, is the same for all predicates behind it, and so is
whether the result is known never to match, as long as that is known of both or none of them. -/
theorem Step.Uniform.agree_never {core : Options ν σ} {step : Step ν σ} (uniform : step.Uniform .answers core)
    (extend : step.Extends) (builtin : core.custom = {}) {options other : Options ν σ}
    (same : options.core = core) (same' : other.core = core) (scope : Option (Scope ν))
    {next counterpart : Predicate ν σ} (alike : next.isAlwaysFalse = counterpart.isAlwaysFalse) :
    Agree (fun result partner => result.isAlwaysFalse = partner.isAlwaysFalse)
      (step options scope next) (step other scope counterpart) := by
  refine agree_of_cases fun session another => ?_
  have custom : options.custom = {} := (congrArg Options.custom same).trans builtin
  have across := uniform options other (Options.suits_answers same) (Options.suits_answers same') scope
    (Predicate.Alike.refl counterpart)
  rcases extend options custom scope session with ⟨error, fails⟩ | ⟨extension, between, _, gives⟩
  · exact .inl ⟨error, fails options.root next, across.fails (fails options.root counterpart) another⟩
  · obtain ⟨partner, ended, given, alike'⟩ := across.gives (gives options.root counterpart) another
    refine .inr ⟨_, _, partner, ended, gives options.root next, given, ?_⟩
    rw [← alike'.isAlwaysFalse, extension.isAlwaysFalse_apply, extension.isAlwaysFalse_apply, alike]

theorem Selector.written_anchored {group : Group} (absolute : startsRelative group = false)
    (unmentioned : group.any Token.mentionsScope = false) (collection : Bool) :
    written collection true group =
      scope :: .combinator (if collection then .descendantOrSelf else .descendant) :: group := by
  rw [written, front_of_absolute absolute, unmentioned]
  cases collection <;> rfl

theorem Selector.written_of_unmentioned {group : Group} (absolute : startsRelative group = false)
    (unmentioned : group.any Token.mentionsScope = false) (collection : Bool) :
    written collection false group = group := by
  rw [written, front_of_absolute absolute, Bool.false_and, if_neg Bool.false_ne_true]
  cases collection with
  | false => rfl
  | true =>
    change widened group = group
    unfold widened
    split
    · rw [startsBelowScope_of_unmentioned unmentioned, if_neg Bool.false_ne_true]
    · rfl

theorem Selector.written_of_mentioned {group : Group} (plain : startsWithCombinator group = false)
    (mentioned : group.any Token.mentionsScope = true) (collection anchored : Bool) :
    written collection anchored group = written collection false group := by
  rw [written, front_of_plain plain, written, front_of_plain plain, mentioned, Bool.not_true,
    Bool.and_false, Bool.and_false]

theorem Selector.startsWithCombinator_written {group : Group} (plain : startsWithCombinator group = false)
    (anchored : Bool) : startsWithCombinator (written false anchored group) = false := by
  rw [written, front_of_plain plain]
  cases anchored && !group.any Token.mentionsScope with
  | false => exact plain
  | true => rfl

namespace Prepared

variable {core options other : Options ν σ} {scope : Option (Scope ν)} {atScope : Step ν σ}

theorem fold_append (front group : List (Prepared ν σ)) (start : Predicate ν σ) :
    fold options scope (front ++ group) start =
      fold options scope front start >>= fold options scope group := by
  induction front generalizing start with
  | nil => exact (pure_bind start _).symm
  | cons first rest ih =>
    rw [List.cons_append, fold, fold]
    split
    · next never =>
      obtain rfl := Predicate.eq_alwaysFalse never
      rw [pure_bind, fold_alwaysFalse]
    · rw [bind_assoc]
      exact congrArg _ (funext ih)

theorem agree_fold_never (scope : Option (Scope ν)) (builtin : core.custom = {}) (same : options.core = core)
    (same' : other.core = core) {group : List (Prepared ν σ)}
    (uniform : ∀ item ∈ group, item.step.Uniform .answers core) (extend : ∀ item ∈ group, item.step.Extends)
    {start counterpart : Predicate ν σ} (alike : start.isAlwaysFalse = counterpart.isAlwaysFalse) :
    Agree (fun result partner => result.isAlwaysFalse = partner.isAlwaysFalse)
      (fold options scope group start) (fold other scope group counterpart) := by
  induction group generalizing start counterpart with
  | nil => exact agree_pure alike
  | cons first rest ih =>
    obtain ⟨head, tail⟩ := List.forall_mem_cons.mp uniform
    obtain ⟨headExtend, tailExtend⟩ := List.forall_mem_cons.mp extend
    rw [fold, fold, alike]
    split
    · exact agree_pure alike
    · exact agree_bind (head.agree_never headExtend builtin same same' scope alike)
        fun _ _ pair => ih tail tailExtend pair

/-- Groups fail alike if each of them does. -/
theorem agree_foldGroups_of_each {groups : List (List (Prepared ν σ))}
    {first second : List (Prepared ν σ) → List (Prepared ν σ)}
    (each : ∀ group ∈ groups, Agree (fun _ _ => True) (fold options scope (first group) options.root)
      (fold other scope (second group) other.root)) (united counterpart : Predicate ν σ) :
    Agree (fun _ _ => True) (foldGroups options scope (groups.map first) united)
      (foldGroups other scope (groups.map second) counterpart) := by
  induction groups generalizing united counterpart with
  | nil => exact agree_pure trivial
  | cons group rest ih =>
    obtain ⟨head, tail⟩ := List.forall_mem_cons.mp each
    rw [List.map_cons, List.map_cons, foldGroups, foldGroups]
    refine agree_bind head fun predicate partner _ => ?_
    have joined : Agree (fun _ _ => True)
        (liftM (united.union predicate options.root) : CompileM σ (Predicate ν σ))
        (liftM (counterpart.union partner other.root) : CompileM σ (Predicate ν σ)) :=
      agree_lift fun _ _ => trivial
    exact agree_bind joined fun union unionPartner _ => ih tail union unionPartner

/-- A group that does not start with a combinator is fronted with nothing, or with `:scope` and a
combinator that leads down from there if it mentions no `:scope` itself. -/
theorem exists_front (atScope : Step ν σ) (anchored collection : Bool) {group : List (Prepared ν σ)}
    (plain : Selector.startsWithCombinator (tokens group) = false) :
    ∃ front, complete atScope true anchored collection group =
        front ++ complete atScope false anchored collection group ∧
      (front = [] ∨ anchored = true ∧ (tokens group).any Token.mentionsScope = false ∧
        front = [⟨Selector.scope, atScope⟩,
          ofCombinator (if collection then .descendantOrSelf else .descendant)]) := by
  unfold complete
  dsimp only
  rw [if_pos rfl, if_neg Bool.false_ne_true, anchor, tokens_arrange, Selector.front_arrange,
    Selector.front_of_plain plain]
  by_cases fronted : (anchored && !(tokens group).any Token.mentionsScope) = true
  · obtain ⟨isAnchored, unmentioned⟩ := Bool.and_eq_true_iff.mp fronted
    rw [Bool.not_eq_true'] at unmentioned
    rw [if_pos fronted]
    refine ⟨_, ?_, .inr ⟨isAnchored, unmentioned, rfl⟩⟩
    cases collection with
    | false => rfl
    | true =>
      have stays : widen (arrange (fun item => item.token.rank) group) =
          arrange (fun item => item.token.rank) group := by
        have notBelow : Selector.startsBelowScope
            (tokens (arrange (fun item => item.token.rank) group)) = false := by
          rw [tokens_arrange, Selector.startsBelowScope_eq, Selector.opening_arrange,
            ← Selector.startsBelowScope_eq]
          exact Selector.startsBelowScope_of_unmentioned unmentioned
        unfold widen
        split
        · rw [notBelow, if_neg Bool.false_ne_true]
        · rfl
      rw [if_pos rfl, if_pos rfl, if_pos rfl, stays]
      rfl
  · rw [if_neg fronted]
    exact ⟨[], rfl, .inl rfl⟩

theorem refused_of_relative (relative : options.flags.relativeSelector = true)
    (groups : List (List (Prepared ν σ))) : refused groups options = false := by
  rw [refused, relative]
  rfl

theorem complete_unanchored (atScope : Step ν σ) (anchored collection : Bool)
    {group : List (Prepared ν σ)} (plain : Selector.startsWithCombinator (tokens group) = false) :
    complete atScope false anchored collection group = complete atScope true false collection group := by
  obtain ⟨front, split, rfl | ⟨impossible, _⟩⟩ := exists_front atScope false collection plain
  · rw [split, List.nil_append]
    rfl
  · cases impossible

theorem startsAmongSiblings_complete (anchored : Bool) {group : List (Prepared ν σ)}
    (plain : Selector.startsWithCombinator (tokens group) = false) :
    Selector.startsAmongSiblings (tokens (complete atScope true anchored false group)) =
      Selector.startsAmongSiblings (tokens (complete atScope false anchored false group)) := by
  obtain ⟨front, split, rfl | ⟨_, unmentioned, rfl⟩⟩ := exists_front atScope anchored false plain
  · rw [split, List.nil_append]
  · have notAmong : Selector.startsAmongSiblings
        (tokens (complete atScope false anchored false group)) = false := by
      change Selector.startsAmongSiblings (tokens (arrange (fun item => item.token.rank) group)) = false
      rw [tokens_arrange, Selector.startsAmongSiblings_eq, Selector.opening_arrange,
        ← Selector.startsAmongSiblings_eq]
      exact Selector.startsAmongSiblings_of_unmentioned unmentioned
    rw [split, notAmong]
    rfl

/-- The front of a group compiles to a test that may pass. -/
theorem settles_front (builtin : core.custom = {}) (same : options.core = core)
    (expand : SelectorList → Step ν σ) {kind : Combinator} (written : kind ≠ .column) :
    Settles (fold options scope [⟨Selector.scope, scopeStep expand⟩, ofCombinator kind] .alwaysTrue)
      false fun result => result.isAlwaysFalse = false := by
  have foreseen : Foreseen core [⟨Selector.scope, scopeStep expand⟩, ofCombinator kind] :=
    List.forall_mem_cons.mpr ⟨Step.foreseen_atScope builtin expand,
      List.forall_mem_singleton.mpr (Step.foreseen_combinator kind)⟩
  have may : (Predicate.alwaysTrue : Predicate ν σ).isAlwaysFalse = false := rfl
  have settles := settles_fold same scope foreseen may
  have found : findingAs (Token.survey core.toBasis.outlook)
      [⟨Selector.scope, scopeStep expand⟩, ofCombinator kind] = (⟨.unknown, false⟩ : Finding) := by
    cases kind <;> first | rfl | exact absurd rfl written
  rw [found] at settles
  intro session
  obtain ⟨value, after, given, verdict⟩ := settles session
  refine ⟨value, after, given, value.isAlwaysFalse_eq_false_iff.mpr ?_⟩
  rw [verdict]
  exact Verdict.noConfusion

section

variable {expand : SelectorList → Step ν σ} {groups : List (List (Prepared ν σ))}
  (plain : ∀ group ∈ groups, Selector.startsWithCombinator (tokens group) = false)
include plain

theorem refused_withoutRelative (options : Options ν σ) : refused groups options = false := by
  rw [refused, Bool.and_eq_false_iff]
  refine .inr (List.any_eq_false.mpr fun group listed => ?_)
  obtain ⟨original, inGroups, rfl⟩ := List.mem_map.mp listed
  rw [tokens_arrange, Selector.startsWithCombinator_arrange, plain original inGroups]
  exact Bool.false_ne_true

theorem amongSiblings_withoutRelative (relative : options.flags.relativeSelector = true)
    (given : Option (Scope ν)) :
    amongSiblings atScope groups options given =
      amongSiblings atScope groups options.withoutRelative given := by
  unfold amongSiblings
  rw [relative, Bool.eq_iff_iff, List.any_eq_true, List.any_eq_true]
  refine exists_congr fun group => and_congr_right fun listed => ?_
  rw [startsAmongSiblings_complete _ (plain group listed)]
  rfl

/-- With relative selectors and without, groups that do not start with a combinator fail with the same error,
or compile and ask for siblings alike. -/
theorem agree_compile_withoutRelative (builtin : core.custom = {}) (same : options.core = core)
    (relative : options.flags.relativeSelector = true) (root : options.root = .alwaysTrue)
    (uniformScope : (scopeStep expand).Uniform .answers core) (extendScope : (scopeStep expand).Extends)
    (uniform : ∀ group ∈ groups, ∀ item ∈ group, item.step.Uniform .answers core)
    (extend : ∀ group ∈ groups, ∀ item ∈ group, item.step.Extends) (given : Option (Scope ν)) :
    Agree (fun query partner => query.reachesSiblings = partner.reachesSiblings)
      (compile (scopeStep expand) groups options given)
      (compile (scopeStep expand) groups options.withoutRelative given) := by
  have same' : options.withoutRelative.core = core := same
  have root' : options.withoutRelative.root = .alwaysTrue := root
  rw [compile_eq, compile_eq, refused_withoutRelative plain, refused_withoutRelative plain,
    if_neg Bool.false_ne_true, if_neg Bool.false_ne_true, completed, completed, relative]
  refine agree_bind (agree_foldGroups_of_each (fun group listed => ?_) _ _) fun _ _ _ =>
    agree_pure (amongSiblings_withoutRelative plain relative given)
  obtain ⟨front, split, isFront⟩ := exists_front (scopeStep expand) (anchors options given)
    ((scopeOf options given).any Scope.isCollection) (plain group listed)
  have uniformInside : ∀ item ∈ complete (scopeStep expand) false (anchors options given)
      ((scopeOf options given).any Scope.isCollection) group, item.step.Uniform .answers core := by
    intro item member
    rcases mem_complete member with inGroup | rfl | ⟨kind, rfl⟩
    · exact uniform group listed item inGroup
    · exact uniformScope
    · exact Step.uniform_combinator kind
  have extendInside : ∀ item ∈ complete (scopeStep expand) false (anchors options given)
      ((scopeOf options given).any Scope.isCollection) group, item.step.Extends := by
    intro item member
    rcases mem_complete member with inGroup | rfl | ⟨kind, rfl⟩
    · exact extend group listed item inGroup
    · exact extendScope
    · exact Step.extends_combinator kind
  -- Behind its front the group is folded as it is without, only onto another start.
  have folds (start : Predicate ν σ)
      (may : start.isAlwaysFalse = (Predicate.alwaysTrue : Predicate ν σ).isAlwaysFalse) :=
    agree_fold_never (scopeOf options given) builtin same same' uniformInside extendInside may
  rw [split, fold_append, root, root']
  rcases isFront with rfl | ⟨_, _, rfl⟩
  · rw [fold, pure_bind]
    exact (folds .alwaysTrue rfl).mono fun _ _ _ => trivial
  · have written : (if (scopeOf options given).any Scope.isCollection then Combinator.descendantOrSelf
        else .descendant) ≠ .column := by split <;> exact Combinator.noConfusion
    exact agree_bind_left (settles_front builtin same expand written) fun start may =>
      (folds start may).mono fun _ _ _ => trivial

end

theorem tokens_prepareGroup (expand : SelectorList → Step ν σ) (group : Group) :
    tokens (prepareGroup expand group) = group := by
  simp [prepareGroup_eq_map, tokens, Function.comp_def]

/-- Without relative selectors, a group that is written with its front is folded as it is folded with relative
selectors when written without. -/
theorem complete_written (expand : SelectorList → Step ν σ) (anchored collection : Bool) {group : Group}
    (plain : Selector.startsWithCombinator group = false) :
    complete (scopeStep expand) false anchored collection
        (prepareGroup expand (Selector.written false anchored group)) =
      complete (scopeStep expand) true anchored collection (prepareGroup expand group) := by
  have barrier : (ofCombinator .descendant : Prepared ν σ).token.rank < 0 :=
    show (Token.combinator .descendant).rank < 0 by decide
  have arranged : arrange (fun item => item.token.rank)
        (prepareGroup expand (Selector.written false anchored group)) =
      ofFront (scopeStep expand) (Selector.front anchored group) ++
        arrange (fun item => item.token.rank) (prepareGroup expand group) := by
    rw [Selector.written, Selector.front_of_plain plain]
    cases anchored && !group.any Token.mentionsScope with
    | false => rfl
    | true =>
      change arrange _ ([⟨Selector.scope, scopeStep expand⟩] ++
        ofCombinator .descendant :: prepareGroup expand group) = _
      rw [arrange_append_barrier (fun item : Prepared ν σ => item.token.rank) barrier, arrange_singleton]
      rfl
  unfold complete
  dsimp only
  rw [if_pos rfl, if_neg Bool.false_ne_true, arranged, anchor, tokens_arrange, tokens_prepareGroup,
    Selector.front_arrange]

end Prepared

namespace SelectorList

private theorem uniform_completed (options : Options ν σ) (selectors : SelectorList)
    (builtin : options.core.custom = {}) (given : Option (Scope ν)) :
    ∀ group ∈ Prepared.completed (scopeStep (expansion depth)) (prepareGroups (expansion depth) selectors)
      options given, ∀ item ∈ group, item.step.Uniform .answers options.core := by
  have knows : Kinship.answers.Knows options.core.custom := Kinship.knows_of_empty builtin
  exact Prepared.forall_completed options given (Step.uniform_prepareGroups knows depth selectors)
    (Step.uniform_atScope knows depth) Step.uniform_combinator

private theorem plain_prepareGroups {selectors : SelectorList}
    (plain : ∀ group ∈ selectors, Selector.startsWithCombinator group = false)
    (expand : SelectorList → Step ν σ) : ∀ group ∈ prepareGroups expand selectors,
      Selector.startsWithCombinator (Prepared.tokens group) = false := by
  intro group listed
  rw [prepareGroups_eq_map] at listed
  obtain ⟨original, inGroups, rfl⟩ := List.mem_map.mp listed
  rw [Prepared.tokens_prepareGroup]
  exact plain original inGroups

variable {options : Options ν σ} (builtin : options.custom = {})
  (relative : options.flags.relativeSelector = true) (root : options.root = .alwaysTrue)
  {selectors : SelectorList}
  (plain : ∀ group ∈ selectors, Selector.startsWithCombinator group = false)
  (given : Option (MatchContext ν))
include builtin relative root plain

/-- Selectors that do not start with a combinator compile with relative selectors if, and only if, they do
without, fail with the same error, and ask for siblings alike. -/
theorem agree_withoutRelative :
    Agree (fun query partner => query.reachesSiblings = partner.reachesSiblings)
      (selectors.compile options given) (selectors.compile options.withoutRelative given) := by
  have coreBuiltin : options.core.custom = {} := builtin
  have knows : Kinship.answers.Knows options.core.custom := Kinship.knows_of_empty coreBuiltin
  have compiled := Prepared.agree_compile_withoutRelative (plain_prepareGroups plain (expansion depth))
    coreBuiltin rfl relative root (Step.uniform_atScope knows depth) (Step.extends_atScope depth)
    (Step.uniform_prepareGroups knows depth selectors) (extends_prepareGroups depth selectors)
    (given.map Scope.fixed)
  have custom : options.withoutRelative.custom = {} := builtin
  unfold compile compileUnchecked
  rw [aliasDepth_eq builtin, aliasDepth_eq custom]
  refine agree_bind compiled fun query partner pair => ?_
  have guarded : Agree (fun _ _ => True)
      (liftM (query.predicate.guard (.holds options.tree.isElement)) : CompileM σ (Predicate ν σ))
      (liftM (partner.predicate.guard (.holds options.tree.isElement)) : CompileM σ (Predicate ν σ)) :=
    agree_lift fun _ _ => trivial
  exact agree_bind guarded fun _ _ _ => agree_pure pair

/-- With relative selectors a list is compiled to what it is compiled to without them when every group is
written as it is anchored. -/
theorem agree_written_withoutRelative :
    Agree Query.Alike (selectors.compile options given)
      (compile (selectors.map (Selector.written false (Prepared.anchors options (given.map Scope.fixed))))
        options.withoutRelative given) := by
  have custom : options.withoutRelative.custom = {} := builtin
  have root' : options.withoutRelative.root = .alwaysTrue := root
  have core : options.withoutRelative.core = options.core := rfl
  have plainWritten : ∀ group ∈ selectors.map (Selector.written false
      (Prepared.anchors options (given.map Scope.fixed))), Selector.startsWithCombinator group = false := by
    intro group listed
    obtain ⟨original, inGroups, rfl⟩ := List.mem_map.mp listed
    exact Selector.startsWithCombinator_written (plain original inGroups) _
  refine agree_compile_of_unchecked rfl ?_
  unfold compileUnchecked
  rw [aliasDepth_eq builtin, aliasDepth_eq custom]
  dsimp only
  rw [prepareGroups_eq_map, prepareGroups_eq_map, List.map_map]
  refine Prepared.agree_compile_of_complete (Options.suits_answers rfl) (Options.suits_answers core) root root'
    ?_ rfl
    (fun collection group listed => ?_) ?_
  · rw [Prepared.refused_of_relative relative, ← List.map_map, ← prepareGroups_eq_map,
      Prepared.refused_withoutRelative (plain_prepareGroups plainWritten _)]
  · rw [relative]
    exact (Prepared.complete_written (expansion depth) _ collection (plain group listed)).symm
  · rw [← List.map_map, ← prepareGroups_eq_map]
    exact uniform_completed options.withoutRelative _ builtin _

/-- Without relative selectors nothing is anchored. -/
theorem agree_unanchored_withoutRelative :
    Agree Query.Alike (selectors.compile options.unanchored given)
      (selectors.compile options.withoutRelative given) := by
  have custom : options.withoutRelative.custom = {} := builtin
  have custom' : options.unanchored.custom = {} := builtin
  have root' : options.withoutRelative.root = .alwaysTrue := root
  have core : options.unanchored.core = options.withoutRelative.core := rfl
  have relative' : options.unanchored.flags.relativeSelector = true := relative
  refine agree_compile_of_unchecked rfl ?_
  unfold compileUnchecked
  rw [aliasDepth_eq custom, aliasDepth_eq custom']
  dsimp only
  rw [prepareGroups_eq_map]
  refine Prepared.agree_compile_of_complete (Options.suits_answers core) (Options.suits_answers rfl) root root'
    ?_ rfl
    (fun collection group listed => ?_) ?_
  · rw [Prepared.refused_of_relative relative', ← prepareGroups_eq_map,
      Prepared.refused_withoutRelative (plain_prepareGroups plain _)]
  · have plainGroup := plain group listed
    rw [← Prepared.tokens_prepareGroup (expansion depth : SelectorList → Step ν σ) group] at plainGroup
    rw [relative']
    exact (Prepared.complete_unanchored _ _ collection plainGroup).symm
  · rw [← prepareGroups_eq_map]
    exact uniform_completed options.withoutRelative _ builtin _

end SelectorList
end SelectorEngine
