import SelectorEngine.Compile.SelectorList

/-! Outcomes of compiling: what a compilation gives when it succeeds, when two compilations agree, and
which step a pseudo-class takes when the caller has none of their own. -/
namespace SelectorEngine

namespace CompileM

variable {σ τ α β γ δ : Type}

/-- Started in `session`, the compilation succeeds with `value` and ends in `after`. -/
def Gives (action : CompileM σ α) (session : Session σ) (value : α) (after : Session σ) : Prop :=
  (ExceptT.run action).run session = (.ok value, after)

def Fails (action : CompileM σ α) (session : Session σ) (error : CompileError) : Prop :=
  ((ExceptT.run action).run session).1 = .error error

theorem gives_or_fails (action : CompileM σ α) (session : Session σ) :
    (∃ value after, Gives action session value after) ∨ ∃ error, Fails action session error := by
  rcases found : (ExceptT.run action).run session with ⟨ran, after⟩
  cases ran with
  | ok value => exact .inl ⟨value, after, found⟩
  | error error => exact .inr ⟨error, congrArg Prod.fst found⟩

theorem gives_pure {value result : α} {session after : Session σ} :
    Gives (pure value : CompileM σ α) session result after ↔ result = value ∧ after = session := by
  constructor
  · intro given
    cases given
    exact ⟨rfl, rfl⟩
  · intro known
    obtain ⟨rfl, rfl⟩ := known
    rfl

theorem gives_throw {error : CompileError} {result : α} {session after : Session σ} :
    ¬ Gives (throw error : CompileM σ α) session result after := by
  intro given
  cases given

theorem gives_lift {action : SessionM σ α} {result : α} {session after : Session σ} :
    Gives (liftM action : CompileM σ α) session result after ↔
      action.run session = (result, after) := by
  constructor
  · intro given
    cases given
    rfl
  · intro given
    change ((fun ran : α × Session σ => (Except.ok ran.1, ran.2)) (action.run session) :
      Except CompileError α × Session σ) = _
    rw [given]

theorem Gives.lifted {action : SessionM σ α} {result : α} {session after : Session σ}
    (given : Gives (liftM action : CompileM σ α) session result after) :
    (action.run session).1 = result :=
  congrArg Prod.fst (gives_lift.mp given)

theorem Gives.unique {action : CompileM σ α} {session after ended : Session σ} {value other : α}
    (given : Gives action session value after) (again : Gives action session other ended) :
    value = other := by
  have same := given.symm.trans again
  cases same
  rfl

private theorem run_bind (action : CompileM σ α) (next : α → CompileM σ β) (session : Session σ) :
    (ExceptT.run (action >>= next)).run session =
      match (ExceptT.run action).run session with
      | (.ok value, between) => (ExceptT.run (next value)).run between
      | (.error error, between) => (.error error, between) := by
  rw [ExceptT.run_bind, StateT.run_bind]
  rcases (ExceptT.run action).run session with ⟨ran, between⟩
  cases ran <;> rfl

theorem gives_bind {action : CompileM σ α} {next : α → CompileM σ β} {result : β}
    {session after : Session σ} :
    Gives (action >>= next) session result after ↔
      ∃ value between, Gives action session value between ∧
        Gives (next value) between result after := by
  unfold Gives
  rw [run_bind]
  constructor
  · intro given
    split at given
    · next value between found => exact ⟨value, between, found, given⟩
    · next error between found => cases given
  · intro known
    obtain ⟨value, between, first, second⟩ := known
    rw [first]
    exact second

theorem fails_throw (error : CompileError) (session : Session σ) :
    Fails (throw error : CompileM σ α) session error :=
  rfl

theorem Fails.bind {action : CompileM σ α} {session : Session σ} {error : CompileError}
    (failed : Fails action session error) (next : α → CompileM σ β) :
    Fails (action >>= next) session error := by
  unfold Fails at failed ⊢
  rw [run_bind]
  rcases found : (ExceptT.run action).run session with ⟨ran, between⟩
  rw [found] at failed
  obtain rfl : ran = .error error := failed
  rfl

theorem Gives.bind_fails {action : CompileM σ α} {next : α → CompileM σ β}
    {session between : Session σ} {value : α} {error : CompileError}
    (given : Gives action session value between) (failed : Fails (next value) between error) :
    Fails (action >>= next) session error := by
  unfold Fails
  rw [run_bind, given]
  exact failed

theorem Gives.not_fails {action : CompileM σ α} {session after : Session σ} {value : α}
    {error : CompileError} (given : Gives action session value after) :
    ¬ Fails action session error := by
  intro failed
  unfold Fails at failed
  rw [given] at failed
  cases failed

/-- From whatever sessions they start, both compilations fail with the same error, or both succeed
with related values. -/
def Agree (related : α → β → Prop) (first : CompileM σ α) (second : CompileM τ β) : Prop :=
  ∀ session other,
    match ((ExceptT.run first).run session).1, ((ExceptT.run second).run other).1 with
    | .ok value, .ok counterpart => related value counterpart
    | .error error, .error counterpart => error = counterpart
    | _, _ => False

theorem agree_pure {related : α → β → Prop} {value : α} {counterpart : β}
    (pair : related value counterpart) :
    Agree related (pure value : CompileM σ α) (pure counterpart : CompileM τ β) :=
  fun _ _ => pair

theorem agree_throw (related : α → β → Prop) (error : CompileError) :
    Agree related (throw error : CompileM σ α) (throw error : CompileM τ β) :=
  fun _ _ => rfl

theorem agree_lift {related : α → β → Prop} {action : SessionM σ α} {other : SessionM τ β}
    (pair : ∀ session another, related (action.run session).1 (other.run another).1) :
    Agree related (liftM action : CompileM σ α) (liftM other : CompileM τ β) :=
  fun session another => pair session another

theorem agree_bind {related : α → β → Prop} {kept : γ → δ → Prop}
    {first : CompileM σ α} {second : CompileM τ β}
    {next : α → CompileM σ γ} {further : β → CompileM τ δ}
    (start : Agree related first second)
    (rest : ∀ value counterpart, related value counterpart →
      Agree kept (next value) (further counterpart)) :
    Agree kept (first >>= next) (second >>= further) := by
  intro session other
  have started := start session other
  rw [run_bind, run_bind]
  revert started
  rcases (ExceptT.run first).run session with ⟨ran, between⟩
  rcases (ExceptT.run second).run other with ⟨ran', between'⟩
  intro started
  cases ran with
  | error error =>
    cases ran' with
    | error counterpart => exact started
    | ok counterpart => exact started.elim
  | ok value =>
    cases ran' with
    | error counterpart => exact started.elim
    | ok counterpart => exact rest value counterpart started between between'

theorem Agree.gives {related : α → β → Prop} {first : CompileM σ α} {second : CompileM τ β}
    (agree : Agree related first second) {session after : Session σ} {value : α}
    (given : Gives first session value after) (other : Session τ) :
    ∃ counterpart ended, Gives second other counterpart ended ∧ related value counterpart := by
  have both := agree session other
  rw [given] at both
  rcases found : (ExceptT.run second).run other with ⟨ran, ended⟩
  rw [found] at both
  cases ran with
  | error error => exact both.elim
  | ok counterpart => exact ⟨counterpart, ended, found, both⟩

theorem Agree.fails {related : α → β → Prop} {first : CompileM σ α} {second : CompileM τ β}
    (agree : Agree related first second) {session : Session σ} {error : CompileError}
    (failed : Fails first session error) (other : Session τ) : Fails second other error := by
  have both := agree session other
  rw [show ((ExceptT.run first).run session).1 = .error error from failed] at both
  unfold Fails
  cases found : ((ExceptT.run second).run other).1 with
  | ok value =>
    rw [found] at both
    exact both.elim
  | error counterpart =>
    rw [found] at both
    rw [show error = counterpart from both]

end CompileM

variable {ν σ : Type}

/-- What a combinator puts in front of a predicate that may match: a walk that remembers the nodes that
failed, or one that does not. -/
def combinatorWalk (kind : Combinator) (options : Options ν σ) (rest : Plan ν σ) :
    SessionM σ (Predicate ν σ) :=
  if kind = .descendant ∧ options.flags.cacheResults = true then do
    let table ← Session.fresh
    Predicate.ofPlan (.under table options.climb options.tree.isElement rest)
  else Predicate.ofPlan (.leadsTo (kind.reach options.toBasis ·) rest)

theorem combinatorStep_eq (kind : Combinator) (options : Options ν σ) (scope : Option (Scope ν))
    (next : Predicate ν σ) :
    combinatorStep kind options scope next =
      if kind = .column then throw (.unsupported .columnCombinators)
      else if next.isAlwaysFalse then pure .alwaysFalse
      else liftM (combinatorWalk kind options next.toPlan) := by
  unfold combinatorWalk
  cases remembers : options.flags.cacheResults <;> cases kind <;> cases next <;>
    simp [combinatorStep, Predicate.isAlwaysFalse, remembers]

/-- The caller has no entry of that name. -/
structure CustomClasses.Lacks (custom : CustomClasses ν σ) (name : String) : Prop where
  noAlias : custom.aliases.lookup name = none
  noFilter : custom.filters.lookup name = none
  noCheck : custom.checks.lookup name = none

theorem CustomClasses.lacks_of_empty {custom : CustomClasses ν σ} (empty : custom = {}) (name : String) :
    custom.Lacks name := by
  rw [empty]
  exact ⟨rfl, rfl, rfl⟩

theorem pseudoClassStep_builtin (expand : SelectorList → Step ν σ) (name : String)
    (argument : Option String) {options : Options ν σ} (lacks : options.custom.Lacks name)
    (scope : Option (Scope ν)) (next : Predicate ν σ) :
    pseudoClassStep expand name argument options scope next =
      match Selector.abbreviations.lookup name with
      | some selectors => do
        verifyArgument name false argument
        expand selectors options scope next
      | none =>
        match BuiltinFilter.ofName? name with
        | some filter => filter.step name argument options scope next
        | none =>
          match StructuralClass.ofName? name with
          | some structural => do
            verifyArgument name false argument
            next.guard (.holds (structural.holds options.toBasis))
          | none =>
            if (Subselect.ofName? name).isSome then
              throw (.invalidArgument name .selectorListExpected)
            else throw (.unknownPseudoClass name) := by
  unfold pseudoClassStep
  rw [lacks.noAlias, lacks.noFilter, lacks.noCheck]
  rcases Selector.abbreviations.lookup name with _ | selectors
  · rcases BuiltinFilter.ofName? name with _ | filter
    · rcases StructuralClass.ofName? name with _ | structural <;> rfl
    · rfl
  · rfl

/-- All nodes are elements with an element above them, so that groups can be anchored at them. -/
def MatchContext.isUsable (tree : TreeView ν) (context : MatchContext ν) : Bool :=
  context.toList.all fun node => tree.isElement node && (tree.elementParent node).isSome

namespace Prepared

variable {atScope : Step ν σ}

/-- A group as it is folded: arranged, anchored if relative selectors are allowed, and widened where the
scope is a collection. -/
def complete (atScope : Step ν σ) (relative anchored collection : Bool)
    (group : List (Prepared ν σ)) : List (Prepared ν σ) :=
  let arranged := arrange (fun item => item.token.rank) group
  let fronted := if relative then anchor atScope anchored arranged else arranged
  if collection then widen fronted else fronted

private theorem mem_anchor {anchored : Bool} {group : List (Prepared ν σ)} {item : Prepared ν σ}
    (member : item ∈ anchor atScope anchored group) :
    item ∈ group ∨ item = ⟨Selector.scope, atScope⟩ ∨ item = ofCombinator .descendant := by
  rw [anchor, List.mem_append] at member
  rcases member with front | inside
  · right
    cases found : Selector.front anchored (tokens group) with
    | nothing =>
      rw [found] at front
      exact absurd front List.not_mem_nil
    | scope =>
      rw [found] at front
      exact .inl (List.mem_singleton.mp front)
    | scopeDescendant =>
      rw [found] at front
      simpa [ofFront] using front
  · exact .inl inside

private theorem mem_widen {group : List (Prepared ν σ)} {item : Prepared ν σ}
    (member : item ∈ widen group) : item ∈ group ∨ item = ofCombinator .descendantOrSelf := by
  unfold widen at member
  split at member
  · next first second rest =>
    split at member
    · rcases List.mem_cons.mp member with rfl | later
      · exact .inl (by simp)
      · rcases List.mem_cons.mp later with rfl | later
        · exact .inr rfl
        · exact .inl (by simp [later])
    · exact .inl member
  · exact .inl member

theorem mem_complete {relative anchored collection : Bool} {group : List (Prepared ν σ)}
    {item : Prepared ν σ} (member : item ∈ complete atScope relative anchored collection group) :
    item ∈ group ∨ item = ⟨Selector.scope, atScope⟩ ∨ ∃ kind, item = ofCombinator kind := by
  have unwidened {fronted : List (Prepared ν σ)}
      (inside : item ∈ if collection then widen fronted else fronted) :
      item ∈ fronted ∨ item = ofCombinator .descendantOrSelf := by
    split at inside
    · exact mem_widen inside
    · exact .inl inside
  rcases unwidened member with inside | rfl
  · have unanchored : item ∈ arrange (fun item => item.token.rank) group ∨
        item = ⟨Selector.scope, atScope⟩ ∨ item = ofCombinator .descendant := by
      split at inside
      · exact mem_anchor inside
      · exact .inl inside
    rcases unanchored with arranged | rfl | rfl
    · exact .inl ((arrange_perm _ group).mem_iff.mp arranged)
    · exact .inr (.inl rfl)
    · exact .inr (.inr ⟨_, rfl⟩)
  · exact .inr (.inr ⟨_, rfl⟩)

def scopeOf (options : Options ν σ) (given : Option (Scope ν)) : Option (Scope ν) :=
  (options.context.map Scope.fixed).or given

def refused (groups : List (List (Prepared ν σ))) (options : Options ν σ) : Bool :=
  !options.flags.relativeSelector && (groups.map (arrange fun item => item.token.rank)).any
    fun group => Selector.startsWithCombinator (tokens group)

def anchors (options : Options ν σ) (given : Option (Scope ν)) : Bool :=
  options.anchored && (scopeOf options given).any (·.isUsable options.tree)

theorem scopeOf_fixed (options : Options ν σ) (given : Option (MatchContext ν)) :
    scopeOf options (given.map Scope.fixed) = (options.context.or given).map Scope.fixed := by
  unfold scopeOf
  cases options.context <;> rfl

theorem scopeOf_ne_subject (options : Options ν σ) (given : Option (MatchContext ν)) :
    scopeOf options (given.map Scope.fixed) ≠ some .subject := by
  rw [scopeOf_fixed]
  cases options.context.or given <;> simp

theorem anchors_eq {options : Options ν σ} (anchored : options.anchored = true)
    (given : Option (MatchContext ν)) :
    anchors options (given.map Scope.fixed) =
      (options.context.or given).any (MatchContext.isUsable options.tree) := by
  unfold anchors
  rw [scopeOf_fixed, anchored, Bool.true_and]
  cases options.context.or given <;> rfl

theorem anchors_eq_false {options : Options ν σ} (free : options.context = none) :
    anchors options none = false := by
  simp [anchors, scopeOf, free]

def completed (atScope : Step ν σ) (groups : List (List (Prepared ν σ))) (options : Options ν σ)
    (given : Option (Scope ν)) : List (List (Prepared ν σ)) :=
  groups.map (complete atScope options.flags.relativeSelector (anchors options given)
    ((scopeOf options given).any Scope.isCollection))

/-- What goes for the items of the groups, for `:scope` and for combinators goes for all that is folded. -/
theorem forall_completed {property : Prepared ν σ → Prop} {groups : List (List (Prepared ν σ))}
    (options : Options ν σ) (given : Option (Scope ν))
    (inside : ∀ group ∈ groups, ∀ item ∈ group, property item)
    (scope : property ⟨Selector.scope, atScope⟩) (combinators : ∀ kind, property (ofCombinator kind)) :
    ∀ group ∈ completed atScope groups options given, ∀ item ∈ group, property item := by
  intro group listed item member
  obtain ⟨original, inGroups, rfl⟩ := List.mem_map.mp listed
  rcases mem_complete member with inGroup | rfl | ⟨kind, rfl⟩
  · exact inside original inGroups item inGroup
  · exact scope
  · exact combinators kind

def amongSiblings (atScope : Step ν σ) (groups : List (List (Prepared ν σ)))
    (options : Options ν σ) (given : Option (Scope ν)) : Bool :=
  groups.any fun group => Selector.startsAmongSiblings
    (tokens (complete atScope options.flags.relativeSelector (anchors options given) false group))

theorem compile_eq (groups : List (List (Prepared ν σ))) (options : Options ν σ)
    (given : Option (Scope ν)) :
    compile atScope groups options given =
      if refused groups options then throw .relativeSelector
      else foldGroups options (scopeOf options given) (completed atScope groups options given)
        .alwaysFalse >>= fun predicate =>
          pure { predicate, reachesSiblings := amongSiblings atScope groups options given } := by
  have written : completed atScope groups options given =
      (let arranged := groups.map (arrange fun item => item.token.rank)
       let whole := if options.flags.relativeSelector then
        arranged.map (anchor atScope (anchors options given)) else arranged
       if (scopeOf options given).any Scope.isCollection then whole.map widen else whole) := by
    unfold completed
    cases options.flags.relativeSelector <;>
      cases (scopeOf options given).any Scope.isCollection <;>
      simp [complete, Function.comp_def]
  have reaches : amongSiblings atScope groups options given =
      (let arranged := groups.map (arrange fun item => item.token.rank)
       let whole := if options.flags.relativeSelector then
        arranged.map (anchor atScope (anchors options given)) else arranged
       whole.any fun group => Selector.startsAmongSiblings (tokens group)) := by
    unfold amongSiblings
    cases options.flags.relativeSelector <;> simp [complete, Function.comp_def]
  rw [written, reaches]
  by_cases refuses : refused groups options = true
  · rw [if_pos refuses]
    exact if_pos refuses
  · rw [if_neg refuses]
    exact if_neg refuses

theorem reachesSiblings_of_compile {groups : List (List (Prepared ν σ))} {options : Options ν σ}
    {given : Option (Scope ν)} {session after : Session σ} {query : Query ν σ}
    (compiled : CompileM.Gives (compile atScope groups options given) session query after) :
    query.reachesSiblings = amongSiblings atScope groups options given := by
  rw [compile_eq] at compiled
  split at compiled
  · exact absurd compiled CompileM.gives_throw
  · obtain ⟨predicate, between, _, rest⟩ := CompileM.gives_bind.mp compiled
    obtain ⟨rfl, _⟩ := CompileM.gives_pure.mp rest
    rfl

end Prepared

namespace Subselect

theorem eq_has {name : String} (has : ofName? name = some .has) : name = "has" := by
  unfold ofName? at has
  split at has <;> first | rfl | cases has

variable (groups : List (List (Prepared ν σ)))

def isRelative : Bool := groups.any fun group => group.any (·.token.isCombinator)

def hasQuery (atScope : Step ν σ) (options : Options ν σ) : CompileM σ (Query ν σ) :=
  if isRelative groups then
    Prepared.compile atScope groups options.embedded.unremembering (some .subject)
  else Prepared.compile atScope groups options.embedded none

def searchArea (basis : Basis ν) (reachesSiblings : Bool) (node : ν) : List ν :=
  basis.tree.elementsFrom (basis.tree.children node ++
    if reachesSiblings then basis.tree.nextSiblings basis.same node else [])

def hasSearch (options : Options ν σ) (query : Query ν σ) (next : Predicate ν σ) :
    SessionM σ (Predicate ν σ) :=
  match query.predicate with
  | .alwaysFalse => pure .alwaysFalse
  | .alwaysTrue => next.andThen
    (.leadsTo (searchArea options.toBasis false) query.predicate.toPlan)
  | .dynamic _ plan =>
    if isRelative groups then
      next.andThen (.asSubject (searchArea options.toBasis query.reachesSiblings) plan)
    else next.andThen (.leadsTo (searchArea options.toBasis false) plan)

theorem hasStep_eq (atScope : Step ν σ) (options : Options ν σ) (scope : Option (Scope ν))
    (next : Predicate ν σ) :
    hasStep atScope groups options scope next =
      hasQuery groups atScope options >>= fun query => hasSearch groups options query next := by
  have below : searchArea options.toBasis false =
      fun node => options.tree.elementsFrom (options.tree.children node) := by
    funext node
    simp [searchArea]
  unfold hasStep hasQuery hasSearch
  rw [below]
  cases relative : isRelative groups with
  | false =>
    rw [isRelative] at relative
    simp only [relative, Bool.false_eq_true, ↓reduceIte]
    refine congrArg _ (funext fun query => ?_)
    cases query.predicate <;> rfl
  | true =>
    rw [isRelative] at relative
    simp only [relative, ↓reduceIte]
    refine congrArg _ (funext fun query => ?_)
    cases query.predicate <;> rfl

end Subselect

/-- What goes for the tokens of a list goes for all that is prepared of it. -/
theorem forall_prepareGroups {property : Prepared ν σ → Prop} {expand : SelectorList → Step ν σ}
    {groups : SelectorList}
    (each : ∀ group ∈ groups, ∀ token ∈ group, property ⟨token, tokenStep expand token⟩) :
    ∀ group ∈ prepareGroups expand groups, ∀ item ∈ group, property item := by
  intro group listed item member
  rw [prepareGroups_eq_map, List.mem_map] at listed
  obtain ⟨original, inGroups, rfl⟩ := listed
  rw [prepareGroup_eq_map, List.mem_map] at member
  obtain ⟨token, inGroup, rfl⟩ := member
  exact each original inGroups token inGroup

end SelectorEngine
