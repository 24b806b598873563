import SelectorEngine.Compile.SelectorList
import SelectorEngine.Proofs.Compile.Outcome
import SelectorEngine.Proofs.Match.Passes
import SelectorEngine.Proofs.Selector.Occurrence

/-! Compiling does not depend on the session it happens in. Two compilations of one selector list that see the
same options, remembering apart, fail alike, or give predicates that know the same answers beforehand and
have related plans, for every relation that plans put together alike keep. Giving the same answers to every
node is such a relation, and there remembering makes no difference. -/
namespace SelectorEngine

variable {ν σ : Type}

/-- What the selector lists in the arguments of pseudo-classes see of the options, remembering apart. -/
def Options.core (options : Options ν σ) : Options ν σ := options.embedded.unremembering

theorem Options.eq_of_core {α : Type} {options other core : Options ν σ} (same : options.core = core)
    (same' : other.core = core) (view : Options ν σ → α)
    (blind : ∀ options, view options = view options.core) : view options = view other := by
  rw [blind, same, ← same', ← blind]

/-- A relation that plans put together alike from related plans keep. If plans that remember are related at
all, it is to those that do the same and remember nothing. -/
structure Kinship (ν σ : Type) where
  related : Plan ν σ → Plan ν σ → Prop
  symm : ∀ {first second}, related first second → related second first
  trans : ∀ {first second third}, related first second → related second third → related first third
  holds : ∀ property, related (.holds property) (.holds property)
  isSubject : ∀ same, related (.isSubject same) (.isSubject same)
  both : ∀ {first second third fourth}, related first second → related third fourth →
    related (.both first third) (.both second fourth)
  either : ∀ {first second third fourth}, related first second → related third fourth →
    related (.either first third) (.either second fourth)
  negation : ∀ {first second}, related first second → related (.negation first) (.negation second)
  leadsTo : ∀ reach {first second}, related first second →
    related (.leadsTo reach first) (.leadsTo reach second)
  asSubject : ∀ reach {first second}, related first second →
    related (.asSubject reach first) (.asSubject reach second)
  remembers : Prop
  under : remembers → ∀ table climb isElement {rest}, related rest rest →
    related (.under table climb isElement rest)
      (.leadsTo (fun node => (climb.above node).filter isElement) rest)
  inherited : remembers → ∀ table climb {test}, related test test → related (.inherited table climb test) test

namespace Kinship

variable {kinship : Kinship ν σ} {first second : Plan ν σ}

theorem left (same : kinship.related first second) : kinship.related first first :=
  kinship.trans same (kinship.symm same)

/-- No filters of the caller's, and checks that are related to themselves. -/
structure Knows (kinship : Kinship ν σ) (custom : CustomClasses ν σ) : Prop where
  filters : custom.filters = []
  checks : ∀ entry ∈ custom.checks, ∀ argument,
    kinship.related (.asks (entry.2.check · argument)) (.asks (entry.2.check · argument))

theorem knows_of_empty {custom : CustomClasses ν σ} (empty : custom = {}) : kinship.Knows custom := by
  subst empty
  exact ⟨rfl, fun _ listed => absurd listed List.not_mem_nil⟩

end Kinship

namespace Predicate

/-- The same answer known beforehand, or related plans. -/
inductive Kin (related : Plan ν σ → Plan ν σ → Prop) : Predicate ν σ → Predicate ν σ → Prop
  | alwaysTrue : Kin related alwaysTrue alwaysTrue
  | alwaysFalse : Kin related alwaysFalse alwaysFalse
  | dynamic (first second : Nat) {plan other : Plan ν σ} (same : related plan other) :
      Kin related (dynamic first plan) (dynamic second other)

namespace Kin

theorem isAlwaysFalse {related : Plan ν σ → Plan ν σ → Prop} {first second : Predicate ν σ}
    (kin : Kin related first second) : first.isAlwaysFalse = second.isAlwaysFalse := by
  cases kin <;> rfl

variable {kinship : Kinship ν σ} {first second third fourth : Predicate ν σ}

theorem toPlan (kin : first.Kin kinship.related second) : kinship.related first.toPlan second.toPlan := by
  cases kin with
  | alwaysTrue => exact kinship.holds _
  | alwaysFalse => exact kinship.holds _
  | dynamic _ _ same => exact same

theorem ofPlan {plan other : Plan ν σ} (same : kinship.related plan other) (session another : Session σ) :
    ((Predicate.ofPlan plan).run session).1.Kin kinship.related ((Predicate.ofPlan other).run another).1 :=
  .dynamic _ _ same

theorem guard (kin : first.Kin kinship.related second) {check other : Plan ν σ}
    (same : kinship.related check other) (session another : Session σ) :
    ((first.guard check).run session).1.Kin kinship.related ((second.guard other).run another).1 := by
  cases kin with
  | alwaysTrue => exact ofPlan same session another
  | alwaysFalse => exact .alwaysFalse
  | dynamic _ _ rest => exact ofPlan (kinship.both same rest) session another

theorem andThen (kin : first.Kin kinship.related second) {check other : Plan ν σ}
    (same : kinship.related check other) (session another : Session σ) :
    ((first.andThen check).run session).1.Kin kinship.related ((second.andThen other).run another).1 := by
  cases kin with
  | alwaysTrue => exact ofPlan same session another
  | alwaysFalse => exact .alwaysFalse
  | dynamic _ _ rest => exact ofPlan (kinship.both rest same) session another

theorem and (left : first.Kin kinship.related second) (right : third.Kin kinship.related fourth)
    (session another : Session σ) :
    ((first.and third).run session).1.Kin kinship.related ((second.and fourth).run another).1 := by
  cases left with
  | alwaysTrue => cases right <;> first | exact .alwaysTrue | exact .alwaysFalse | exact .dynamic _ _ ‹_›
  | alwaysFalse => cases right <;> exact .alwaysFalse
  | dynamic _ _ start =>
    cases right with
    | alwaysTrue => exact .dynamic _ _ start
    | alwaysFalse => exact .alwaysFalse
    | dynamic _ _ rest => exact ofPlan (kinship.both start rest) session another

theorem or (left : first.Kin kinship.related second) (right : third.Kin kinship.related fourth)
    (session another : Session σ) :
    ((first.or third).run session).1.Kin kinship.related ((second.or fourth).run another).1 := by
  cases left with
  | alwaysTrue => cases right <;> exact .alwaysTrue
  | alwaysFalse => cases right <;> first | exact .alwaysTrue | exact .alwaysFalse | exact .dynamic _ _ ‹_›
  | dynamic _ _ start =>
    cases right with
    | alwaysTrue => exact .alwaysTrue
    | alwaysFalse => exact .dynamic _ _ start
    | dynamic _ _ rest => exact ofPlan (kinship.either start rest) session another

theorem negate (kin : first.Kin kinship.related second) (session another : Session σ) :
    (first.negate.run session).1.Kin kinship.related (second.negate.run another).1 := by
  cases kin with
  | alwaysTrue => exact .alwaysFalse
  | alwaysFalse => exact .alwaysTrue
  | dynamic _ _ same => exact ofPlan (kinship.negation same) session another

theorem union (left : first.Kin kinship.related second) (right : third.Kin kinship.related fourth)
    (session another : Session σ) :
    ((first.union third .alwaysTrue).run session).1.Kin kinship.related
      ((second.union fourth .alwaysTrue).run another).1 := by
  have either := or left right session another
  cases left <;> cases right <;> exact either

theorem exists_inherited (session : Session σ) (predicate : Predicate ν σ) (climb : Climb ν)
    {remembers : Bool} (may : remembers = true → kinship.remembers) {check : Plan ν σ}
    (own : kinship.related check check) : ∃ plan between, kinship.related plan check ∧
      (predicate.andInherited climb remembers check).run session = (predicate.andThen plan).run between := by
  cases remembers with
  | false => exact ⟨check, session, own, rfl⟩
  | true =>
    exact ⟨.inherited session.supply climb check, { session with supply := session.supply + 1 },
      kinship.inherited (may rfl) _ _ own, rfl⟩

theorem andInherited (kin : first.Kin kinship.related second) (climb other : Climb ν)
    {remembers recalls : Bool} (may : remembers = true → kinship.remembers)
    (may' : recalls = true → kinship.remembers) {check : Plan ν σ} (own : kinship.related check check)
    (session another : Session σ) :
    ((first.andInherited climb remembers check).run session).1.Kin kinship.related
      ((second.andInherited other recalls check).run another).1 := by
  obtain ⟨plan, between, same, run⟩ := exists_inherited session first climb may own
  obtain ⟨plan', between', same', run'⟩ := exists_inherited another second other may' own
  rw [run, run']
  exact andThen kin (kinship.trans same (kinship.symm same')) _ _

end Kin
end Predicate

def Query.Kin (related : Plan ν σ → Plan ν σ → Prop) (first second : Query ν σ) : Prop :=
  first.predicate.Kin related second.predicate ∧ first.reachesSiblings = second.reachesSiblings

/-- The options have this core, and they remember only where remembering makes no difference. -/
structure Options.Suits (options : Options ν σ) (kinship : Kinship ν σ) (core : Options ν σ) : Prop where
  core : options.core = core
  remembers : options.flags.cacheResults = true → kinship.remembers

namespace Options.Suits

variable {options core : Options ν σ} {kinship : Kinship ν σ}

theorem custom (suits : options.Suits kinship core) : options.custom = core.custom := by
  rw [← suits.core]
  rfl

theorem embedded (suits : options.Suits kinship core) : options.embedded.Suits kinship core :=
  ⟨suits.core, suits.remembers⟩

theorem unanchored (suits : options.Suits kinship core) : options.embedded.unanchored.Suits kinship core :=
  ⟨suits.core, suits.remembers⟩

theorem unremembering (suits : options.Suits kinship core) :
    options.embedded.unremembering.Suits kinship core :=
  ⟨suits.core, fun remembers => absurd remembers Bool.false_ne_true⟩

end Options.Suits

/-- Wherever the step is taken, it does the same to related predicates. -/
def Step.Uniform (kinship : Kinship ν σ) (core : Options ν σ) (step : Step ν σ) : Prop :=
  ∀ options other : Options ν σ, options.Suits kinship core → other.Suits kinship core →
    ∀ scope {next counterpart : Predicate ν σ}, next.Kin kinship.related counterpart →
      CompileM.Agree (Predicate.Kin kinship.related) (step options scope next) (step other scope counterpart)

namespace Step

open CompileM

variable {kinship : Kinship ν σ} {core : Options ν σ}

theorem uniform_guard (property : Options ν σ → ν → Bool)
    (blind : ∀ options, property options = property options.core) :
    Uniform kinship core fun options _ next => liftM (next.guard (.holds (property options))) := by
  intro options other suits suits' scope next counterpart kin
  have equal := Options.eq_of_core suits.core suits'.core property blind
  refine agree_lift fun session another => kin.guard ?_ session another
  rw [equal]
  exact kinship.holds _

theorem uniform_throw (error : CompileError) : Uniform kinship core fun _ _ _ => throw error :=
  fun _ _ _ _ _ _ _ _ => agree_throw _ error

theorem uniform_alwaysFalse : Uniform kinship core fun _ _ _ => (pure .alwaysFalse) :=
  fun _ _ _ _ _ _ _ _ => agree_pure .alwaysFalse

theorem uniform_skip : Uniform kinship core fun _ _ next => pure next :=
  fun _ _ _ _ _ _ _ kin => agree_pure kin

theorem uniform_ite (condition : Options ν σ → Bool)
    (blind : ∀ options, condition options = condition options.core) {yes no : Step ν σ}
    (first : Uniform kinship core yes) (second : Uniform kinship core no) :
    Uniform kinship core fun options scope next =>
      if condition options then yes options scope next else no options scope next := by
  intro options other suits suits' scope next counterpart kin
  dsimp only
  rw [Options.eq_of_core suits.core suits'.core condition blind]
  split
  · exact first options other suits suits' scope kin
  · exact second options other suits suits' scope kin

theorem uniform_tag (name : String) : Uniform kinship core (tagStep name) :=
  uniform_guard (fun options node => options.tree.name node ==
    if options.flags.foldsTags then Text.lower name else name) fun _ => rfl

theorem uniform_attribute (selector : AttributeSelector) : Uniform kinship core (attributeStep selector) :=
  uniform_ite (fun options => (AttributeTest.ofSelector selector options.flags).neverPasses)
    (fun _ => rfl) uniform_alwaysFalse
    (uniform_guard (fun options => (AttributeTest.ofSelector selector options.flags).passes options.tree)
      fun _ => rfl)

/-- A walk that remembers is related to one that goes the same way and does not. -/
theorem exists_walk {options : Options ν σ} (suits : options.Suits kinship core) (kind : Combinator)
    {rest : Plan ν σ} (own : kinship.related rest rest) (session : Session σ) :
    ∃ identity plan, ((combinatorWalk kind options rest).run session).1 = .dynamic identity plan ∧
      kinship.related plan (.leadsTo (kind.reach options.toBasis ·) rest) := by
  unfold combinatorWalk
  split
  · next walks =>
    obtain ⟨rfl, remembers⟩ := walks
    exact ⟨session.supply + 1, .under session.supply options.climb options.tree.isElement rest, rfl,
      kinship.under (suits.remembers remembers) _ options.climb options.tree.isElement own⟩
  · exact ⟨session.supply, _, rfl, kinship.leadsTo _ own⟩

theorem uniform_combinator (kind : Combinator) : Uniform kinship core (combinatorStep kind) := by
  intro options other suits suits' scope next counterpart kin
  rw [combinatorStep_eq, combinatorStep_eq, kin.isAlwaysFalse]
  split
  · exact agree_throw _ _
  · split
    · exact agree_pure .alwaysFalse
    · refine agree_lift fun session another => ?_
      have same := kin.toPlan
      obtain ⟨first, plan, made, walk⟩ := exists_walk suits kind (Kinship.left same) session
      obtain ⟨second, plan', made', walk'⟩ :=
        exists_walk suits' kind (Kinship.left (kinship.symm same)) another
      rw [made, made']
      have reach : (kind.reach options.toBasis ·) = (kind.reach other.toBasis ·) :=
        Options.eq_of_core suits.core suits'.core
          (fun options => (kind.reach options.toBasis ·)) fun _ => rfl
      rw [reach] at walk
      exact .dynamic first second (kinship.trans walk (kinship.trans (kinship.leadsTo _ same)
        (kinship.symm walk')))

theorem uniform_need (name : String) (argument : Option String) {step : String → Step ν σ}
    (each : ∀ text, Uniform kinship core (step text)) :
    Uniform kinship core fun options scope next =>
      BuiltinFilter.needArgument name argument >>= fun text => step text options scope next := by
  intro options other suits suits' scope next counterpart kin
  cases argument with
  | none => exact agree_throw _ _
  | some text => exact each text options other suits suits' scope kin

theorem uniform_verify (name : String) (taken : Bool) (argument : Option String) {step : Step ν σ}
    (uniform : Uniform kinship core step) :
    Uniform kinship core fun options scope next =>
      verifyArgument name taken argument >>= fun _ => step options scope next := by
  intro options other suits suits' scope next counterpart kin
  refine agree_bind (?_ : Agree Eq (verifyArgument name taken argument : CompileM σ Unit)
    (verifyArgument name taken argument)) fun _ _ _ => uniform options other suits suits' scope kin
  unfold verifyArgument
  split
  · exact agree_throw _ _
  · exact agree_throw _ _
  · exact agree_pure rfl

theorem uniform_counting (how : Counting) (name formula : String) :
    Uniform kinship core (how.step name formula) := by
  intro options other suits suits' scope next counterpart kin
  unfold Counting.step
  split
  · exact agree_throw _ _
  · exact agree_pure .alwaysFalse
  · exact uniform_guard
      (fun options node => (options.tree.elementParent node).isSome) (fun _ => rfl)
      options other suits suits' scope kin
  · next positions _ _ _ =>
    exact uniform_guard
      (fun options node => positions.contains (how.position options.toBasis node)) (fun _ => rfl)
      options other suits suits' scope kin

theorem uniform_text (fold : String → String) (argument : String) :
    Uniform kinship core (BuiltinFilter.textStep fold argument) := by
  intro options other suits suits' scope next counterpart kin
  have property := Options.eq_of_core suits.core suits'.core (fun options node =>
    Text.contains (fold argument) (fold (options.tree.text node))) fun _ => rfl
  refine agree_lift fun session another => ?_
  rw [property]
  exact kin.andInherited _ _ suits.remembers suits'.remembers (kinship.holds _) session another

theorem uniform_root : Uniform kinship core (BuiltinFilter.rootStep : Step ν σ) :=
  uniform_guard (fun options node => (options.tree.elementParent node).isNone) fun _ => rfl

theorem uniform_scope : Uniform kinship core (BuiltinFilter.scopeStep : Step ν σ) := by
  intro options other suits suits' scope next counterpart kin
  match scope with
  | none => exact uniform_root options other suits suits' none kin
  | some .subject =>
    have sameness := Options.eq_of_core suits.core suits'.core (fun options => options.same) fun _ => rfl
    refine agree_lift fun session another => ?_
    rw [sameness]
    exact kin.guard (kinship.isSubject _) session another
  | some (.fixed context) =>
    unfold BuiltinFilter.scopeStep
    dsimp only
    split
    · exact uniform_root options other suits suits' _ kin
    · exact uniform_guard
        (fun options node => context.toList.any (options.same · node)) (fun _ => rfl)
        options other suits suits' scope kin

theorem uniform_filter (filter : BuiltinFilter) (name : String) (argument : Option String) :
    Uniform kinship core (filter.step name argument) := by
  cases filter with
  | contains => exact uniform_need name argument (uniform_text id)
  | containsFolded => exact uniform_need name argument (uniform_text Text.lower)
  | counting how => exact uniform_need name argument (uniform_counting how name)
  | root => exact uniform_root
  | scope => exact uniform_scope
  | state which =>
    exact uniform_ite (fun options => options.tree.supports which) (fun _ => rfl)
      (uniform_guard (fun options node => options.tree.isIn node which) fun _ => rfl)
      uniform_alwaysFalse
  | lang => exact uniform_need name argument fun value =>
      uniform_attribute { name := "lang", action := .equals, value }

/-- A check of the caller's is asked before what is compiled already. -/
theorem uniform_check {check : ν → StateM σ Bool} (own : kinship.related (.asks check) (.asks check)) :
    Uniform kinship core fun _ _ next => liftM (next.guard (.asks check)) := by
  intro options other suits suits' scope next counterpart kin
  exact agree_lift fun session another => kin.guard own session another

theorem uniform_pseudoClass (knows : kinship.Knows core.custom) {expand : SelectorList → Step ν σ}
    (each : ∀ selectors, Uniform kinship core (expand selectors)) (name : String)
    (argument : Option String) : Uniform kinship core (pseudoClassStep expand name argument) := by
  intro options other suits suits' scope next counterpart kin
  have custom := suits.custom
  have custom' := suits'.custom
  have noFilter : core.custom.filters.lookup name = none := by
    rw [knows.filters]
    rfl
  cases hasAlias : core.custom.aliases.lookup name with
  | some selectors =>
    unfold pseudoClassStep
    rw [custom, custom', hasAlias]
    exact uniform_verify name false argument (each selectors) options other suits suits' scope kin
  | none =>
    cases hasCheck : core.custom.checks.lookup name with
    | some entry =>
      obtain ⟨_, _, split, _⟩ := List.lookup_eq_some_iff.mp hasCheck
      have listed : (name, entry) ∈ core.custom.checks := by
        rw [split]
        exact List.mem_append_right _ List.mem_cons_self
      unfold pseudoClassStep
      rw [custom, custom', hasAlias, noFilter, hasCheck]
      exact uniform_verify name entry.takesArgument argument
        (uniform_check (knows.checks _ listed argument)) options other suits suits' scope kin
    | none =>
      rw [pseudoClassStep_builtin expand name argument (custom ▸ ⟨hasAlias, noFilter, hasCheck⟩),
        pseudoClassStep_builtin expand name argument (custom' ▸ ⟨hasAlias, noFilter, hasCheck⟩)]
      split
      · next selectors _ =>
        exact uniform_verify name false argument (each selectors) options other suits suits' scope kin
      · split
        · next filter _ =>
          exact uniform_filter filter name argument options other suits suits' scope kin
        · split
          · next structural _ =>
            exact uniform_verify name false argument
              (uniform_guard (fun options => structural.holds options.toBasis)
                fun _ => by cases structural <;> rfl) options other suits suits' scope kin
          · split
            · exact agree_throw _ _
            · exact agree_throw _ _

end Step

namespace Prepared

open CompileM

variable {kinship : Kinship ν σ} {core options other : Options ν σ} {atScope : Step ν σ}

theorem agree_fold (suits : options.Suits kinship core) (suits' : other.Suits kinship core)
    (scope : Option (Scope ν)) {group : List (Prepared ν σ)}
    (uniform : ∀ item ∈ group, Step.Uniform kinship core item.step)
    {next counterpart : Predicate ν σ} (kin : next.Kin kinship.related counterpart) :
    Agree (Predicate.Kin kinship.related) (fold options scope group next)
      (fold other scope group counterpart) := by
  induction group generalizing next counterpart with
  | nil => exact agree_pure kin
  | cons first rest ih =>
    obtain ⟨head, tail⟩ := List.forall_mem_cons.mp uniform
    rw [fold, fold, kin.isAlwaysFalse]
    split
    · exact agree_pure kin
    · exact agree_bind (head options other suits suits' scope kin) fun _ _ pair => ih tail pair

theorem agree_foldGroups (suits : options.Suits kinship core) (suits' : other.Suits kinship core)
    (root : options.root = .alwaysTrue) (root' : other.root = .alwaysTrue) (scope : Option (Scope ν))
    {groups : List (List (Prepared ν σ))}
    (uniform : ∀ group ∈ groups, ∀ item ∈ group, Step.Uniform kinship core item.step)
    {united counterpart : Predicate ν σ} (kin : united.Kin kinship.related counterpart) :
    Agree (Predicate.Kin kinship.related) (foldGroups options scope groups united)
      (foldGroups other scope groups counterpart) := by
  induction groups generalizing united counterpart with
  | nil => exact agree_pure kin
  | cons group rest ih =>
    obtain ⟨head, tail⟩ := List.forall_mem_cons.mp uniform
    rw [foldGroups, foldGroups, root, root']
    refine agree_bind (agree_fold suits suits' scope head .alwaysTrue) fun predicate partner pair => ?_
    refine agree_bind (agree_lift fun session another => ?_) fun _ _ union => ih tail union
    exact kin.union pair session another

/-- Whatever the groups and the options are, if what is folded in the end is the same. -/
theorem agree_compile_of_complete (suits : options.Suits kinship core) (suits' : other.Suits kinship core)
    (root : options.root = .alwaysTrue) (root' : other.root = .alwaysTrue) {α : Type} {items : List α}
    {first second : α → List (Prepared ν σ)} {given : Option (Scope ν)}
    (refuses : refused (items.map first) options = refused (items.map second) other)
    (scope : scopeOf options given = scopeOf other given)
    (each : ∀ collection, ∀ item ∈ items,
      complete atScope options.flags.relativeSelector (anchors options given) collection (first item) =
        complete atScope other.flags.relativeSelector (anchors other given) collection (second item))
    (uniform : ∀ group ∈ completed atScope (items.map second) other given, ∀ item ∈ group,
      Step.Uniform kinship core item.step) :
    Agree (Query.Kin kinship.related) (compile atScope (items.map first) options given)
      (compile atScope (items.map second) other given) := by
  have completes : completed atScope (items.map first) options given =
      completed atScope (items.map second) other given := by
    rw [completed, completed, List.map_map, List.map_map, scope]
    exact List.map_congr_left (each _)
  have reaches : amongSiblings atScope (items.map first) options given =
      amongSiblings atScope (items.map second) other given := by
    have among := congrArg (List.any · (fun group => Selector.startsAmongSiblings (tokens group)))
      (List.map_congr_left (each false))
    rw [List.any_map, List.any_map] at among
    rw [amongSiblings, amongSiblings, List.any_map, List.any_map]
    exact among
  rw [compile_eq, compile_eq, refuses, scope, completes, reaches]
  split
  · exact agree_throw _ _
  · exact agree_bind (agree_foldGroups suits suits' root root' _ uniform .alwaysFalse)
      fun _ _ pair => agree_pure ⟨pair, rfl⟩

theorem agree_compile (suits : options.Suits kinship core) (suits' : other.Suits kinship core)
    (context : options.context = other.context) (anchored : options.anchored = other.anchored)
    (relative : options.flags.relativeSelector = other.flags.relativeSelector)
    (root : options.root = .alwaysTrue) (root' : other.root = .alwaysTrue)
    (uniformScope : Step.Uniform kinship core atScope) {groups : List (List (Prepared ν σ))}
    (uniform : ∀ group ∈ groups, ∀ item ∈ group, Step.Uniform kinship core item.step)
    (given : Option (Scope ν)) :
    Agree (Query.Kin kinship.related) (compile atScope groups options given)
      (compile atScope groups other given) := by
  have scope : scopeOf options given = scopeOf other given := by rw [scopeOf, context, scopeOf]
  have refuses : refused groups options = refused groups other := by rw [refused, relative, refused]
  have anchors : anchors options given = anchors other given := by
    have tree : options.tree = other.tree :=
      Options.eq_of_core suits.core suits'.core (fun options => options.tree) fun _ => rfl
    rw [Prepared.anchors, scope, anchored, tree, Prepared.anchors]
  rw [← List.map_id groups] at refuses uniform ⊢
  refine agree_compile_of_complete suits suits' root root' refuses scope (fun _ _ _ => ?_)
    (forall_completed other given uniform uniformScope Step.uniform_combinator)
  rw [relative, anchors]

end Prepared

namespace Step

open CompileM

variable {kinship : Kinship ν σ} {core : Options ν σ} {atScope : Step ν σ}
  {groups : List (List (Prepared ν σ))}

theorem uniform_anyOf (uniformScope : Uniform kinship core atScope)
    (uniform : ∀ group ∈ groups, ∀ item ∈ group, Uniform kinship core item.step) :
    Uniform kinship core (Subselect.anyOfStep atScope groups) := by
  intro options other suits suits' scope next counterpart kin
  refine agree_bind (Prepared.agree_compile suits.unanchored suits'.unanchored rfl rfl rfl rfl rfl
    uniformScope uniform scope) fun query partner pair => ?_
  exact agree_lift fun session another => pair.1.and kin session another

theorem uniform_noneOf (uniformScope : Uniform kinship core atScope)
    (uniform : ∀ group ∈ groups, ∀ item ∈ group, Uniform kinship core item.step) :
    Uniform kinship core (Subselect.noneOfStep atScope groups) := by
  intro options other suits suits' scope next counterpart kin
  refine agree_bind (Prepared.agree_compile suits.unanchored suits'.unanchored rfl rfl rfl rfl rfl
    uniformScope uniform scope) fun query partner pair => ?_
  refine agree_bind (agree_lift fun session another => pair.1.negate session another)
    fun _ _ negated => ?_
  exact agree_lift fun session another => negated.and kin session another

theorem agree_hasQuery {options other : Options ν σ} (suits : options.Suits kinship core)
    (suits' : other.Suits kinship core) (uniformScope : Uniform kinship core atScope)
    (uniform : ∀ group ∈ groups, ∀ item ∈ group, Uniform kinship core item.step) :
    Agree (Query.Kin kinship.related) (Subselect.hasQuery groups atScope options)
      (Subselect.hasQuery groups atScope other) := by
  unfold Subselect.hasQuery
  split
  · exact Prepared.agree_compile suits.unremembering suits'.unremembering rfl rfl rfl rfl rfl uniformScope
      uniform _
  · exact Prepared.agree_compile suits.embedded suits'.embedded rfl rfl rfl rfl rfl uniformScope uniform _

theorem uniform_has (uniformScope : Uniform kinship core atScope)
    (uniform : ∀ group ∈ groups, ∀ item ∈ group, Uniform kinship core item.step) :
    Uniform kinship core (Subselect.hasStep atScope groups) := by
  intro options other suits suits' scope next counterpart kin
  have area := Options.eq_of_core suits.core suits'.core
    (fun options => Subselect.searchArea options.toBasis) fun _ => rfl
  rw [Subselect.hasStep_eq, Subselect.hasStep_eq]
  refine agree_bind (agree_hasQuery suits suits' uniformScope uniform) fun query partner pair =>
    agree_lift fun session another => ?_
  obtain ⟨predicate, reaches⟩ := query
  obtain ⟨predicate', reaches'⟩ := partner
  obtain ⟨pair, rfl⟩ := pair
  dsimp only at pair
  unfold Subselect.hasSearch
  rw [area]
  cases pair with
  | alwaysTrue => exact kin.andThen (kinship.leadsTo _ (kinship.holds _)) session another
  | alwaysFalse => exact .alwaysFalse
  | dynamic _ _ same =>
    dsimp only
    split
    · exact kin.andThen (kinship.asSubject _ same) session another
    · exact kin.andThen (kinship.leadsTo _ same) session another

theorem uniform_subselect {expand : SelectorList → Step ν σ}
    (uniformScope : Uniform kinship core (scopeStep expand)) (name : String)
    (uniform : ∀ group ∈ groups, ∀ item ∈ group, Uniform kinship core item.step) :
    Uniform kinship core (subselectStep expand name groups) := by
  unfold subselectStep
  split
  · next kind _ =>
    cases kind with
    | anyOf => exact uniform_anyOf uniformScope uniform
    | noneOf => exact uniform_noneOf uniformScope uniform
    | has => exact uniform_has uniformScope uniform
  · exact uniform_throw _

theorem uniform_token (knows : kinship.Knows core.custom) {expand : SelectorList → Step ν σ}
    (each : ∀ selectors, Uniform kinship core (expand selectors)) (token : Token) :
    Uniform kinship core (tokenStep expand token) := by
  induction token using Token.induct with
  | tag name space => exact uniform_tag name
  | universal space => exact uniform_skip
  | attr selector => exact uniform_attribute selector
  | pseudoClass name argument => exact uniform_pseudoClass knows each name argument
  | subselect name groups ih =>
    rw [tokenStep]
    exact uniform_subselect (uniform_pseudoClass knows each _ _) name (forall_prepareGroups ih)
  | pseudoElement name argument => exact uniform_throw _
  | combinator kind => exact uniform_combinator kind

theorem uniform_expansion (knows : kinship.Knows core.custom) (depth : Nat) (selectors : SelectorList) :
    Uniform kinship core (expansion depth selectors) := by
  induction depth generalizing selectors with
  | zero => exact uniform_throw _
  | succ depth ih =>
    exact uniform_anyOf (uniform_pseudoClass knows ih _ _)
      (forall_prepareGroups fun _ _ token _ => uniform_token knows ih token)

theorem uniform_atScope (knows : kinship.Knows core.custom) (depth : Nat) :
    Uniform kinship core (scopeStep (expansion depth)) :=
  uniform_pseudoClass knows (uniform_expansion knows depth) "scope" none

theorem uniform_prepareGroups (knows : kinship.Knows core.custom) (depth : Nat) (selectors : SelectorList) :
    ∀ group ∈ prepareGroups (expansion depth) selectors, ∀ item ∈ group, Uniform kinship core item.step :=
  forall_prepareGroups fun _ _ token _ => uniform_token knows (uniform_expansion knows depth) token

end Step

/-- Giving the same answers to every node. -/
def Kinship.answers : Kinship ν σ where
  related plan other := ∀ subject node, plan.passes subject node = other.passes subject node
  symm same subject node := (same subject node).symm
  trans same same' subject node := (same subject node).trans (same' subject node)
  holds _ _ _ := rfl
  isSubject _ _ _ := rfl
  both same same' subject node := by rw [Plan.passes, Plan.passes, same, same']
  either same same' subject node := by rw [Plan.passes, Plan.passes, same, same']
  negation same subject node := by rw [Plan.passes, Plan.passes, same]
  leadsTo _ _ _ same subject node := by rw [Plan.passes, Plan.passes, funext (same subject)]
  asSubject _ _ _ same _ node := by rw [Plan.passes, Plan.passes, funext (same (some node))]
  remembers := True
  under _ table climb isElement rest _ subject node := by
    rw [Plan.passes, Plan.passes, List.any_filter]
  inherited _ _ _ _ _ _ _ := rfl

theorem Options.suits_answers {options core : Options ν σ} (same : options.core = core) :
    options.Suits .answers core :=
  ⟨same, fun _ => trivial⟩

theorem Step.combinatorWalk_passes (kind : Combinator) (options : Options ν σ) (rest : Plan ν σ)
    (session : Session σ) :
    ∃ identity plan, ((combinatorWalk kind options rest).run session).1 = .dynamic identity plan ∧
      ∀ subject node, plan.passes subject node =
        (kind.reach options.toBasis node).any (rest.passes subject) :=
  exists_walk (Options.suits_answers (rfl : options.core = options.core)) kind (fun _ _ => rfl) session

/-- The same answer known beforehand, or the same answer to every node. -/
abbrev Predicate.Alike : Predicate ν σ → Predicate ν σ → Prop := Kin Kinship.answers.related

theorem Predicate.Kin.passes {first second : Predicate ν σ} (alike : first.Alike second)
    (subject : Option ν) (node : ν) : first.passes subject node = second.passes subject node :=
  alike.toPlan subject node

abbrev Query.Alike : Query ν σ → Query ν σ → Prop := Kin Kinship.answers.related

namespace SelectorList

open CompileM

/-- What is compiled of a list is related, wherever it is compiled. -/
theorem agree_unchecked {kinship : Kinship ν σ} {core options other : Options ν σ}
    (suits : options.Suits kinship core) (suits' : other.Suits kinship core)
    (context : options.context = other.context) (anchored : options.anchored = other.anchored)
    (relative : options.flags.relativeSelector = other.flags.relativeSelector)
    (root : options.root = .alwaysTrue) (root' : other.root = .alwaysTrue)
    (knows : kinship.Knows core.custom) (selectors : SelectorList) (given : Option (MatchContext ν)) :
    Agree (Query.Kin kinship.related) (selectors.compileUnchecked options given)
      (selectors.compileUnchecked other given) := by
  have custom := suits.custom
  have custom' := suits'.custom
  unfold compileUnchecked
  rw [custom, custom']
  exact Prepared.agree_compile suits suits' context anchored relative root root'
    (Step.uniform_atScope knows _) (Step.uniform_prepareGroups knows _ selectors) _

variable (options other : Options ν σ)

theorem agree_compileUnchecked (core : options.core = other.core)
    (context : options.context = other.context) (anchored : options.anchored = other.anchored)
    (relative : options.flags.relativeSelector = other.flags.relativeSelector)
    (root : options.root = .alwaysTrue) (root' : other.root = .alwaysTrue)
    (builtin : other.custom = {}) (selectors : SelectorList) (given : Option (MatchContext ν)) :
    Agree Query.Alike (selectors.compileUnchecked options given)
      (selectors.compileUnchecked other given) := by
  have coreBuiltin : other.core.custom = {} := builtin
  exact agree_unchecked (Options.suits_answers core) (Options.suits_answers rfl) context anchored relative
    root root' (Kinship.knows_of_empty coreBuiltin) selectors given

theorem agree_compile_of_unchecked {options other : Options ν σ} {selectors others : SelectorList}
    {given : Option (MatchContext ν)} (tree : options.tree = other.tree)
    (unchecked : Agree Query.Alike (selectors.compileUnchecked options given)
      (others.compileUnchecked other given)) :
    Agree Query.Alike (selectors.compile options given) (others.compile other given) := by
  refine agree_bind unchecked fun query partner pair => ?_
  rw [tree]
  refine agree_bind (agree_lift fun session another => pair.1.guard (fun _ _ => rfl) session another)
    fun _ _ guarded => agree_pure ⟨guarded, pair.2⟩

theorem agree_compile (core : options.core = other.core)
    (context : options.context = other.context) (anchored : options.anchored = other.anchored)
    (relative : options.flags.relativeSelector = other.flags.relativeSelector)
    (root : options.root = .alwaysTrue) (root' : other.root = .alwaysTrue)
    (builtin : other.custom = {}) (selectors : SelectorList) (given : Option (MatchContext ν)) :
    Agree Query.Alike (selectors.compile options given) (selectors.compile other given) :=
  agree_compile_of_unchecked (congrArg (fun options => options.tree) core)
    (agree_compileUnchecked options other core context anchored relative root root' builtin selectors given)

end SelectorList
end SelectorEngine
