import SelectorEngine.Proofs.Compile.Foresight
import SelectorEngine.Proofs.Compile.Remembering

/-! What a step does to the predicate it is put in front of. It is one of a few things, and which one
depends neither on the predicate nor on the root of the options. So a predicate stays what it is, never
matches any more, or gets an identity that was not given out before. -/
namespace SelectorEngine

variable {ν σ : Type}

theorem Session.grew_fresh (session : Session σ) :
    session.Grew { session with supply := session.supply + 1 } :=
  ⟨rfl, Nat.le_succ _⟩

namespace CompileM

variable {α β : Type}

/-- Nothing is recorded on the way, and numbers are only given out. -/
def Grows (action : CompileM σ α) : Prop :=
  ∀ session value after, Gives action session value after → session.Grew after

theorem grows_pure (value : α) : Grows (pure value : CompileM σ α) := by
  intro session result after given
  obtain ⟨_, rfl⟩ := gives_pure.mp given
  exact .refl after

theorem grows_throw (error : CompileError) : Grows (throw error : CompileM σ α) :=
  fun _ _ _ given => absurd given gives_throw

theorem grows_lift {action : SessionM σ α} (grew : ∀ session : Session σ, session.Grew (action.run session).2) :
    Grows (liftM action : CompileM σ α) := by
  intro session result after given
  have grown := grew session
  rw [gives_lift.mp given] at grown
  exact grown

theorem grows_bind {action : CompileM σ α} {next : α → CompileM σ β} (first : Grows action)
    (rest : ∀ value, Grows (next value)) : Grows (action >>= next) := by
  intro session result after given
  obtain ⟨value, between, start, further⟩ := gives_bind.mp given
  exact (first session value between start).trans (rest value between result after further)

end CompileM

namespace Predicate

variable (first second start : Predicate ν σ) (session : Session σ)

theorem grew_or : session.Grew ((first.or second).run session).2 := by
  cases first <;> cases second <;> first | exact .refl session | exact session.grew_fresh

theorem grew_union : session.Grew ((first.union second start).run session).2 := by
  unfold union
  split
  · exact .refl session
  · split
    · exact .refl session
    · exact grew_or first second session

theorem grew_negate : session.Grew (first.negate.run session).2 := by
  cases first <;> first | exact .refl session | exact session.grew_fresh

/-- What a predicate becomes when more is put in front of it, by what is known of that beforehand. -/
def Becomes (start : Predicate ν σ) (session : Session σ) (verdict : Verdict) (result : Predicate ν σ) :
    Prop :=
  match verdict with
  | .always => result = start
  | .never => result = .alwaysFalse
  | .unknown => ∃ identity plan, result = .dynamic identity plan ∧ session.supply ≤ identity

end Predicate

theorem combinatorWalk_run (session : Session σ) (kind : Combinator) (options : Options ν σ) (rest : Plan ν σ) :
    ∃ identity plan, ((combinatorWalk kind options rest).run session).1 = .dynamic identity plan ∧
      session.supply ≤ identity ∧ session.Grew ((combinatorWalk kind options rest).run session).2 := by
  unfold combinatorWalk
  split
  · exact ⟨session.supply + 1, _, rfl, Nat.le_succ _, session.grew_fresh.trans (Session.grew_fresh _)⟩
  · exact ⟨session.supply, _, rfl, Nat.le_refl _, session.grew_fresh⟩

/-- What is put in front of a predicate. -/
inductive Extension (ν σ : Type) where
  | nothing
  /-- A test that never passes. -/
  | never
  | guard (check : Plan ν σ)
  | andThen (check : Plan ν σ)
  | and (first : Predicate ν σ)
  | walk (kind : Combinator) (options : Options ν σ)

namespace Extension

def apply (extension : Extension ν σ) (next : Predicate ν σ) : SessionM σ (Predicate ν σ) :=
  match extension with
  | nothing => pure next
  | never => pure .alwaysFalse
  | guard check => next.guard check
  | andThen check => next.andThen check
  | and first => first.and next
  | walk kind options =>
    if next.isAlwaysFalse then pure .alwaysFalse else combinatorWalk kind options next.toPlan

def verdict : Extension ν σ → Verdict
  | nothing => .always
  | never => .never
  | and first => first.verdict
  | _ => .unknown

variable (extension : Extension ν σ) (session : Session σ)

theorem grew_apply (next : Predicate ν σ) : session.Grew ((extension.apply next).run session).2 := by
  cases extension with
  | nothing => exact .refl session
  | never => exact .refl session
  | guard check => cases next <;> first | exact .refl session | exact session.grew_fresh
  | andThen check => cases next <;> first | exact .refl session | exact session.grew_fresh
  | and first =>
    cases first <;> cases next <;> first | exact .refl session | exact session.grew_fresh
  | walk kind options =>
    unfold apply
    dsimp only
    split
    · exact .refl session
    · obtain ⟨_, _, _, _, grew⟩ := combinatorWalk_run session kind options next.toPlan
      exact grew

theorem verdict_apply_alwaysTrue :
    ((extension.apply .alwaysTrue).run session).1.verdict = extension.verdict := by
  cases extension with
  | and first => cases first <;> rfl
  | walk kind options =>
    obtain ⟨_, _, made, _⟩ := combinatorWalk_run session kind options
      (Predicate.alwaysTrue : Predicate ν σ).toPlan
    exact congrArg Predicate.verdict made
  | _ => rfl

theorem becomes_apply (identity : Nat) (plan : Plan ν σ) :
    (Predicate.dynamic identity plan).Becomes session extension.verdict
      ((extension.apply (.dynamic identity plan)).run session).1 := by
  have fresh (made : Plan ν σ) : (Predicate.dynamic identity plan).Becomes session .unknown
      ((Predicate.ofPlan made).run session).1 := ⟨session.supply, made, rfl, Nat.le_refl _⟩
  cases extension with
  | nothing => rfl
  | never => rfl
  | guard check => exact fresh _
  | andThen check => exact fresh _
  | and first =>
    cases first with
    | alwaysTrue => rfl
    | alwaysFalse => rfl
    | dynamic other before => exact fresh _
  | walk kind options =>
    obtain ⟨other, made, run, older, _⟩ := combinatorWalk_run session kind options plan
    exact ⟨other, made, run, older⟩

end Extension

/-- From every session the step fails, or it extends the predicate behind it in one way from some later
session on, whatever that predicate is and whatever the root of the options is. -/
def Step.Extends (step : Step ν σ) : Prop :=
  ∀ options : Options ν σ, options.custom = {} → ∀ scope session,
    (∃ error, ∀ root next, CompileM.Fails (step { options with root } scope next) session error) ∨
    ∃ (extension : Extension ν σ) (between : Session σ), session.Grew between ∧ ∀ root next,
      CompileM.Gives (step { options with root } scope next) session
        ((extension.apply next).run between).1 ((extension.apply next).run between).2

namespace Step

open CompileM

theorem Extends.grows {step : Step ν σ} (extend : step.Extends) (options : Options ν σ)
    (builtin : options.custom = {}) (scope : Option (Scope ν)) (next : Predicate ν σ) :
    Grows (step options scope next) := by
  intro session result after given
  rcases extend options builtin scope session with ⟨error, fails⟩ | ⟨extension, between, grew, gives⟩
  · exact absurd (fails options.root next) given.not_fails
  · have grown := grew.trans (extension.grew_apply between next)
    have same := given.symm.trans (gives options.root next)
    cases same
    exact grown

theorem extends_throw (error : CompileError) :
    Extends fun _ _ _ => (throw error : CompileM σ (Predicate ν σ)) :=
  fun _ _ _ session => .inl ⟨error, fun _ _ => fails_throw error session⟩

theorem extends_lift (extension : Options ν σ → Option (Scope ν) → Extension ν σ)
    (blind : ∀ options scope root, extension { options with root } scope = extension options scope) :
    Extends fun options scope next => liftM ((extension options scope).apply next) := by
  intro options _ scope session
  refine .inr ⟨extension options scope, session, .refl session, fun root next => ?_⟩
  dsimp only
  rw [blind]
  exact gives_lift.mpr rfl

theorem extends_guard (check : Options ν σ → Plan ν σ)
    (blind : ∀ options root, check { options with root } = check options) :
    Extends fun options _ next => liftM (next.guard (check options)) :=
  extends_lift (fun options _ => .guard (check options)) fun options _ root => by rw [blind]

theorem extends_nothing : Extends fun _ _ next => (pure next : CompileM σ (Predicate ν σ)) :=
  extends_lift (fun _ _ => .nothing) fun _ _ _ => rfl

theorem extends_never : Extends fun _ _ _ => (pure .alwaysFalse : CompileM σ (Predicate ν σ)) :=
  extends_lift (fun _ _ => .never) fun _ _ _ => rfl

/-- What is done before a step, and does not look at what is behind the step. -/
theorem extends_bind {α : Type} (action : Options ν σ → Option (Scope ν) → CompileM σ α)
    {step : α → Step ν σ}
    (blind : ∀ options scope root, action { options with root } scope = action options scope)
    (grows : ∀ options, options.custom = {} → ∀ scope, Grows (action options scope))
    (each : ∀ value, Extends (step value)) :
    Extends fun options scope next => action options scope >>= fun value =>
      step value options scope next := by
  intro options builtin scope session
  rcases gives_or_fails (action options scope) session with ⟨value, between, given⟩ | ⟨error, failed⟩
  · rcases each value options builtin scope between with
      ⟨error, fails⟩ | ⟨extension, middle, grew, gives⟩
    · refine .inl ⟨error, fun root next => ?_⟩
      dsimp only
      rw [blind]
      exact given.bind_fails (fails root next)
    · have grown := (grows options builtin scope session value between given).trans grew
      refine .inr ⟨extension, middle, grown, fun root next => ?_⟩
      dsimp only
      rw [blind]
      exact gives_bind.mpr ⟨value, between, given, gives root next⟩
  · refine .inl ⟨error, fun root next => ?_⟩
    dsimp only
    rw [blind]
    exact failed.bind _

theorem extends_ite (condition : Options ν σ → Bool)
    (blind : ∀ options root, condition { options with root } = condition options) {yes no : Step ν σ}
    (first : Extends yes) (second : Extends no) :
    Extends fun options scope next =>
      if condition options then yes options scope next else no options scope next := by
  intro options builtin scope session
  dsimp only
  simp only [blind]
  cases condition options with
  | true => exact first options builtin scope session
  | false => exact second options builtin scope session

theorem extends_attribute (selector : AttributeSelector) : Extends (attributeStep (ν := ν) (σ := σ) selector) :=
  extends_ite (fun options => (AttributeTest.ofSelector selector options.flags).neverPasses)
    (fun _ _ => rfl) extends_never (extends_guard (fun options =>
      .holds ((AttributeTest.ofSelector selector options.flags).passes options.tree)) fun _ _ => rfl)

theorem extends_combinator (kind : Combinator) : Extends (combinatorStep (ν := ν) (σ := σ) kind) := by
  intro options builtin scope session
  by_cases column : kind = .column
  · refine .inl ⟨.unsupported .columnCombinators, fun root next => ?_⟩
    rw [combinatorStep_eq, if_pos column]
    exact fails_throw _ session
  · refine .inr ⟨.walk kind options, session, .refl session, fun root next => ?_⟩
    rw [combinatorStep_eq, if_neg column]
    unfold Extension.apply
    dsimp only
    split
    · exact gives_pure.mpr ⟨rfl, rfl⟩
    · exact gives_lift.mpr rfl

theorem extends_need (name : String) (argument : Option String) {step : String → Step ν σ}
    (each : ∀ text, Extends (step text)) : Extends fun options scope next =>
      BuiltinFilter.needArgument name argument >>= fun text => step text options scope next := by
  refine extends_bind (fun _ _ => BuiltinFilter.needArgument name argument) (fun _ _ _ => rfl)
    (fun _ _ _ => ?_) each
  cases argument with
  | none => exact grows_throw _
  | some text => exact grows_pure text

theorem extends_verify (name : String) (taken : Bool) (argument : Option String) {step : Step ν σ}
    (extend : Extends step) : Extends fun options scope next =>
      verifyArgument name taken argument >>= fun _ => step options scope next := by
  refine extends_bind (fun _ _ => verifyArgument name taken argument) (fun _ _ _ => rfl)
    (fun _ _ _ => ?_) fun _ => extend
  unfold verifyArgument
  split
  · exact grows_throw _
  · exact grows_throw _
  · exact grows_pure ()

theorem extends_counting (how : Counting) (name formula : String) :
    Extends (how.step (ν := ν) (σ := σ) name formula) := by
  intro options builtin scope session
  unfold Counting.step
  split
  · exact extends_throw _ options builtin scope session
  · exact extends_never options builtin scope session
  · exact extends_guard (fun options => .holds fun node => (options.tree.elementParent node).isSome)
      (fun _ _ => rfl) options builtin scope session
  · next positions _ _ _ =>
    exact extends_guard (fun options =>
      .holds fun node => positions.contains (how.position options.toBasis node)) (fun _ _ => rfl)
      options builtin scope session

/-- A test that remembers gets its table before it is put in front. -/
theorem extends_text (fold : String → String) (argument : String) :
    Extends (BuiltinFilter.textStep (ν := ν) (σ := σ) fold argument) := by
  intro options builtin scope session
  let check : Plan ν σ := .holds fun node =>
    Text.contains (fold argument) (fold (options.tree.text node))
  cases remembers : options.flags.cacheResults with
  | false =>
    refine .inr ⟨.andThen check, session, .refl session, fun root next => gives_lift.mpr ?_⟩
    dsimp only
    rw [remembers]
    rfl
  | true =>
    refine .inr ⟨.andThen (.inherited session.supply options.tree.elementClimb check),
      { session with supply := session.supply + 1 }, session.grew_fresh,
      fun root next => gives_lift.mpr ?_⟩
    dsimp only
    rw [remembers]
    rfl

theorem extends_root : Extends (BuiltinFilter.rootStep (ν := ν) (σ := σ)) :=
  extends_guard (fun options => .holds fun node => (options.tree.elementParent node).isNone)
    fun _ _ => rfl

theorem extends_scope : Extends (BuiltinFilter.scopeStep (ν := ν) (σ := σ)) := by
  intro options builtin scope session
  match scope with
  | none => exact extends_root options builtin none session
  | some .subject =>
    exact extends_guard (fun options => .isSubject options.same) (fun _ _ => rfl) options builtin scope
      session
  | some (.fixed context) =>
    unfold BuiltinFilter.scopeStep
    dsimp only
    split
    · exact extends_root options builtin none session
    · exact extends_guard (fun options => .holds fun node => context.toList.any (options.same · node))
        (fun _ _ => rfl) options builtin scope session

theorem extends_filter (filter : BuiltinFilter) (name : String) (argument : Option String) :
    Extends (filter.step (ν := ν) (σ := σ) name argument) := by
  cases filter with
  | contains => exact extends_need name argument (extends_text id)
  | containsFolded => exact extends_need name argument (extends_text Text.lower)
  | counting how => exact extends_need name argument (extends_counting how name)
  | root => exact extends_root
  | scope => exact extends_scope
  | state which =>
    exact extends_ite (fun options => options.tree.supports which) (fun _ _ => rfl)
      (extends_guard (fun options => .holds fun node => options.tree.isIn node which) fun _ _ => rfl)
      extends_never
  | lang => exact extends_need name argument fun value =>
      extends_attribute { name := "lang", action := .equals, value }

theorem extends_pseudoClass {expand : SelectorList → Step ν σ} (each : ∀ selectors, Extends (expand selectors))
    (name : String) (argument : Option String) : Extends (pseudoClassStep expand name argument) := by
  intro options builtin scope session
  have stepped (root next : Predicate ν σ) := pseudoClassStep_builtin expand name argument
    (show ({ options with root } : Options ν σ).custom.Lacks name from
      CustomClasses.lacks_of_empty builtin name) scope next
  simp only [stepped]
  split
  · next selectors _ => exact extends_verify name false argument (each selectors) options builtin scope session
  · split
    · next filter _ => exact extends_filter filter name argument options builtin scope session
    · split
      · next structural _ =>
        exact extends_verify name false argument
          (extends_guard (fun options => .holds (structural.holds options.toBasis))
            fun _ _ => by cases structural <;> rfl) options builtin scope session
      · split
        · exact extends_throw _ options builtin scope session
        · exact extends_throw _ options builtin scope session

end Step

namespace Prepared

open CompileM

variable {options : Options ν σ} {scope : Option (Scope ν)} {atScope : Step ν σ}

theorem grows_fold (builtin : options.custom = {}) {group : List (Prepared ν σ)}
    (extend : ∀ item ∈ group, item.step.Extends) (start : Predicate ν σ) :
    Grows (fold options scope group start) := by
  induction group generalizing start with
  | nil => exact grows_pure start
  | cons first rest ih =>
    obtain ⟨head, tail⟩ := List.forall_mem_cons.mp extend
    rw [fold]
    split
    · exact grows_pure start
    · exact grows_bind (head.grows options builtin scope start) (ih tail)

theorem grows_foldGroups (builtin : options.custom = {}) {groups : List (List (Prepared ν σ))}
    (extend : ∀ group ∈ groups, ∀ item ∈ group, item.step.Extends) (united : Predicate ν σ) :
    Grows (foldGroups options scope groups united) := by
  induction groups generalizing united with
  | nil => exact grows_pure united
  | cons group rest ih =>
    obtain ⟨head, tail⟩ := List.forall_mem_cons.mp extend
    refine grows_bind (grows_fold builtin head options.root) fun predicate => ?_
    exact grows_bind (grows_lift fun session => united.grew_union predicate options.root session) (ih tail)

theorem grows_compile (options : Options ν σ) (builtin : options.custom = {}) (extendScope : atScope.Extends)
    {groups : List (List (Prepared ν σ))} (extend : ∀ group ∈ groups, ∀ item ∈ group, item.step.Extends)
    (given : Option (Scope ν)) : Grows (compile atScope groups options given) := by
  rw [compile_eq]
  split
  · exact grows_throw _
  · have all := forall_completed options given extend extendScope Step.extends_combinator
    exact grows_bind (grows_foldGroups builtin all _) fun predicate => grows_pure _

end Prepared

namespace Step

open CompileM

variable {atScope : Step ν σ} {groups : List (List (Prepared ν σ))}

section

variable (extendScope : atScope.Extends) (extend : ∀ group ∈ groups, ∀ item ∈ group, item.step.Extends)
include extendScope extend

theorem extends_anyOf : Extends (Subselect.anyOfStep atScope groups) := by
  refine extends_bind (fun options scope =>
    Prepared.compile atScope groups options.embedded.unanchored scope) (fun _ _ _ => rfl)
    (fun options builtin scope => ?_) fun query => ?_
  · exact Prepared.grows_compile options.embedded.unanchored builtin extendScope extend scope
  · exact extends_lift (fun _ _ => .and query.predicate) fun _ _ _ => rfl

theorem extends_noneOf : Extends (Subselect.noneOfStep atScope groups) := by
  refine extends_bind (fun options scope =>
    Prepared.compile atScope groups options.embedded.unanchored scope) (fun _ _ _ => rfl)
    (fun options builtin scope => ?_) fun query => ?_
  · exact Prepared.grows_compile options.embedded.unanchored builtin extendScope extend scope
  · refine extends_bind (fun _ _ => liftM query.predicate.negate) (fun _ _ _ => rfl)
      (fun _ _ _ => grows_lift query.predicate.grew_negate) fun negated => ?_
    exact extends_lift (fun _ _ => .and negated) fun _ _ _ => rfl

theorem extends_has : Extends (Subselect.hasStep atScope groups) := by
  have searches (query : Query ν σ) :
      Extends fun options _ next => liftM (Subselect.hasSearch groups options query next) := by
    unfold Subselect.hasSearch
    cases query.predicate with
    | alwaysFalse => exact extends_lift (fun _ _ => .never) fun _ _ _ => rfl
    | alwaysTrue =>
      exact extends_lift (fun options _ => .andThen (.leadsTo (Subselect.searchArea options.toBasis false)
        (Predicate.alwaysTrue : Predicate ν σ).toPlan)) fun _ _ _ => rfl
    | dynamic identity plan =>
      dsimp only
      split
      · exact extends_lift (fun options _ => .andThen
          (.asSubject (Subselect.searchArea options.toBasis query.reachesSiblings) plan)) fun _ _ _ => rfl
      · exact extends_lift (fun options _ => .andThen
          (.leadsTo (Subselect.searchArea options.toBasis false) plan)) fun _ _ _ => rfl
  intro options builtin scope session
  simp only [Subselect.hasStep_eq]
  refine extends_bind (fun options _ => Subselect.hasQuery groups atScope options) (fun _ _ _ => rfl)
    (fun options builtin _ => ?_) searches options builtin scope session
  unfold Subselect.hasQuery
  split
  · exact Prepared.grows_compile options.embedded.unremembering builtin extendScope extend (some .subject)
  · exact Prepared.grows_compile options.embedded builtin extendScope extend none

end

theorem extends_token {expand : SelectorList → Step ν σ} (each : ∀ selectors, Extends (expand selectors))
    (token : Token) : Extends (tokenStep expand token) := by
  induction token using Token.induct with
  | tag name space =>
    exact extends_guard (fun options => .holds fun node => options.tree.name node ==
      if options.flags.foldsTags then Text.lower name else name) fun _ _ => rfl
  | universal space => exact extends_nothing
  | attr selector => exact extends_attribute selector
  | pseudoClass name argument => exact extends_pseudoClass each name argument
  | subselect name groups ih =>
    have extendScope : (scopeStep expand).Extends := extends_pseudoClass each "scope" none
    have extend : ∀ group ∈ prepareGroups expand groups, ∀ item ∈ group, item.step.Extends :=
      forall_prepareGroups ih
    rw [tokenStep]
    unfold subselectStep
    split
    · next kind _ =>
      cases kind with
      | anyOf => exact extends_anyOf extendScope extend
      | noneOf => exact extends_noneOf extendScope extend
      | has => exact extends_has extendScope extend
    · exact extends_throw _
  | pseudoElement name argument => exact extends_throw _
  | combinator kind => exact extends_combinator kind

theorem extends_expansion (depth : Nat) (selectors : SelectorList) :
    Extends (expansion (ν := ν) (σ := σ) depth selectors) := by
  induction depth generalizing selectors with
  | zero => exact extends_throw _
  | succ depth ih =>
    exact extends_anyOf (extends_pseudoClass ih "scope" none)
      (forall_prepareGroups fun _ _ token _ => extends_token ih token)

end Step

theorem SelectorList.extends_prepareGroups (depth : Nat) (selectors : SelectorList) :
    ∀ group ∈ prepareGroups (expansion depth) selectors, ∀ item ∈ group,
      Step.Extends (item : Prepared ν σ).step :=
  forall_prepareGroups fun _ _ token _ => Step.extends_token (Step.extends_expansion depth) token

theorem Step.extends_atScope (depth : Nat) : Extends (scopeStep (ν := ν) (σ := σ) (expansion depth)) :=
  extends_pseudoClass (extends_expansion depth) "scope" none

end SelectorEngine
