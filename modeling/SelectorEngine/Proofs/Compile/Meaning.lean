import Mathlib.Logic.Basic
import SelectorEngine.Proofs.Compile.Agreement
import SelectorEngine.Proofs.Meaning.Chain

/-! What compiled predicates mean. Combinators are read as they are walked and `:has()` as it searches;
with that reading, the predicate of a selector list answers yes exactly where some group of the list
holds. -/
namespace SelectorEngine

variable {ν σ : Type}

/-- What `:scope` refers to when the subject of a relative search is known. -/
def Scope.seenFrom (subject : Option ν) : Scope ν → Option (MatchContext ν)
  | .fixed context => some context
  | .subject => subject.map .node

def Scope.IsResolved (scope : Option (Scope ν)) (subject : Option ν) : Prop :=
  scope = some .subject → subject.isSome = true

theorem Scope.isResolved_none (subject : Option ν) : IsResolved none subject := by
  intro impossible
  cases impossible

namespace Options

/-- The argument of `:has()` is known to match everywhere before any node is seen. -/
def isKnown (core : Options ν σ) (depth : Nat) (groups : SelectorList) : Prop :=
  ∃ session query after, CompileM.Gives (Subselect.hasQuery (prepareGroups (expansion depth) groups)
    (scopeStep (expansion depth)) core) session query after ∧ query.predicate = .alwaysTrue

def readingAt (core : Options ν σ) (depth : Nat)
    (expand : SelectorList → Option (MatchContext ν) → ν → Prop) : Reading ν where
  basis := core.toBasis
  leads kind node next := next ∈ kind.reach core.toBasis node
  relative := Selector.isRelative
  searched groups node found := ∃ siblings,
    found ∈ Subselect.searchArea core.toBasis siblings node ∧
      (siblings = true ↔ Selector.reachesSiblings groups = true ∧ ¬ core.isKnown depth groups)
  expand := expand

/-- The reading of a selector as it is compiled, where abbreviations are expanded to a limited depth. -/
def reading (core : Options ν σ) : Nat → Reading ν
  | 0 => core.readingAt 0 fun _ _ _ => False
  | depth + 1 => core.readingAt (depth + 1) fun selectors context =>
    (core.reading depth).someHolds context false selectors

end Options

/-- Whenever the step succeeds, it puts the part in front of what the predicate says. -/
def Step.Realizes (core : Options ν σ) (part : Option (MatchContext ν) → Part ν)
    (step : Step ν σ) : Prop :=
  ∀ options : Options ν σ, options.core = core → ∀ scope next session result after,
    CompileM.Gives (step options scope next) session result after →
      ∀ subject, Scope.IsResolved scope subject → ∀ node, result.passes subject node = true ↔
        (part (scope.bind (Scope.seenFrom subject))).onto
          (fun node => next.passes subject node = true) node

namespace Step

open CompileM

variable {core : Options ν σ}

theorem realizes_guard (property : Options ν σ → ν → Bool)
    (blind : ∀ options, property options = property options.core) {holds : ν → Prop}
    (meant : ∀ node, property core node = true ↔ holds node) :
    Realizes core (fun _ => .test holds)
      fun options _ next => liftM (next.guard (.holds (property options))) := by
  intro options same scope next session result after given subject _ node
  have equal : property options = property core := by rw [blind, same]
  rw [← given.lifted, Predicate.passes_guard, Bool.and_eq_true, Plan.passes, equal, meant]
  rfl

theorem realizes_throw (error : CompileError) (part : Option (MatchContext ν) → Part ν) :
    Realizes core part fun _ _ _ => throw error :=
  fun _ _ _ _ _ _ _ given => absurd given gives_throw

theorem realizes_alwaysFalse {holds : ν → Prop} (never : ∀ node, ¬ holds node) :
    Realizes core (fun _ => .test holds) fun _ _ _ => (pure .alwaysFalse) := by
  intro options _ scope next session result after given subject _ node
  obtain ⟨rfl, _⟩ := gives_pure.mp given
  exact ⟨fun impossible => (Bool.false_ne_true impossible).elim, fun held => (never node held.1).elim⟩

theorem realizes_skip {holds : ν → Prop} (always : ∀ node, holds node) :
    Realizes core (fun _ => .test holds) fun _ _ next => pure next := by
  intro options _ scope next session result after given subject _ node
  obtain ⟨rfl, _⟩ := gives_pure.mp given
  exact ⟨fun passes => ⟨always node, passes⟩, fun held => held.2⟩

theorem realizes_ite (condition : Options ν σ → Bool)
    (blind : ∀ options, condition options = condition options.core)
    {part : Option (MatchContext ν) → Part ν} {yes no : Step ν σ}
    (first : condition core = true → Realizes core part yes)
    (second : condition core = false → Realizes core part no) :
    Realizes core part fun options scope next =>
      if condition options then yes options scope next else no options scope next := by
  intro options same scope next session result after given
  have equal : condition options = condition core := by rw [blind, same]
  dsimp only at given
  cases chosen : condition core with
  | true =>
    rw [equal, chosen, if_pos rfl] at given
    exact first chosen options same scope next session result after given
  | false =>
    rw [equal, chosen, if_neg Bool.false_ne_true] at given
    exact second chosen options same scope next session result after given

theorem realizes_tag (name : String) (space : Option String) (reading : Reading ν)
    (basis : reading.basis = core.toBasis) :
    Realizes core (fun context => reading.part context (.tag name space)) (tagStep name) :=
  realizes_guard (fun options node => options.tree.name node ==
    if options.flags.foldsTags then Text.lower name else name) (fun _ => rfl) fun node => by
      rw [basis, beq_iff_eq]

theorem realizes_attribute (selector : AttributeSelector) :
    Realizes core (fun _ => .test (selector.Holds core.toBasis)) (attributeStep selector) := by
  refine realizes_ite (fun options => (AttributeTest.ofSelector selector options.flags).neverPasses)
    (fun _ => rfl) (fun never => ?_) fun may => ?_
  · refine realizes_alwaysFalse fun node held => ?_
    rw [AttributeSelector.holds_iff] at held
    exact Bool.false_ne_true (held.1.symm.trans never)
  · refine realizes_guard
      (fun options => (AttributeTest.ofSelector selector options.flags).passes options.tree)
      (fun _ => rfl) fun node => ?_
    rw [AttributeSelector.holds_iff]
    exact ⟨fun passes => ⟨may, passes⟩, fun held => held.2⟩

theorem realizes_combinator (kind : Combinator) :
    Realizes core (fun _ => .move fun node next => next ∈ kind.reach core.toBasis node)
      (combinatorStep kind) := by
  intro options same scope next session result after given subject _ node
  rw [combinatorStep_eq] at given
  split at given
  · exact absurd given gives_throw
  · split at given
    · next never =>
      obtain ⟨rfl, _⟩ := gives_pure.mp given
      cases next with
      | alwaysFalse => exact ⟨fun impossible => (Bool.false_ne_true impossible).elim,
          fun ⟨_, _, impossible⟩ => (Bool.false_ne_true impossible).elim⟩
      | _ => cases never
    · obtain ⟨identity, plan, made, reached⟩ :=
        combinatorWalk_passes kind options next.toPlan session
      have result_eq := given.lifted
      have reach : kind.reach options.toBasis node = kind.reach core.toBasis node :=
        congrArg (fun options => kind.reach options.toBasis node) same
      rw [made] at result_eq
      rw [← result_eq]
      change plan.passes subject node = true ↔ _
      rw [reached, reach, List.any_eq_true]
      rfl

theorem realizes_need (name : String) (argument : Option String) {step : String → Step ν σ}
    {part : Option (MatchContext ν) → Part ν}
    (each : ∀ text, argument = some text → Realizes core part (step text)) :
    Realizes core part fun options scope next =>
      BuiltinFilter.needArgument name argument >>= fun text => step text options scope next := by
  intro options same scope next session result after given
  cases argument with
  | none =>
    obtain ⟨_, _, impossible, _⟩ := gives_bind.mp given
    exact absurd impossible gives_throw
  | some text => exact each text rfl options same scope next session result after given

theorem realizes_verify (name : String) (taken : Bool) (argument : Option String) {step : Step ν σ}
    {part : Option (MatchContext ν) → Part ν} (realizes : Realizes core part step) :
    Realizes core part fun options scope next =>
      verifyArgument name taken argument >>= fun _ => step options scope next := by
  intro options same scope next session result after given
  obtain ⟨_, between, _, rest⟩ := gives_bind.mp given
  exact realizes options same scope next between result after rest

theorem realizes_counting (how : Counting) (name formula : String) :
    Realizes core (fun _ => .test (how.Holds core.toBasis formula)) (how.step name formula) := by
  have meant := how.holds_iff core.toBasis formula
  intro options same scope next session result after given
  unfold Counting.step at given
  split at given
  · exact absurd given gives_throw
  · next found =>
    simp only [found] at meant
    exact realizes_alwaysFalse (fun node held => Bool.false_ne_true ((meant node).mp held))
      options same scope next session result after given
  · next found =>
    simp only [found] at meant
    exact realizes_guard
      (fun options node => (options.tree.elementParent node).isSome) (fun _ => rfl)
      (fun node => (meant node).symm) options same scope next session result after given
  · next positions _ notAll found =>
    rw [found] at meant
    refine realizes_guard
      (fun options node => positions.contains (how.position options.toBasis node)) (fun _ => rfl)
      (fun node => ?_) options same scope next session result after given
    rw [meant]
    cases positions with
    | all => exact absurd rfl notAll
    | _ => rfl

theorem realizes_text (fold : String → String) (argument : String) :
    Realizes core (fun _ => .test fun node =>
        (fold argument).toList <:+: (fold (core.tree.text node)).toList)
      (BuiltinFilter.textStep fold argument) := by
  intro options same scope next session result after given subject _ node
  have text : options.tree.text node = core.tree.text node :=
    congrArg (fun options => options.tree.text node) same
  rw [← given.lifted, Predicate.passes_andInherited, Bool.and_eq_true, Plan.passes, text,
    Text.contains_iff]
  exact and_comm

theorem realizes_root :
    Realizes core (fun _ => .test fun node => core.tree.elementParent node = none)
      (BuiltinFilter.rootStep : Step ν σ) :=
  realizes_guard (fun options node => (options.tree.elementParent node).isNone) (fun _ => rfl)
    fun _ => Option.isNone_iff_eq_none

theorem realizes_scope (reading : Reading ν) (basis : reading.basis = core.toBasis) :
    Realizes core (fun context => .test (reading.AtScope context))
      (BuiltinFilter.scopeStep : Step ν σ) := by
  intro options same scope next session result after given subject resolved node
  have sameness : options.same = core.same := congrArg (fun options => options.same) same
  rcases scope with _ | (context | _)
  · apply (realizes_root options same none next session result after given subject resolved node).trans
    apply and_congr_left'
    change _ ↔ reading.AtScope none node
    rw [reading.atScope_root rfl, basis]
  · unfold BuiltinFilter.scopeStep at given
    dsimp only at given
    split at given
    · next empty =>
      apply (realizes_root options same none next session result after given subject
        (Scope.isResolved_none subject) node).trans
      apply and_congr_left'
      change _ ↔ reading.AtScope (some context) node
      have empty : ((some context).map MatchContext.toList).getD [] = [] := empty
      rw [reading.atScope_root empty, basis]
    · next filled =>
      have meant (node : ν) : context.toList.any (core.same · node) = true ↔
          reading.AtScope (some context) node := by
        rw [reading.atScope_nodes filled, basis]
      exact realizes_guard
        (fun options node => context.toList.any (options.same · node)) (fun _ => rfl) meant
        options same none next session result after given subject
        (Scope.isResolved_none subject) node
  · obtain ⟨asked, rfl⟩ := Option.isSome_iff_exists.mp (resolved rfl)
    change CompileM.Gives (liftM (next.guard (.isSubject options.same))) _ _ _ at given
    rw [← given.lifted, Predicate.passes_guard, Bool.and_eq_true, Plan.passes, sameness]
    apply and_congr_left'
    change _ ↔ reading.AtScope (some (.node asked)) node
    rw [reading.atScope_node, basis]
    rfl

theorem realizes_filter (reading : Reading ν) (basis : reading.basis = core.toBasis)
    (filter : BuiltinFilter) (name : String) (argument : Option String) :
    Realizes core (fun context => .test (reading.FilterHolds filter argument context))
      (filter.step name argument) := by
  unfold Reading.FilterHolds
  rw [basis]
  cases filter with
  | contains =>
    refine realizes_need name argument fun text given => ?_
    subst given
    exact realizes_text id text
  | containsFolded =>
    refine realizes_need name argument fun text given => ?_
    subst given
    exact realizes_text Text.lower text
  | counting how =>
    refine realizes_need name argument fun text given => ?_
    subst given
    exact realizes_counting how name text
  | root => exact realizes_root
  | scope => exact realizes_scope reading basis
  | state which =>
    refine realizes_ite (fun options => options.tree.supports which) (fun _ => rfl)
      (fun supported => ?_) fun unsupported => ?_
    · exact realizes_guard (fun options node => options.tree.isIn node which) (fun _ => rfl)
        fun node => ⟨fun isIn => ⟨supported, isIn⟩, fun held => held.2⟩
    · exact realizes_alwaysFalse fun node held => Bool.false_ne_true (unsupported.symm.trans held.1)
  | lang =>
    refine realizes_need name argument fun text given => ?_
    subst given
    exact realizes_attribute { name := "lang", action := .equals, value := text }

theorem realizes_pseudoClass (builtin : core.custom = {}) (reading : Reading ν)
    (basis : reading.basis = core.toBasis) {expand : SelectorList → Step ν σ}
    (name : String) (argument : Option String)
    (each : ∀ selectors, Selector.abbreviations.lookup name = some selectors →
      Realizes core (fun context => .test (reading.expand selectors context)) (expand selectors)) :
    Realizes core (fun context => reading.part context (.pseudoClass name argument))
      (pseudoClassStep expand name argument) := by
  intro options same scope next session result after given
  have custom : options.custom = {} := (congrArg Options.custom same).trans builtin
  rw [pseudoClassStep_builtin expand name argument (CustomClasses.lacks_of_empty custom name)] at given
  change ∀ subject, _ → ∀ node, _ ↔ (Part.test (reading.ClassHolds name argument _)).onto _ node
  unfold Reading.ClassHolds
  cases found : Selector.abbreviations.lookup name with
  | some selectors =>
    rw [found] at given
    exact realizes_verify name false argument (each selectors found)
      options same scope next session result after given
  | none =>
    rw [found] at given
    cases known : BuiltinFilter.ofName? name with
    | some filter =>
      rw [known] at given
      exact realizes_filter reading basis filter name argument
        options same scope next session result after given
    | none =>
      rw [known] at given
      cases placed : StructuralClass.ofName? name with
      | some structural =>
        rw [placed] at given
        have meant (node : ν) : structural.holds core.toBasis node = true ↔
            ∃ kind, some structural = some kind ∧ kind.holds reading.basis node = true := by
          rw [basis]
          simp
        exact realizes_verify name false argument
          (realizes_guard (fun options => structural.holds options.toBasis)
            (fun _ => by cases structural <;> rfl) meant)
          options same scope next session result after given
      | none =>
        rw [placed] at given
        dsimp only at given
        split at given
        · exact absurd given gives_throw
        · exact absurd given gives_throw

theorem realizes_atScope (builtin : core.custom = {}) (reading : Reading ν)
    (basis : reading.basis = core.toBasis) (expand : SelectorList → Step ν σ) :
    Realizes core (fun context => reading.part context Selector.scope) (scopeStep expand) :=
  realizes_pseudoClass builtin reading basis "scope" none fun _ stands => by cases stands

end Step

/-- Some group of the list, as it is written, holds at the node when its tokens mean these parts. -/
def Part.SomeHold (part : Option (MatchContext ν) → Token → Part ν) (context : Option (MatchContext ν))
    (anchored : Bool) (groups : SelectorList) (node : ν) : Prop :=
  ∃ group ∈ groups, chain
    ((Selector.written (context.any MatchContext.isCollection) anchored group).map (part context)).reverse
      node

/-- Parts for tokens such that groups can be put together from them: those of `:scope` and of combinators are
what their steps do, and only combinators move. -/
structure Part.Assigned (core : Options ν σ) (atScope : Step ν σ)
    (part : Option (MatchContext ν) → Token → Part ν) : Prop where
  scope : Step.Realizes core (fun context => part context Selector.scope) atScope
  combinator : ∀ context kind, part context (.combinator kind) =
    .move fun node next => next ∈ kind.reach core.toBasis node
  simple : ∀ context (token : Token), 0 ≤ token.rank → ∃ holds, part context token = .test holds

theorem Reading.assigned {core : Options ν σ} {reading : Reading ν} {atScope : Step ν σ}
    (scopeRealized : Step.Realizes core (fun context => reading.part context Selector.scope) atScope)
    (combinators : reading.leads = fun kind node next => next ∈ kind.reach core.toBasis node) :
    Part.Assigned core atScope reading.part where
  scope := scopeRealized
  combinator _ kind := congrArg (fun leads : Combinator → ν → ν → Prop => Part.move (leads kind)) combinators
  simple context _ movable := reading.part_test_of_rank context movable

theorem Reading.someHolds_eq (reading : Reading ν) (context : Option (MatchContext ν)) (anchored : Bool)
    (groups : SelectorList) :
    reading.someHolds context anchored groups = Part.SomeHold reading.part context anchored groups :=
  funext fun node => propext (reading.someHolds_iff context anchored groups node)

namespace Prepared

open CompileM

variable {core options : Options ν σ} {reading : Reading ν} {scope : Option (Scope ν)}
  {part : Option (MatchContext ν) → Token → Part ν} {subject : Option ν} {session after : Session σ}

/-- Every item puts the part of its token in front. -/
def Means (core : Options ν σ) (part : Option (MatchContext ν) → Token → Part ν)
    (group : List (Prepared ν σ)) : Prop :=
  ∀ item ∈ group, Step.Realizes core (fun context => part context item.token) item.step

def Realized (core : Options ν σ) (reading : Reading ν) (group : List (Prepared ν σ)) : Prop :=
  Means core reading.part group

theorem passes_fold (same : options.core = core) (resolved : Scope.IsResolved scope subject)
    {group : List (Prepared ν σ)} (means : Means core part group)
    {start result : Predicate ν σ} (given : Gives (fold options scope group start) session result after) :
    (fun node => result.passes subject node = true) =
      Part.after (fun node => start.passes subject node = true)
        ((tokens group).map (part (scope.bind (Scope.seenFrom subject)))) := by
  induction group generalizing start session with
  | nil =>
    obtain ⟨rfl, _⟩ := gives_pure.mp given
    rfl
  | cons first rest ih =>
    obtain ⟨head, tail⟩ := List.forall_mem_cons.mp means
    rw [fold] at given
    split at given
    · next never =>
      obtain ⟨rfl, _⟩ := gives_pure.mp given
      cases result with
      | alwaysFalse =>
        have nowhere : (fun node => Predicate.passes (.alwaysFalse : Predicate ν σ) subject node = true) =
            fun _ => False := funext fun _ => eq_false Bool.false_ne_true
        rw [nowhere, Part.after_false]
      | _ => cases never
    · obtain ⟨between, middle, stepped, folded⟩ := gives_bind.mp given
      rw [ih tail folded]
      change _ = Part.after (Part.onto _ (part _ first.token)) _
      refine congrArg (Part.after · _) (funext fun node => propext ?_)
      exact head options same scope start session between middle stepped subject resolved node

theorem passes_foldGroups (same : options.core = core) (root : options.root = .alwaysTrue)
    (resolved : Scope.IsResolved scope subject) {groups : List (List (Prepared ν σ))}
    (means : ∀ group ∈ groups, Means core part group) {united result : Predicate ν σ}
    (given : Gives (foldGroups options scope groups united) session result after) (node : ν) :
    result.passes subject node = true ↔ united.passes subject node = true ∨
      ∃ group ∈ groups,
        Part.chain ((tokens group).map (part (scope.bind (Scope.seenFrom subject)))).reverse node := by
  induction groups generalizing united session with
  | nil =>
    obtain ⟨rfl, _⟩ := gives_pure.mp given
    simp
  | cons group rest ih =>
    obtain ⟨head, tail⟩ := List.forall_mem_cons.mp means
    rw [foldGroups, root] at given
    obtain ⟨predicate, between, folded, further⟩ := gives_bind.mp given
    obtain ⟨union, middle, joined, further⟩ := gives_bind.mp further
    have folded := congrFun (passes_fold same resolved head folded) node
    have always : (fun node => Predicate.passes (.alwaysTrue : Predicate ν σ) subject node = true) =
        fun _ => True := funext fun _ => eq_self true
    rw [always, Part.after_true] at folded
    rw [ih tail further, ← joined.lifted, Predicate.passes_union, Bool.or_eq_true, folded, or_assoc]
    simp only [List.mem_cons, or_and_right, exists_or, exists_eq_left]

theorem tokens_widen (group : List (Prepared ν σ)) :
    tokens (widen group) = Selector.widened (tokens group) := by
  rcases group with _ | ⟨first, _ | ⟨second, rest⟩⟩
  · rfl
  · rfl
  · change tokens (if Selector.startsBelowScope (tokens (first :: second :: rest)) then _ else _) =
      if Selector.startsBelowScope (tokens (first :: second :: rest)) then _ else _
    split <;> rfl

theorem tokens_complete (atScope : Step ν σ) (anchored collection : Bool)
    (group : List (Prepared ν σ)) :
    tokens (complete atScope true anchored collection group) =
      Selector.written collection anchored (arrange Token.rank (tokens group)) := by
  unfold complete Selector.written
  dsimp only
  rw [if_pos rfl]
  cases collection with
  | false =>
    rw [if_neg Bool.false_ne_true, if_neg Bool.false_ne_true, tokens_anchor, tokens_arrange]
  | true => rw [if_pos rfl, if_pos rfl, tokens_widen, tokens_anchor, tokens_arrange]

theorem passes_compile_of_means (options : Options ν σ) (subject : Option ν) (same : options.core = core)
    (root : options.root = .alwaysTrue) (relative : options.flags.relativeSelector = true)
    {atScope : Step ν σ} (assigned : Part.Assigned core atScope part)
    {groups : List (List (Prepared ν σ))} (means : ∀ group ∈ groups, Means core part group)
    {given : Option (Scope ν)} {query : Query ν σ}
    (compiled : Gives (compile atScope groups options given) session query after)
    (resolved : Scope.IsResolved (scopeOf options given) subject) (node : ν) :
    query.predicate.passes subject node = true ↔
      Part.SomeHold part ((scopeOf options given).bind (Scope.seenFrom subject))
        (anchors options given) (groups.map tokens) node := by
  rw [compile_eq] at compiled
  split at compiled
  · exact absurd compiled gives_throw
  · obtain ⟨predicate, between, folded, rest⟩ := gives_bind.mp compiled
    obtain ⟨rfl, _⟩ := gives_pure.mp rest
    have collection : ((scopeOf options given).bind (Scope.seenFrom subject)).any
        MatchContext.isCollection = (scopeOf options given).any Scope.isCollection := by
      match scopeOf options given with
      | none => rfl
      | some .subject => cases subject <;> rfl
      | some (.fixed (.node _)) => rfl
      | some (.fixed (.nodes _)) => rfl
    have walks (kind : Combinator) :
        Step.Realizes core (fun context => part context (.combinator kind)) (combinatorStep kind) := by
      simp only [assigned.combinator]
      exact Step.realizes_combinator kind
    have completedMeans : ∀ group ∈ completed atScope groups options given, Means core part group :=
      forall_completed options given means assigned.scope walks
    rw [passes_foldGroups same root resolved completedMeans folded, Part.SomeHold, collection, completed,
      relative]
    have nowhere : ¬ (Predicate.passes (.alwaysFalse : Predicate ν σ) subject node = true) :=
      Bool.false_ne_true
    rw [or_iff_right nowhere]
    simp only [List.mem_map, exists_exists_and_eq_and, tokens_complete,
      Selector.chain_written_arrange (assigned.simple _)]

theorem passes_compile (options : Options ν σ) (subject : Option ν) (same : options.core = core)
    (root : options.root = .alwaysTrue) (relative : options.flags.relativeSelector = true)
    {atScope : Step ν σ}
    (scopeRealized : Step.Realizes core (fun context => reading.part context Selector.scope) atScope)
    (combinators : reading.leads = fun kind node next => next ∈ kind.reach core.toBasis node)
    {groups : List (List (Prepared ν σ))} (realized : ∀ group ∈ groups, Realized core reading group)
    {given : Option (Scope ν)} {query : Query ν σ}
    (compiled : Gives (compile atScope groups options given) session query after)
    (resolved : Scope.IsResolved (scopeOf options given) subject) (node : ν) :
    query.predicate.passes subject node = true ↔
      reading.someHolds ((scopeOf options given).bind (Scope.seenFrom subject))
        (anchors options given) (groups.map tokens) node := by
  rw [Reading.someHolds_eq]
  exact passes_compile_of_means options subject same root relative
    (Reading.assigned scopeRealized combinators) realized compiled resolved node

end Prepared
namespace Options

theorem reading_basis (core : Options ν σ) (depth : Nat) :
    (core.reading depth).basis = core.toBasis := by
  cases depth <;> rfl

theorem reading_leads (core : Options ν σ) (depth : Nat) :
    (core.reading depth).leads = fun kind node next => next ∈ kind.reach core.toBasis node := by
  cases depth <;> rfl

theorem reading_relative (core : Options ν σ) (depth : Nat) :
    (core.reading depth).relative = Selector.isRelative := by
  cases depth <;> rfl

theorem reading_searched (core : Options ν σ) (depth : Nat) (groups : SelectorList)
    (node found : ν) :
    (core.reading depth).searched groups node found ↔ ∃ siblings,
      found ∈ Subselect.searchArea core.toBasis siblings node ∧
        (siblings = true ↔ Selector.reachesSiblings groups = true ∧ ¬ core.isKnown depth groups) := by
  cases depth <;> exact Iff.rfl

end Options

theorem tokens_prepareGroups (expand : SelectorList → Step ν σ) (groups : SelectorList) :
    (prepareGroups expand groups).map Prepared.tokens = groups := by
  have group (tokens : Group) : Prepared.tokens (prepareGroup expand tokens) = tokens := by
    simp [prepareGroup_eq_map, Prepared.tokens, Function.comp_def]
  rw [prepareGroups_eq_map, List.map_map]
  exact (List.map_congr_left fun tokens _ => group tokens).trans (List.map_id groups)

theorem Subselect.isRelative_eq (groups : List (List (Prepared ν σ))) :
    isRelative groups = Selector.isRelative (groups.map Prepared.tokens) := by
  have tokens (group : List (Prepared ν σ)) : (group.any fun item => item.token.isCombinator) =
      (Prepared.tokens group).any Token.isCombinator := by
    rw [Prepared.tokens, List.any_map]
    rfl
  rw [isRelative, Selector.isRelative, List.any_map]
  exact congrArg _ (funext tokens)

theorem Subselect.isRelative_prepareGroups (expand : SelectorList → Step ν σ)
    (groups : SelectorList) :
    isRelative (prepareGroups expand groups) = Selector.isRelative groups := by
  rw [isRelative_eq, tokens_prepareGroups]

theorem Prepared.amongSiblings_eq (atScope : Step ν σ) (groups : List (List (Prepared ν σ)))
    {options : Options ν σ} {given : Option (Scope ν)}
    (relative : options.flags.relativeSelector = true) :
    amongSiblings atScope groups options given =
      (groups.map tokens).any fun group => Selector.startsAmongSiblings
        ((Selector.front (anchors options given) group).tokens ++ group) := by
  have starts (group : List (Prepared ν σ)) :
      Selector.startsAmongSiblings (tokens (complete atScope options.flags.relativeSelector
          (anchors options given) false group)) =
        Selector.startsAmongSiblings
          ((Selector.front (anchors options given) (tokens group)).tokens ++ tokens group) := by
    rw [relative, tokens_complete, Selector.written]
    rw [if_neg Bool.false_ne_true, Selector.front_arrange, Selector.startsAmongSiblings_eq,
      Selector.opening_front_arrange, Selector.startsAmongSiblings_eq]
  rw [amongSiblings, List.any_map]
  exact congrArg _ (funext starts)

theorem Prepared.amongSiblings_prepareGroups (atScope : Step ν σ) (expand : SelectorList → Step ν σ)
    (groups : SelectorList) {options : Options ν σ} {given : Option (Scope ν)}
    (relative : options.flags.relativeSelector = true) :
    amongSiblings atScope (prepareGroups expand groups) options given =
      groups.any fun group => Selector.startsAmongSiblings
        ((Selector.front (anchors options given) group).tokens ++ group) := by
  rw [amongSiblings_eq atScope _ relative, tokens_prepareGroups]

namespace Step

open CompileM

variable {core : Options ν σ} {reading : Reading ν} {atScope : Step ν σ}
  {part : Option (MatchContext ν) → Token → Part ν} {groups : List (List (Prepared ν σ))}

section Means

variable (assigned : Part.Assigned core atScope part)
  (means : ∀ group ∈ groups, Prepared.Means core part group)
include assigned means

private theorem someHold_of_compile {options : Options ν σ} {scope : Option (Scope ν)}
    {session after : Session σ} {query : Query ν σ} (same : options.core = core)
    (compiled : Gives (Prepared.compile atScope groups options.embedded.unanchored scope)
      session query after)
    {subject : Option ν} (resolved : Scope.IsResolved scope subject) (node : ν) :
    query.predicate.passes subject node = true ↔
      Part.SomeHold part (scope.bind (Scope.seenFrom subject)) false (groups.map Prepared.tokens) node :=
  Prepared.passes_compile_of_means options.embedded.unanchored subject same rfl rfl assigned means compiled
    resolved node

theorem realizes_anyOf_of_means :
    Realizes core (fun context => .test (Part.SomeHold part context false (groups.map Prepared.tokens)))
      (Subselect.anyOfStep atScope groups) := by
  intro options same scope next session result after given subject resolved node
  obtain ⟨query, between, compiled, joined⟩ := gives_bind.mp given
  have some := someHold_of_compile assigned means same compiled resolved node
  rw [← joined.lifted, Predicate.passes_and, Bool.and_eq_true, some]
  rfl

theorem realizes_noneOf_of_means :
    Realizes core
      (fun context => .test fun node =>
        ¬ Part.SomeHold part context false (groups.map Prepared.tokens) node)
      (Subselect.noneOfStep atScope groups) := by
  intro options same scope next session result after given subject resolved node
  obtain ⟨query, between, compiled, rest⟩ := gives_bind.mp given
  obtain ⟨negated, middle, negating, joined⟩ := gives_bind.mp rest
  have some := someHold_of_compile assigned means same compiled resolved node
  rw [← joined.lifted, Predicate.passes_and, Bool.and_eq_true, ← negating.lifted,
    Predicate.passes_negate, Bool.not_eq_true', ← Bool.not_eq_true, some]
  rfl

end Means

section Realized

variable (scopeRealized : Realizes core (fun context => reading.part context Selector.scope) atScope)
  (combinators : reading.leads = fun kind node next => next ∈ kind.reach core.toBasis node)
  (realized : ∀ group ∈ groups, Prepared.Realized core reading group)
include scopeRealized combinators realized

theorem realizes_anyOf :
    Realizes core
      (fun context => .test (reading.someHolds context false (groups.map Prepared.tokens)))
      (Subselect.anyOfStep atScope groups) := by
  simp only [Reading.someHolds_eq]
  exact realizes_anyOf_of_means (Reading.assigned scopeRealized combinators) realized

theorem realizes_noneOf :
    Realizes core
      (fun context => .test fun node =>
        ¬ reading.someHolds context false (groups.map Prepared.tokens) node)
      (Subselect.noneOfStep atScope groups) := by
  simp only [Reading.someHolds_eq]
  exact realizes_noneOf_of_means (Reading.assigned scopeRealized combinators) realized

end Realized

private theorem passes_hasSearch (options : Options ν σ) (query : Query ν σ) (next : Predicate ν σ)
    (session : Session σ) (subject : Option ν) (node : ν) :
    ((Subselect.hasSearch groups options query next).run session).1.passes subject node =
      (next.passes subject node &&
        (Subselect.searchArea options.toBasis (Subselect.isRelative groups &&
            query.reachesSiblings && !query.predicate.isAlwaysTrue) node).any
          (query.predicate.passes (if Subselect.isRelative groups then some node else subject))) := by
  obtain ⟨predicate, reaches⟩ := query
  unfold Subselect.hasSearch
  cases predicate with
  | alwaysFalse =>
    have nowhere (asked : Option ν) (nodes : List ν) :
        nodes.any ((Predicate.alwaysFalse : Predicate ν σ).passes asked) = false :=
      List.any_eq_false.mpr fun _ _ => Bool.false_ne_true
    rw [nowhere, Bool.and_false]
    rfl
  | alwaysTrue =>
    have below : (Subselect.isRelative groups && reaches &&
        !(Predicate.alwaysTrue : Predicate ν σ).isAlwaysTrue) = false := Bool.and_false _
    rw [below]
    exact Predicate.passes_andThen session subject node next _
  | dynamic identity plan =>
    have everywhere : (Subselect.isRelative groups && reaches &&
        !(Predicate.dynamic identity plan).isAlwaysTrue) = (Subselect.isRelative groups && reaches) :=
      Bool.and_true _
    rw [everywhere]
    cases Subselect.isRelative groups with
    | false => exact Predicate.passes_andThen session subject node next _
    | true => exact Predicate.passes_andThen session subject node next _

/-- Whether the argument of `:has()` is known beforehand does not depend on what else is compiled. -/
private theorem isKnown_iff (builtin : core.custom = {}) {depth : Nat} {groups : SelectorList}
    {options : Options ν σ} (same : options.core = core) {session after : Session σ}
    {query : Query ν σ}
    (compiled : Gives (Subselect.hasQuery (prepareGroups (expansion depth) groups)
      (scopeStep (expansion depth)) options) session query after) :
    core.isKnown depth groups ↔ query.predicate = .alwaysTrue := by
  have suits : options.Suits .answers core := Options.suits_answers same
  have suitsCore : core.Suits .answers core := Options.suits_answers (by rw [← same]; rfl)
  have knows : Kinship.answers.Knows core.custom := Kinship.knows_of_empty builtin
  have uniform := uniform_prepareGroups knows depth groups
  have uniformScope := uniform_atScope knows depth
  have agree := agree_hasQuery suitsCore suits uniformScope uniform
  constructor
  · intro known
    obtain ⟨other, partner, ended, given, always⟩ := known
    obtain ⟨counterpart, _, again, alike, _⟩ := agree.gives given session
    obtain rfl := again.unique compiled
    rw [always] at alike
    generalize counterpart.predicate = predicate at alike
    cases alike
    rfl
  · intro always
    have agree' := agree_hasQuery suits suitsCore uniformScope uniform
    obtain ⟨counterpart, ended, given, alike, _⟩ := agree'.gives compiled session
    refine ⟨session, counterpart, ended, given, ?_⟩
    rw [always] at alike
    generalize counterpart.predicate = predicate at alike ⊢
    cases alike
    rfl

/-- `:has()` searches for what its argument says. The search stays below the node also where the argument turned
out to match everything. -/
theorem realizes_has_of_means (assigned : Part.Assigned core atScope part)
    (means : ∀ group ∈ groups, Prepared.Means core part group) {known : Prop}
    (knows : ∀ (options : Options ν σ) session query after, options.core = core →
      Gives (Subselect.hasQuery groups atScope options) session query after →
        (known ↔ query.predicate = .alwaysTrue)) :
    let selectors := groups.map Prepared.tokens
    Realizes core
      (fun _ => .test fun node => ∃ found,
        (∃ siblings, found ∈ Subselect.searchArea core.toBasis siblings node ∧
          (siblings = true ↔ Selector.reachesSiblings selectors = true ∧ ¬ known)) ∧
        Part.SomeHold part (if Selector.isRelative selectors then some (.node node) else none)
          (Selector.isRelative selectors) selectors found)
      (Subselect.hasStep atScope groups) := by
  intro selectors options same scope next session result after given subject resolved node
  rw [Subselect.hasStep_eq] at given
  obtain ⟨query, between, compiled, searched⟩ := gives_bind.mp given
  have area : Subselect.searchArea options.toBasis = Subselect.searchArea core.toBasis :=
    congrArg (fun options => Subselect.searchArea options.toBasis) same
  have notAlways : (!query.predicate.isAlwaysTrue) = true ↔ ¬ known := by
    rw [knows options session query between same compiled]
    cases query.predicate <;> simp [Predicate.isAlwaysTrue]
  rw [← searched.lifted, passes_hasSearch, Subselect.isRelative_eq, area, Bool.and_eq_true,
    List.any_eq_true, and_comm]
  refine and_congr_left' ?_
  unfold Subselect.hasQuery at compiled
  rw [Subselect.isRelative_eq] at compiled
  change (∃ found ∈ _, _) ↔ ∃ found, _
  cases isRelative : Selector.isRelative (groups.map Prepared.tokens) with
  | true =>
    rw [isRelative, if_pos rfl] at compiled
    have reaches : query.reachesSiblings = Selector.reachesSiblings (groups.map Prepared.tokens) := by
      rw [Prepared.reachesSiblings_of_compile compiled, Prepared.amongSiblings_eq _ _ rfl,
        Selector.reachesSiblings, isRelative]
      rfl
    have meant := Prepared.passes_compile_of_means options.embedded.unremembering (some node) same rfl rfl
      assigned means compiled fun _ => rfl
    have chosen (siblings : Bool) :
        (siblings = true ↔ Selector.reachesSiblings (groups.map Prepared.tokens) = true ∧ ¬ known) ↔
          siblings = (true && query.reachesSiblings && !query.predicate.isAlwaysTrue) := by
      rw [← notAlways, ← reaches, ← Bool.and_eq_true, Bool.true_and]
      exact Bool.eq_iff_iff.symm
    simp only [selectors, chosen, exists_eq_right, if_true]
    exact exists_congr fun found => and_congr_right' (meant found)
  | false =>
    rw [isRelative, if_neg Bool.false_ne_true] at compiled
    have meant := Prepared.passes_compile_of_means options.embedded subject same rfl rfl assigned means
      compiled (Scope.isResolved_none subject)
    have stays : Selector.reachesSiblings (groups.map Prepared.tokens) = false := by
      rw [Selector.reachesSiblings, isRelative, Bool.false_and]
    have chosen (siblings : Bool) :
        (siblings = true ↔ Selector.reachesSiblings (groups.map Prepared.tokens) = true ∧ ¬ known) ↔
          siblings = (false && query.reachesSiblings && !query.predicate.isAlwaysTrue) := by
      simp [stays]
    simp only [selectors, chosen, exists_eq_right, if_false, Bool.false_eq_true]
    exact exists_congr fun found => and_congr_right' (meant found)

theorem realizes_has (builtin : core.custom = {}) (depth : Nat) (groups : SelectorList)
    (scopeRealized : Realizes core (fun context => (core.reading depth).part context Selector.scope)
      (scopeStep (expansion depth)))
    (realized : ∀ group ∈ prepareGroups (expansion depth) groups,
      Prepared.Realized core (core.reading depth) group) :
    Realizes core
      (fun _ => .test fun node => ∃ found, (core.reading depth).searched groups node found ∧
        (core.reading depth).someHolds
          (if (core.reading depth).relative groups then some (.node node) else none)
          ((core.reading depth).relative groups) groups found)
      (Subselect.hasStep (scopeStep (expansion depth)) (prepareGroups (expansion depth) groups)) := by
  have assigned := Reading.assigned scopeRealized (core.reading_leads depth)
  have has := realizes_has_of_means assigned realized
    fun options session query after same compiled => isKnown_iff builtin same compiled
  rw [tokens_prepareGroups] at has
  simp only [core.reading_relative, core.reading_searched, Reading.someHolds_eq]
  exact has

/-- A token does what it means, as long as `:has()` and the abbreviations in it do. -/
theorem realizes_token_of (builtin : core.custom = {}) (basis : reading.basis = core.toBasis)
    (combinators : reading.leads = fun kind node next => next ∈ kind.reach core.toBasis node)
    {expand : SelectorList → Step ν σ} (isExpanded : String → Bool)
    (each : ∀ name selectors, Selector.abbreviations.lookup name = some selectors → isExpanded name = true →
      Realizes core (fun context => .test (reading.expand selectors context)) (expand selectors))
    (has : ∀ groups : SelectorList, groups.uses (fun name => !isExpanded name) = false →
      (∀ group ∈ prepareGroups expand groups, Prepared.Realized core reading group) →
        Realizes core (fun context => reading.part context (.subselect "has" groups))
          (Subselect.hasStep (scopeStep expand) (prepareGroups expand groups)))
    {token : Token} (expands : token.uses (fun name => !isExpanded name) = false) :
    Realizes core (fun context => reading.part context token) (tokenStep expand token) := by
  induction token using Token.induct with
  | tag name space => exact realizes_tag name space reading basis
  | universal space => exact realizes_skip fun _ => trivial
  | attr selector =>
    simp only [Reading.part, Reading.plainPart, basis]
    exact realizes_attribute selector
  | pseudoClass name argument =>
    have expanded : isExpanded name = true := by simpa [Token.uses] using expands
    exact realizes_pseudoClass builtin reading basis name argument fun selectors stands =>
      each name selectors stands expanded
  | subselect name groups ih =>
    have inside := (Token.uses_subselect_eq_false expands).2
    have scopeRealized := realizes_atScope builtin reading basis expand
    have realized : ∀ group ∈ prepareGroups expand groups, Prepared.Realized core reading group :=
      forall_prepareGroups fun group listed token member =>
        ih group listed token member (SelectorList.uses_of_mem inside listed member)
    have tokens := tokens_prepareGroups expand groups
    have searches := has groups inside realized
    simp only [Reading.part, tokenStep, subselectStep] at searches ⊢
    cases Subselect.ofName? name with
    | none => exact realizes_throw _ _
    | some kind =>
      cases kind with
      | anyOf =>
        have any := realizes_anyOf scopeRealized combinators realized
        rw [tokens] at any
        exact any
      | noneOf =>
        have none := realizes_noneOf scopeRealized combinators realized
        rw [tokens] at none
        exact none
      | has => exact searches
  | pseudoElement name argument => exact realizes_throw _ _
  | combinator kind =>
    simp only [Reading.part, Reading.plainPart, combinators]
    exact realizes_combinator kind

theorem realizes_token (builtin : core.custom = {}) (depth : Nat)
    (each : ∀ selectors, Realizes core
      (fun context => .test ((core.reading depth).expand selectors context))
      (expansion depth selectors)) (token : Token) :
    Realizes core (fun context => (core.reading depth).part context token)
      (tokenStep (expansion depth) token) :=
  realizes_token_of builtin (core.reading_basis depth) (core.reading_leads depth) (fun _ => true)
    (fun _ selectors _ _ => each selectors)
    (fun groups _ realized => realizes_has builtin depth groups
      (realizes_atScope builtin (core.reading depth) (core.reading_basis depth) (expansion depth)) realized)
    token.uses_nothing

theorem realizes_expansion (builtin : core.custom = {}) (depth : Nat) (selectors : SelectorList) :
    Realizes core (fun context => .test ((core.reading depth).expand selectors context))
      (expansion depth selectors) := by
  induction depth generalizing selectors with
  | zero => exact realizes_throw _ _
  | succ depth ih =>
    have realized : ∀ group ∈ prepareGroups (expansion depth) selectors,
        Prepared.Realized core (core.reading depth) group :=
      forall_prepareGroups fun _ _ token _ => realizes_token builtin depth ih token
    have any := realizes_anyOf
      (realizes_atScope builtin (core.reading depth) (core.reading_basis depth) (expansion depth))
      (core.reading_leads depth) realized
    rw [tokens_prepareGroups] at any
    exact any

end Step

namespace SelectorList

open CompileM

variable {options : Options ν σ} {selectors : SelectorList} {given : Option (MatchContext ν)}
  {session after : Session σ} {query : Query ν σ}

/-- Aliases of built-in pseudo-classes are expanded to this depth. -/
def depth : Nat := Selector.abbreviations.length

theorem aliasDepth_eq {custom : CustomClasses ν σ} (builtin : custom = {}) : custom.aliasDepth = depth := by
  rw [builtin, CustomClasses.aliasDepth, List.length_nil, Nat.zero_add, depth]

theorem realized_prepareGroups {core : Options ν σ} (builtin : core.custom = {}) (depth : Nat)
    (selectors : SelectorList) : ∀ group ∈ prepareGroups (expansion depth) selectors,
      Prepared.Realized core (core.reading depth) group :=
  forall_prepareGroups fun _ _ token _ =>
    Step.realizes_token builtin depth (Step.realizes_expansion builtin depth) token

theorem scopeOf_seenFrom (options : Options ν σ) (given : Option (MatchContext ν)) (subject : Option ν) :
    (Prepared.scopeOf options (given.map Scope.fixed)).bind (Scope.seenFrom subject) =
      options.context.or given := by
  rw [Prepared.scopeOf_fixed]
  cases options.context.or given <;> rfl

theorem passes_compileUnchecked (builtin : options.custom = {}) (root : options.root = .alwaysTrue)
    (relative : options.flags.relativeSelector = true)
    (compiled : Gives (selectors.compileUnchecked options given) session query after)
    (subject : Option ν) (node : ν) :
    query.predicate.passes subject node = true ↔
      (options.core.reading depth).someHolds (options.context.or given)
        (Prepared.anchors options (given.map Scope.fixed)) selectors node := by
  have coreBuiltin : options.core.custom = {} := builtin
  have basis := options.core.reading_basis depth
  have resolved : Scope.IsResolved (Prepared.scopeOf options (given.map Scope.fixed)) subject :=
    fun isSubject => absurd isSubject (Prepared.scopeOf_ne_subject options given)
  unfold compileUnchecked at compiled
  rw [aliasDepth_eq builtin] at compiled
  have meant := Prepared.passes_compile options subject rfl root relative
    (Step.realizes_atScope coreBuiltin (options.core.reading depth) basis (expansion depth))
    (options.core.reading_leads depth) (realized_prepareGroups coreBuiltin depth selectors) compiled
    resolved node
  rw [scopeOf_seenFrom, tokens_prepareGroups] at meant
  exact meant

/-- What is compiled is what is compiled unchecked, checked. -/
theorem exists_unchecked (compiled : Gives (selectors.compile options given) session query after) :
    ∃ unchecked between, Gives (selectors.compileUnchecked options given) session unchecked between ∧
      query.reachesSiblings = unchecked.reachesSiblings ∧ ∀ subject node,
        query.predicate.passes subject node =
          (options.tree.isElement node && unchecked.predicate.passes subject node) := by
  obtain ⟨unchecked, between, inner, rest⟩ := gives_bind.mp compiled
  obtain ⟨guarded, middle, guarding, made⟩ := gives_bind.mp rest
  obtain ⟨rfl, _⟩ := gives_pure.mp made
  refine ⟨unchecked, between, inner, rfl, fun subject node => ?_⟩
  rw [← guarding.lifted, Predicate.passes_guard]
  rfl

theorem passes_compile (builtin : options.custom = {}) (root : options.root = .alwaysTrue)
    (relative : options.flags.relativeSelector = true)
    (compiled : Gives (selectors.compile options given) session query after)
    (subject : Option ν) (node : ν) :
    query.predicate.passes subject node = true ↔ options.tree.isElement node = true ∧
      (options.core.reading depth).someHolds (options.context.or given)
        (Prepared.anchors options (given.map Scope.fixed)) selectors node := by
  obtain ⟨unchecked, between, inner, _, checked⟩ := exists_unchecked compiled
  rw [checked, Bool.and_eq_true, passes_compileUnchecked builtin root relative inner]

end SelectorList
end SelectorEngine
