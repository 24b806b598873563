import SelectorEngine.Proofs.Compile.Meaning
import SelectorEngine.Proofs.Meaning.Abbreviation
import SelectorEngine.Proofs.Selector.Foresight

/-! Compiling comes out as foreseen: what is refused beforehand fails from every session, and everything else
is compiled, to a predicate that knows beforehand what was found out about the selector. -/
namespace SelectorEngine

variable {ν σ : Type}

namespace CompileM

variable {α β : Type} {refused : Bool} {wanted : α → Prop}

/-- From whatever session it starts, the compilation fails if it is refused, and else gives a value that is as
wanted. -/
def Settles (action : CompileM σ α) (refused : Bool) (wanted : α → Prop) : Prop :=
  ∀ session, if refused then ∃ error, Fails action session error
    else ∃ value after, Gives action session value after ∧ wanted value

theorem settles_pure {value : α} (asWanted : wanted value) :
    Settles (pure value : CompileM σ α) false wanted :=
  fun session => ⟨value, session, gives_pure.mpr ⟨rfl, rfl⟩, asWanted⟩

theorem settles_throw (error : CompileError) (wanted : α → Prop) :
    Settles (throw error : CompileM σ α) true wanted :=
  fun session => ⟨error, fails_throw error session⟩

theorem settles_lift {action : SessionM σ α} (asWanted : ∀ session, wanted (action.run session).1) :
    Settles (liftM action : CompileM σ α) false wanted :=
  fun session => ⟨_, _, gives_lift.mpr rfl, asWanted session⟩

theorem settles_bind {action : CompileM σ α} {next : α → CompileM σ β} {further : Bool} {kept : β → Prop}
    (start : Settles action refused wanted)
    (rest : ∀ value, wanted value → Settles (next value) further kept) :
    Settles (action >>= next) (refused || further) kept := by
  intro session
  have started := start session
  cases refused with
  | true =>
    obtain ⟨error, failed⟩ := started
    exact ⟨error, failed.bind next⟩
  | false =>
    obtain ⟨value, between, given, asWanted⟩ := started
    have ended := rest value asWanted between
    cases further with
    | true =>
      obtain ⟨error, failed⟩ := ended
      exact ⟨error, given.bind_fails failed⟩
    | false =>
      obtain ⟨result, after, gives, asKept⟩ := ended
      exact ⟨result, after, gives_bind.mpr ⟨value, between, given, gives⟩, asKept⟩

/-- What follows cannot fail. -/
theorem settles_bind_safe {action : CompileM σ α} {next : α → CompileM σ β} {kept : β → Prop}
    (start : Settles action refused wanted)
    (rest : ∀ value, wanted value → Settles (next value) false kept) :
    Settles (action >>= next) refused kept :=
  Bool.or_false refused ▸ settles_bind start rest

theorem Settles.weaken {action : CompileM σ α} (settles : Settles action refused wanted) :
    Settles action refused fun _ => True := by
  intro session
  have settled := settles session
  cases refused with
  | true => exact settled
  | false =>
    obtain ⟨value, after, given, _⟩ := settled
    exact ⟨value, after, given, trivial⟩

theorem Settles.of_gives {action : CompileM σ α} (settles : Settles action refused wanted)
    {session after : Session σ} {value : α} (given : Gives action session value after) :
    refused = false ∧ wanted value := by
  have settled := settles session
  cases refused with
  | true =>
    obtain ⟨error, failed⟩ := settled
    exact absurd failed given.not_fails
  | false =>
    obtain ⟨other, ended, again, asWanted⟩ := settled
    exact ⟨rfl, given.unique again ▸ asWanted⟩

theorem Settles.fails_iff {action : CompileM σ α} (settles : Settles action refused wanted)
    (session : Session σ) : (∃ error, Fails action session error) ↔ refused = true := by
  have settled := settles session
  cases refused with
  | true => exact iff_of_true settled rfl
  | false =>
    obtain ⟨value, after, given, _⟩ := settled
    refine iff_of_false (fun failing => ?_) Bool.false_ne_true
    obtain ⟨error, failed⟩ := failing
    exact given.not_fails failed

end CompileM

namespace Predicate

/-- What the predicate knows beforehand. -/
def verdict : Predicate ν σ → Verdict
  | alwaysTrue => .always
  | alwaysFalse => .never
  | dynamic _ _ => .unknown

theorem isAlwaysFalse_eq_false_iff (predicate : Predicate ν σ) :
    predicate.isAlwaysFalse = false ↔ predicate.verdict ≠ .never := by
  cases predicate <;> simp [isAlwaysFalse, verdict]

theorem eq_alwaysTrue_iff (predicate : Predicate ν σ) :
    predicate = .alwaysTrue ↔ predicate.verdict = .always := by
  cases predicate <;> simp [verdict]

theorem eq_alwaysFalse {predicate : Predicate ν σ} (never : predicate.isAlwaysFalse = true) :
    predicate = .alwaysFalse := by
  cases predicate with
  | alwaysFalse => rfl
  | _ => cases never

variable (first second : Predicate ν σ) (session : Session σ)

theorem verdict_guard (check : Plan ν σ) :
    ((first.guard check).run session).1.verdict = Verdict.unknown.and first.verdict := by
  cases first <;> rfl

theorem verdict_andThen (check : Plan ν σ) :
    ((first.andThen check).run session).1.verdict = Verdict.unknown.and first.verdict := by
  cases first <;> rfl

theorem verdict_and :
    ((first.and second).run session).1.verdict = first.verdict.and second.verdict := by
  cases first <;> cases second <;> rfl

theorem verdict_negate : (first.negate.run session).1.verdict = first.verdict.not := by
  cases first <;> rfl

theorem verdict_union :
    ((first.union second .alwaysTrue).run session).1.verdict = first.verdict.or second.verdict := by
  cases first <;> cases second <;> rfl

theorem verdict_andInherited (climb : Climb ν) (remembers : Bool) (check : Plan ν σ) :
    ((first.andInherited climb remembers check).run session).1.verdict =
      Verdict.unknown.and first.verdict := by
  obtain ⟨plan, between, _, run⟩ := andInherited_eq_andThen session first climb remembers check
  rw [run, verdict_andThen]

end Predicate

/-- Put in front of what may match, the step fails or adds what was found out about its token. -/
def Step.Foreseen (core : Options ν σ) (finding : Finding) (step : Step ν σ) : Prop :=
  ∀ options : Options ν σ, options.core = core → ∀ scope next, next.isAlwaysFalse = false →
    CompileM.Settles (step options scope next) finding.refused
      fun result => result.verdict = finding.verdict.and next.verdict

namespace Step

open CompileM

variable {core : Options ν σ}

theorem foreseen_guard (check : Options ν σ → Plan ν σ) :
    Foreseen core .test fun options _ next => liftM (next.guard (check options)) :=
  fun _ _ _ next _ => settles_lift fun session => next.verdict_guard session _

theorem foreseen_throw (error : CompileError) {finding : Finding} (refused : finding.refused = true) :
    Foreseen core finding fun _ _ _ => throw error := by
  intro options _ scope next _
  rw [refused]
  exact settles_throw error _

theorem foreseen_never : Foreseen core ⟨.never, false⟩ fun _ _ _ => (pure .alwaysFalse) :=
  fun _ _ _ _ _ => settles_pure rfl

theorem foreseen_skip : Foreseen core ⟨.always, false⟩ fun _ _ next => pure next :=
  fun _ _ _ _ _ => settles_pure rfl

theorem foreseen_ite (condition : Options ν σ → Bool)
    (blind : ∀ options, condition options = condition options.core) {yes no : Step ν σ}
    {first second : Verdict} (held : Foreseen core ⟨first, false⟩ yes)
    (failed : Foreseen core ⟨second, false⟩ no) :
    Foreseen core ⟨if condition core then first else second, false⟩ fun options scope next =>
      if condition options then yes options scope next else no options scope next := by
  intro options same scope next may
  have equal : condition options = condition core := by rw [blind, same]
  dsimp only
  rw [equal]
  cases condition core with
  | true => exact held options same scope next may
  | false => exact failed options same scope next may

theorem foreseen_tag (name : String) : Foreseen core .test (tagStep name) :=
  foreseen_guard fun options => .holds fun node => options.tree.name node ==
    if options.flags.foldsTags then Text.lower name else name

theorem foreseen_attribute (selector : AttributeSelector) :
    Foreseen core ((Token.attribute selector).survey core.toBasis.outlook) (attributeStep selector) := by
  rw [Token.survey]
  exact foreseen_ite (fun options => (AttributeTest.ofSelector selector options.flags).neverPasses)
    (fun _ => rfl) foreseen_never (foreseen_guard fun options =>
      .holds ((AttributeTest.ofSelector selector options.flags).passes options.tree))

theorem foreseen_combinator (kind : Combinator) :
    Foreseen core ((Token.combinator kind).survey core.toBasis.outlook) (combinatorStep kind) := by
  intro options same scope next may
  rw [combinatorStep_eq, Token.survey]
  cases kind with
  | column => exact settles_throw _ _
  | _ =>
    rw [if_neg (by decide), may, if_neg Bool.false_ne_true]
    refine settles_lift fun session => ?_
    obtain ⟨identity, plan, made, _⟩ := combinatorWalk_passes _ options next.toPlan session
    rw [made]
    cases next with
    | alwaysFalse => cases may
    | _ => rfl

theorem foreseen_need (name : String) (argument : Option String) {step : String → Step ν σ}
    {finding : Finding} (missing : argument = none → finding.refused = true)
    (each : ∀ text, argument = some text → Foreseen core finding (step text)) :
    Foreseen core finding fun options scope next =>
      BuiltinFilter.needArgument name argument >>= fun text => step text options scope next := by
  intro options same scope next may
  cases argument with
  | none =>
    rw [missing rfl]
    exact fun session => ⟨_, (fails_throw _ session).bind _⟩
  | some text => exact each text rfl options same scope next may

theorem foreseen_verify (name : String) (argument : Option String) {step : Step ν σ} {verdict : Verdict}
    (foreseen : Foreseen core ⟨verdict, false⟩ step) :
    Foreseen core ⟨verdict, argument.isSome⟩ fun options scope next =>
      verifyArgument name false argument >>= fun _ => step options scope next := by
  intro options same scope next may
  cases argument with
  | none => exact foreseen options same scope next may
  | some text => exact fun session => ⟨_, (fails_throw _ session).bind _⟩

theorem foreseen_counting (how : Counting) (name formula : String) :
    Foreseen core ⟨(BuiltinFilter.counting how).verdict core.toBasis.outlook (some formula),
      (Formula.read? formula).isNone⟩ (how.step name formula) := by
  intro options same scope next may
  unfold Counting.step BuiltinFilter.verdict
  dsimp only
  rw [Option.bind_some]
  cases read : Formula.read? formula with
  | none => exact settles_throw _ _
  | some parsed =>
    rw [Option.map_some]
    cases parsed.positions with
    | none => exact settles_pure rfl
    | all => exact settles_lift fun session => next.verdict_guard session _
    | _ => exact settles_lift fun session => next.verdict_guard session _

theorem foreseen_text (fold : String → String) (argument : String) :
    Foreseen core .test (BuiltinFilter.textStep fold argument) :=
  fun _ _ _ next _ => settles_lift fun session => next.verdict_andInherited session _ _ _

theorem foreseen_root : Foreseen core .test (BuiltinFilter.rootStep : Step ν σ) :=
  foreseen_guard fun options => .holds fun node => (options.tree.elementParent node).isNone

theorem foreseen_scope : Foreseen core .test (BuiltinFilter.scopeStep : Step ν σ) := by
  intro options same scope next may
  match scope with
  | none => exact foreseen_root options same none next may
  | some .subject => exact settles_lift fun session => next.verdict_guard session _
  | some (.fixed context) =>
    unfold BuiltinFilter.scopeStep
    dsimp only
    split
    · exact foreseen_root options same _ next may
    · exact settles_lift fun session => next.verdict_guard session _

theorem foreseen_filter (filter : BuiltinFilter) (name : String) (argument : Option String) :
    Foreseen core ⟨filter.verdict core.toBasis.outlook argument, filter.isFaulty argument⟩
      (filter.step name argument) := by
  have missing (none : argument = none) : argument.isNone = true := by rw [none]; rfl
  cases filter with
  | contains =>
    refine foreseen_need name argument missing fun text given => ?_
    subst given
    exact foreseen_text id text
  | containsFolded =>
    refine foreseen_need name argument missing fun text given => ?_
    subst given
    exact foreseen_text Text.lower text
  | counting how =>
    refine foreseen_need name argument (fun none => by rw [none]; rfl) fun text given => ?_
    subst given
    exact foreseen_counting how name text
  | root => exact foreseen_root
  | scope => exact foreseen_scope
  | state which =>
    exact foreseen_ite (fun options => options.tree.supports which) (fun _ => rfl)
      (foreseen_guard fun options => .holds fun node => options.tree.isIn node which) foreseen_never
  | lang =>
    refine foreseen_need name argument missing fun text given => ?_
    subst given
    exact foreseen_attribute { name := "lang", action := .equals, value := text }

theorem foreseen_pseudoClass (builtin : core.custom = {}) {expand : SelectorList → Step ν σ}
    (name : String) (argument : Option String)
    (each : ∀ selectors, Selector.abbreviations.lookup name = some selectors →
      Foreseen core .test (expand selectors)) :
    Foreseen core ((Token.pseudoClass name argument).survey core.toBasis.outlook)
      (pseudoClassStep expand name argument) := by
  intro options same scope next may
  have custom : options.custom = {} := (congrArg Options.custom same).trans builtin
  rw [pseudoClassStep_builtin expand name argument (CustomClasses.lacks_of_empty custom name), Token.survey]
  unfold classVerdict isFaultyClass
  cases stands : Selector.abbreviations.lookup name with
  | some selectors =>
    exact foreseen_verify name argument (each selectors stands) options same scope next may
  | none =>
    cases BuiltinFilter.ofName? name with
    | some filter => exact foreseen_filter filter name argument options same scope next may
    | none =>
      cases StructuralClass.ofName? name with
      | some structural =>
        exact foreseen_verify name argument
          (foreseen_guard fun options => .holds (structural.holds options.toBasis))
          options same scope next may
      | none =>
        dsimp only
        split
        · exact settles_throw _ _
        · exact settles_throw _ _

theorem foreseen_atScope (builtin : core.custom = {}) (expand : SelectorList → Step ν σ) :
    Foreseen core .test (scopeStep expand) :=
  foreseen_pseudoClass builtin "scope" none fun _ stands => by cases stands

end Step

namespace Prepared

open CompileM

variable {core options : Options ν σ} {atScope : Step ν σ} {told : Token → Finding}

/-- Every item does as it is told of its token. -/
def ForeseenAs (core : Options ν σ) (told : Token → Finding) (group : List (Prepared ν σ)) : Prop :=
  ∀ item ∈ group, Step.Foreseen core (told item.token) item.step

def Foreseen (core : Options ν σ) (group : List (Prepared ν σ)) : Prop :=
  ForeseenAs core (Token.survey core.toBasis.outlook) group

/-- What is found out about a group that is folded as it is. -/
def findingAs (told : Token → Finding) (group : List (Prepared ν σ)) : Finding :=
  .sequence ((tokens group).map told)

def finding (core : Options ν σ) (group : List (Prepared ν σ)) : Finding :=
  findingAs (Token.survey core.toBasis.outlook) group

theorem findingAs_cons (first : Prepared ν σ) (rest : List (Prepared ν σ)) :
    findingAs told (first :: rest) = (told first.token).followedBy (findingAs told rest) :=
  rfl

theorem finding_cons (first : Prepared ν σ) (rest : List (Prepared ν σ)) :
    finding core (first :: rest) =
      (first.token.survey core.toBasis.outlook).followedBy (finding core rest) :=
  rfl

theorem fold_alwaysFalse (scope : Option (Scope ν)) (group : List (Prepared ν σ)) :
    fold options scope group .alwaysFalse = pure .alwaysFalse := by
  cases group <;> rfl

theorem settles_fold (same : options.core = core) (scope : Option (Scope ν))
    {group : List (Prepared ν σ)} (foreseen : ForeseenAs core told group) {start : Predicate ν σ}
    (may : start.isAlwaysFalse = false) :
    Settles (fold options scope group start) (findingAs told group).refused
      fun result => result.verdict = (findingAs told group).verdict.and start.verdict := by
  induction group generalizing start with
  | nil => exact settles_pure rfl
  | cons first rest ih =>
    obtain ⟨head, tail⟩ := List.forall_mem_cons.mp foreseen
    rw [findingAs_cons, fold, if_neg (by rw [may]; exact Bool.false_ne_true)]
    refine settles_bind (head options same scope start may) fun between known => ?_
    have open' := start.isAlwaysFalse_eq_false_iff.mp may
    cases ended : between.isAlwaysFalse with
    | true =>
      -- The rest is left out, as only the first token can be the reason.
      obtain rfl := Predicate.eq_alwaysFalse ended
      have never := ((Verdict.and_eq_never_iff _ _).mp known.symm).resolve_right open'
      rw [fold_alwaysFalse, never]
      exact settles_pure (by rw [Finding.followedBy, never]; rfl)
    | false =>
      have further := between.isAlwaysFalse_eq_false_iff.mp ended
      have goesOn : ((told first.token).verdict != .never) = true := by
        rw [bne_iff_ne]
        intro never
        rw [known, never] at further
        exact further rfl
      rw [goesOn, Bool.true_and]
      have rested := ih tail ended
      rw [known] at rested
      rw [Finding.followedBy, Verdict.and_comm (told first.token).verdict, Verdict.and_assoc]
      exact rested

theorem settles_foldGroups (same : options.core = core) (root : options.root = .alwaysTrue)
    (scope : Option (Scope ν)) {groups : List (List (Prepared ν σ))}
    (foreseen : ∀ group ∈ groups, ForeseenAs core told group) (united : Predicate ν σ) :
    Settles (foldGroups options scope groups united) (Finding.choice (groups.map (findingAs told))).refused
      fun result => result.verdict =
        united.verdict.or (Finding.choice (groups.map (findingAs told))).verdict := by
  induction groups generalizing united with
  | nil => exact settles_pure (Verdict.or_never _).symm
  | cons group rest ih =>
    obtain ⟨head, tail⟩ := List.forall_mem_cons.mp foreseen
    rw [foldGroups, root, List.map_cons, Finding.choice_cons]
    refine settles_bind (settles_fold same scope head rfl) fun predicate known => ?_
    have joined : Settles (liftM (united.union predicate .alwaysTrue) : CompileM σ (Predicate ν σ)) false
        fun union => union.verdict = united.verdict.or (findingAs told group).verdict := by
      refine settles_lift fun session => ?_
      rw [Predicate.verdict_union, known]
      exact congrArg _ (Verdict.and_always _)
    rw [← Bool.false_or (Finding.choice (rest.map (findingAs told))).refused]
    refine settles_bind joined fun union known => ?_
    have rested := ih tail union
    rw [known, Verdict.or_assoc] at rested
    exact rested

/-- Whether the groups can be compiled is no matter of the root, if it may match. -/
theorem accepts_foldGroups (same : options.core = core) (may : options.root.isAlwaysFalse = false)
    (scope : Option (Scope ν)) {groups : List (List (Prepared ν σ))}
    (foreseen : ∀ group ∈ groups, ForeseenAs core told group) (united : Predicate ν σ) :
    Settles (foldGroups options scope groups united) (Finding.choice (groups.map (findingAs told))).refused
      fun _ => True := by
  induction groups generalizing united with
  | nil => exact settles_pure trivial
  | cons group rest ih =>
    obtain ⟨head, tail⟩ := List.forall_mem_cons.mp foreseen
    rw [foldGroups, List.map_cons, Finding.choice_cons]
    refine settles_bind (settles_fold same scope head may).weaken fun predicate _ => ?_
    have joins : Settles (liftM (united.union predicate options.root) : CompileM σ (Predicate ν σ)) false
        fun _ => True := settles_lift fun _ => trivial
    rw [← Bool.false_or (Finding.choice (rest.map (findingAs told))).refused]
    exact settles_bind joins fun union _ => ih tail union

/-- What is told of `:scope` and of combinators is what is found out about them. -/
structure Tells (told : Token → Finding) : Prop where
  scope : told Selector.scope = .test
  combinator : ∀ kind, told (.combinator kind) = ⟨.unknown, kind == .column⟩

theorem tells_survey (outlook : Outlook) : Tells (Token.survey outlook) where
  scope := rfl
  combinator _ := rfl

section Tells

variable (tells : Tells told)
include tells

private theorem sequence_front (front : Selector.Front) (items : List Token) :
    Finding.sequence ((front.tokens ++ items).map told) =
      Finding.sequence (front.tokens.map (fun _ => .test) ++ items.map told) := by
  have descendant : told Selector.descendant = .test := tells.combinator .descendant
  rw [List.map_append]
  cases front <;> simp only [Selector.Front.tokens, List.map_cons, List.map_nil, tells.scope, descendant]

private theorem sequence_widened (group : Group) :
    Finding.sequence ((Selector.widened group).map told) = Finding.sequence (group.map told) := by
  rcases group with _ | ⟨first, _ | ⟨second, rest⟩⟩
  · rfl
  · rfl
  · unfold Selector.widened
    dsimp only
    split
    · next below =>
      cases second with
      | combinator kind =>
        cases kind with
        | descendant =>
          have same : told Selector.descendantOrSelf = told (.combinator .descendant) :=
            (tells.combinator .descendantOrSelf).trans (tells.combinator .descendant).symm
          simp only [List.map_cons, same]
        | _ => cases below
      | _ => cases below
    · rfl

/-- Arranging, anchoring and widening a group do not add faults. -/
theorem findingAs_complete (atScope : Step ν σ) (relative anchored collection : Bool)
    (group : List (Prepared ν σ)) :
    findingAs told (complete atScope relative anchored collection group) =
      .group (if relative then Selector.front anchored (tokens group) else .nothing)
        ((tokens group).map fun token => (token.rank, told token)) := by
  have widens (items : List (Prepared ν σ)) :
      findingAs told (if collection then widen items else items) = findingAs told items := by
    cases collection with
    | false => rfl
    | true => rw [if_pos rfl, findingAs, tokens_widen, sequence_widened tells, findingAs]
  unfold complete
  dsimp only
  rw [widens, Finding.group, Token.arrange_ranked, ← sequence_front tells, findingAs]
  cases relative with
  | false => rw [if_neg Bool.false_ne_true, if_neg Bool.false_ne_true, tokens_arrange]; rfl
  | true =>
    rw [if_pos rfl, if_pos rfl, tokens_anchor, tokens_arrange, Selector.front_arrange]

end Tells

theorem finding_complete (atScope : Step ν σ) (relative anchored collection : Bool)
    (group : List (Prepared ν σ)) :
    finding core (complete atScope relative anchored collection group) =
      .group (if relative then Selector.front anchored (tokens group) else .nothing)
        (Token.surveyGroup core.toBasis.outlook (tokens group)) := by
  rw [Token.surveyGroup_eq_map]
  exact findingAs_complete (tells_survey _) atScope relative anchored collection group

def findingsAs (told : Token → Finding) (relative anchored : Bool) (groups : List (List (Prepared ν σ))) :
    List Finding :=
  groups.map fun group => .group (if relative then Selector.front anchored (tokens group) else .nothing)
    ((tokens group).map fun token => (token.rank, told token))

theorem findingsAs_survey (outlook : Outlook) (anchored : Bool) (groups : List (List (Prepared ν σ))) :
    findingsAs (Token.survey outlook) true anchored groups =
      Token.surveyGroups outlook anchored (groups.map tokens) := by
  rw [findingsAs, Token.surveyGroups_eq_map, List.map_map]
  simp only [Token.surveyGroup_eq_map, if_true, Function.comp_def]

section

variable {groups : List (List (Prepared ν σ))} (tells : Tells told)
  (foreseenScope : Step.Foreseen core .test atScope)
  (foreseen : ∀ group ∈ groups, ForeseenAs core told group)
include tells foreseenScope foreseen

private theorem settles_compile_of_foldGroups (given : Option (Scope ν))
    (wanted : Verdict → Predicate ν σ → Prop)
    (folds : ∀ groups, (∀ group ∈ groups, ForeseenAs core told group) →
      Settles (foldGroups options (scopeOf options given) groups .alwaysFalse)
        (Finding.choice (groups.map (findingAs told))).refused
        (wanted (Finding.choice (groups.map (findingAs told))).verdict)) :
    Settles (compile atScope groups options given)
      (refused groups options ||
        (Finding.choice
          (findingsAs told options.flags.relativeSelector (anchors options given) groups)).refused)
      fun query => wanted (Finding.choice
        (findingsAs told options.flags.relativeSelector (anchors options given) groups)).verdict
          query.predicate := by
  have found : (completed atScope groups options given).map (findingAs told) =
      findingsAs told options.flags.relativeSelector (anchors options given) groups := by
    rw [completed, List.map_map]
    exact List.map_congr_left fun group _ => findingAs_complete tells atScope _ _ _ group
  have atFront : Step.Foreseen core (told Selector.scope) atScope := tells.scope ▸ foreseenScope
  have all : ∀ group ∈ completed atScope groups options given, ForeseenAs core told group :=
    forall_completed options given foreseen atFront
      fun kind => (tells.combinator kind).symm ▸ Step.foreseen_combinator kind
  rw [compile_eq, ← found]
  cases refused groups options with
  | true => exact settles_throw _ _
  | false => exact settles_bind_safe (folds _ all) fun predicate known => settles_pure known

theorem settles_compile (same : options.core = core) (root : options.root = .alwaysTrue)
    (given : Option (Scope ν)) :
    Settles (compile atScope groups options given)
      (refused groups options ||
        (Finding.choice
          (findingsAs told options.flags.relativeSelector (anchors options given) groups)).refused)
      fun query => query.predicate.verdict = (Finding.choice
        (findingsAs told options.flags.relativeSelector (anchors options given) groups)).verdict :=
  settles_compile_of_foldGroups tells foreseenScope foreseen given
    (fun verdict predicate => predicate.verdict = verdict) fun _ all =>
    settles_foldGroups same root _ all .alwaysFalse

theorem accepts_compile (same : options.core = core) (may : options.root.isAlwaysFalse = false)
    (given : Option (Scope ν)) :
    Settles (compile atScope groups options given)
      (refused groups options ||
        (Finding.choice
          (findingsAs told options.flags.relativeSelector (anchors options given) groups)).refused)
      fun _ => True :=
  settles_compile_of_foldGroups tells foreseenScope foreseen given (fun _ _ => True) fun _ all =>
    accepts_foldGroups same may _ all .alwaysFalse

end

end Prepared

namespace Step

open CompileM

variable {core : Options ν σ} {atScope : Step ν σ} {groups : List (List (Prepared ν σ))}
  {told : Token → Finding}

/-- What is found out about the argument of a pseudo-class. -/
def argumentFinding (told : Token → Finding) (anchored : Bool) (groups : List (List (Prepared ν σ))) :
    Finding :=
  .choice (Prepared.findingsAs told true anchored groups)

theorem argumentFinding_survey (outlook : Outlook) (anchored : Bool) (groups : List (List (Prepared ν σ))) :
    argumentFinding (Token.survey outlook) anchored groups =
      .choice (Token.surveyGroups outlook anchored (groups.map Prepared.tokens)) := by
  rw [argumentFinding, Prepared.findingsAs_survey]

variable (tells : Prepared.Tells told) (foreseenScope : Foreseen core .test atScope)
  (foreseen : ∀ group ∈ groups, Prepared.ForeseenAs core told group)
include tells foreseenScope foreseen

private theorem settles_argument (options : Options ν σ) (same : options.core = core)
    (root : options.root = .alwaysTrue) (relative : options.flags.relativeSelector = true)
    (given : Option (Scope ν)) :
    Settles (Prepared.compile atScope groups options given)
      (argumentFinding told (Prepared.anchors options given) groups).refused
      fun query => query.predicate.verdict =
        (argumentFinding told (Prepared.anchors options given) groups).verdict := by
  have settles := Prepared.settles_compile tells foreseenScope foreseen same root given
  rw [relative, Prepared.refused, relative] at settles
  exact settles

theorem foreseen_anyOf :
    Foreseen core (Subselect.anyOf.finding (argumentFinding told false groups))
      (Subselect.anyOfStep atScope groups) := by
  intro options same scope next _
  have inner := settles_argument tells foreseenScope foreseen options.embedded.unanchored same rfl rfl scope
  refine settles_bind_safe inner fun query known => settles_lift fun session => ?_
  rw [Predicate.verdict_and, known]
  rfl

theorem foreseen_noneOf :
    Foreseen core (Subselect.noneOf.finding (argumentFinding told false groups))
      (Subselect.noneOfStep atScope groups) := by
  intro options same scope next _
  have inner := settles_argument tells foreseenScope foreseen options.embedded.unanchored same rfl rfl scope
  refine settles_bind_safe inner fun query known => ?_
  have negates : Settles (liftM query.predicate.negate : CompileM σ (Predicate ν σ)) false
      fun negated => negated.verdict = (argumentFinding told false groups).verdict.not := by
    refine settles_lift fun session => ?_
    rw [Predicate.verdict_negate, known]
    rfl
  refine settles_bind_safe negates fun negated known => settles_lift fun session => ?_
  rw [Predicate.verdict_and, known]
  rfl

/-- The argument of `:has()` is compiled to what knows beforehand what was found out about it. -/
theorem settles_hasQuery {options : Options ν σ} (same : options.core = core) :
    Settles (Subselect.hasQuery groups atScope options)
      (argumentFinding told (Subselect.isRelative groups) groups).refused
      fun query => query.predicate.verdict =
        (argumentFinding told (Subselect.isRelative groups) groups).verdict := by
  unfold Subselect.hasQuery
  cases Subselect.isRelative groups with
  | true =>
    rw [if_pos rfl]
    exact settles_argument tells foreseenScope foreseen options.embedded.unremembering same rfl rfl
      (some .subject)
  | false =>
    rw [if_neg Bool.false_ne_true]
    exact settles_argument tells foreseenScope foreseen options.embedded same rfl rfl none

theorem foreseen_has :
    Foreseen core (Subselect.has.finding (argumentFinding told (Subselect.isRelative groups) groups))
      (Subselect.hasStep atScope groups) := by
  intro options same scope next _
  rw [Subselect.hasStep_eq]
  refine settles_bind_safe (settles_hasQuery tells foreseenScope foreseen same) fun query known =>
    settles_lift fun session => ?_
  rw [Subselect.finding, ← known]
  unfold Subselect.hasSearch
  cases query.predicate with
  | alwaysFalse => rfl
  | alwaysTrue => exact next.verdict_andThen session _
  | dynamic identity plan =>
    dsimp only
    split
    · exact next.verdict_andThen session _
    · exact next.verdict_andThen session _

end Step

namespace Step

open CompileM

variable {core : Options ν σ}

theorem foreseen_token (builtin : core.custom = {}) {expand : SelectorList → Step ν σ}
    (isExpanded : String → Bool)
    (each : ∀ name selectors, Selector.abbreviations.lookup name = some selectors →
      isExpanded name = true → Foreseen core .test (expand selectors))
    {token : Token} (expands : token.uses (fun name => !isExpanded name) = false) :
    Foreseen core (token.survey core.toBasis.outlook) (tokenStep expand token) := by
  induction token using Token.induct with
  | tag name space => exact foreseen_tag name
  | universal space => exact foreseen_skip
  | attr selector => exact foreseen_attribute selector
  | pseudoClass name argument =>
    have expanded : isExpanded name = true := by simpa [Token.uses] using expands
    exact foreseen_pseudoClass builtin name argument fun selectors stands =>
      each name selectors stands expanded
  | subselect name groups ih =>
    have inside := (Token.uses_subselect_eq_false expands).2
    have foreseen : ∀ group ∈ prepareGroups expand groups, Prepared.Foreseen core group :=
      forall_prepareGroups fun group listed token member =>
        ih group listed token member (SelectorList.uses_of_mem inside listed member)
    have atScope := foreseen_atScope builtin expand
    have tells := Prepared.tells_survey core.toBasis.outlook
    have argument (anchored : Bool) :
        argumentFinding (Token.survey core.toBasis.outlook) anchored (prepareGroups expand groups) =
          .choice (Token.surveyGroups core.toBasis.outlook anchored groups) := by
      rw [argumentFinding_survey, tokens_prepareGroups]
    rw [Token.survey, tokenStep, subselectStep]
    cases Subselect.ofName? name with
    | none => exact foreseen_throw _ rfl
    | some kind =>
      cases kind with
      | anyOf =>
        have any := foreseen_anyOf tells atScope foreseen
        rw [argument] at any
        exact any
      | noneOf =>
        have none := foreseen_noneOf tells atScope foreseen
        rw [argument] at none
        exact none
      | has =>
        have has := foreseen_has tells atScope foreseen
        rw [argument, Subselect.isRelative_prepareGroups] at has
        exact has
  | pseudoElement name argument => exact foreseen_throw _ rfl
  | combinator kind => exact foreseen_combinator kind

theorem foreseen_expansion (builtin : core.custom = {}) {depth : Nat} {name : String}
    {selectors : SelectorList} (stands : Selector.abbreviations.lookup name = some selectors)
    (expands : Selector.expandsWithin depth name = true) :
    Foreseen core .test (expansion depth selectors) := by
  induction depth generalizing name selectors with
  | zero =>
    rw [Selector.expandsWithin, stands] at expands
    cases expands
  | succ depth ih =>
    have unfolded := Selector.uses_of_expandsWithin stands expands
    have foreseen : ∀ group ∈ prepareGroups (expansion depth) selectors, Prepared.Foreseen core group :=
      forall_prepareGroups fun group listed token member =>
        foreseen_token builtin _ (fun _ _ => ih) (SelectorList.uses_of_mem unfolded listed member)
    have any := foreseen_anyOf (Prepared.tells_survey core.toBasis.outlook)
      (foreseen_atScope builtin (expansion depth)) foreseen
    rw [argumentFinding_survey, tokens_prepareGroups, Token.choice_surveyGroups_abbreviation core.toBasis
      (name, selectors) (Selector.mem_abbreviations stands)] at any
    exact any

end Step

namespace SelectorList

open CompileM

/-- The list cannot be compiled: a group starts with a combinator while that is not allowed, or a token is
come upon that cannot be compiled. -/
def isRefused (options : Options ν σ) (selectors : SelectorList) : Bool :=
  !options.flags.relativeSelector && selectors.any Selector.startsWithCombinator ||
    (Finding.choice (Token.surveyGroups options.toBasis.outlook false selectors)).refused

private theorem refused_prepareGroups (options : Options ν σ) (expand : SelectorList → Step ν σ)
    (selectors : SelectorList) : Prepared.refused (prepareGroups expand selectors) options =
      (!options.flags.relativeSelector && selectors.any Selector.startsWithCombinator) := by
  have starts (group : List (Prepared ν σ)) : Selector.startsWithCombinator
      (Prepared.tokens (arrange (fun item => item.token.rank) group)) =
        Selector.startsWithCombinator (Prepared.tokens group) := by
    rw [Prepared.tokens_arrange, Selector.startsWithCombinator_arrange]
  have whole := tokens_prepareGroups expand selectors
  unfold Prepared.refused
  conv => rhs; rw [← whole, List.any_map]
  rw [List.any_map]
  exact congrArg _ (congrArg _ (funext starts))

/-- What a group is fronted with can always be compiled. -/
private theorem refused_findings (outlook : Outlook) (relative anchored : Bool)
    (groups : List (List (Prepared ν σ))) :
    (Finding.choice (Prepared.findingsAs (Token.survey outlook) relative anchored groups)).refused =
      (Finding.choice (Token.surveyGroups outlook false (groups.map Prepared.tokens))).refused := by
  rw [← Prepared.findingsAs_survey, Finding.refused_choice, Finding.refused_choice, Prepared.findingsAs,
    Prepared.findingsAs, List.any_map, List.any_map]
  refine congrArg _ (funext fun group => ?_)
  exact (Finding.refused_group _ _).trans (Finding.refused_group _ _).symm

theorem foreseen_prepareGroups {core : Options ν σ} (builtin : core.custom = {})
    (selectors : SelectorList) :
    ∀ group ∈ prepareGroups (expansion depth) selectors, Prepared.Foreseen core group := by
  refine forall_prepareGroups fun _ _ token _ => ?_
  exact Step.foreseen_token builtin (fun _ => true)
    (fun _ _ stands _ => Step.foreseen_expansion builtin stands
      (Selector.expandsWithin_abbreviations stands)) token.uses_nothing

/-- That only elements match refuses nothing. -/
theorem settles_of_unchecked {options : Options ν σ} {selectors : SelectorList}
    {given : Option (MatchContext ν)} {refused : Bool}
    (settles : Settles (selectors.compileUnchecked options given) refused fun _ => True) :
    Settles (selectors.compile options given) refused fun _ => True := by
  refine settles_bind_safe settles fun query _ => ?_
  have guards : Settles (liftM (query.predicate.guard (.holds options.tree.isElement)) :
      CompileM σ (Predicate ν σ)) false fun _ => True := settles_lift fun _ => trivial
  exact settles_bind_safe guards fun _ _ => settles_pure trivial

theorem isRefused_token (options : Options ν σ) {token : Token} (simple : token.isCombinator = false) :
    isRefused options [[token]] = (token.survey options.toBasis.outlook).refused := by
  rw [isRefused, refused_surveyGroups, List.any_cons, List.any_nil, Selector.startsWithCombinator, simple,
    List.any_cons, List.any_nil, Token.refused_singleton, Bool.or_false, Bool.or_false, Bool.and_false,
    Bool.false_or]

theorem isRefused_has (options : Options ν σ) (groups : SelectorList) :
    isRefused options [[.subselect "has" groups]] = (Finding.choice (Token.surveyGroups
      options.toBasis.outlook (Selector.isRelative groups) groups)).refused := by
  have simple : (Token.subselect "has" groups).isCombinator = false := rfl
  rw [isRefused_token options simple]
  exact Subselect.refused_finding .has _

/-- Whether a list can be compiled is no matter of the session, nor of the root, if it may match. -/
theorem accepts_compile {options : Options ν σ} (builtin : options.custom = {})
    (may : options.root.isAlwaysFalse = false) (selectors : SelectorList) (given : Option (MatchContext ν)) :
    Settles (selectors.compile options given) (isRefused options selectors) fun _ => True := by
  have coreBuiltin : options.core.custom = {} := builtin
  have accepts := Prepared.accepts_compile (Prepared.tells_survey _)
    (Step.foreseen_atScope coreBuiltin (expansion depth))
    (foreseen_prepareGroups coreBuiltin selectors) rfl may (given.map Scope.fixed)
  rw [refused_prepareGroups, refused_findings, tokens_prepareGroups] at accepts
  refine settles_of_unchecked ?_
  unfold compileUnchecked
  rw [aliasDepth_eq builtin]
  exact accepts

theorem settles_compile {options : Options ν σ} (builtin : options.custom = {})
    (root : options.root = .alwaysTrue) (selectors : SelectorList) (given : Option (MatchContext ν)) :
    Settles (selectors.compile options given) (isRefused options selectors) fun _ => True :=
  accepts_compile builtin (root ▸ rfl) selectors given

end SelectorList
end SelectorEngine
