import SelectorEngine.Proofs.Compile.Aliased
import SelectorEngine.Proofs.Compile.Remembering
import SelectorEngine.Proofs.Compile.Visited
import SelectorEngine.Proofs.Selector.Surveyed

/-! What the steps of a list with an alias in it do. A step fails as was found out of its token, and means
what the token means spelled out, as long as the relative arguments in it are anchored alike. In the reading
that is used here, `:has()` leaves siblings out of its search where its argument was found out to match
everything. -/
namespace SelectorEngine

variable {ν σ : Type}

open CompileM

namespace Step

variable {core : Options ν σ} (builtin : core.custom = {})
include builtin

private theorem withClasses_empty {step : Step ν σ} {options : Options ν σ} (same : options.core = core) :
    step.withClasses {} options = step options := by
  have custom : options.custom = {} := (congrArg Options.custom same).trans builtin
  rw [Step.withClasses, Options.withClasses_self custom]

theorem Foreseen.withoutClasses {finding : Finding} {step : Step ν σ}
    (foreseen : Foreseen core finding step) : Foreseen core finding (step.withClasses {}) := by
  intro options same
  rw [withClasses_empty builtin same]
  exact foreseen options same

theorem Realizes.withoutClasses {part : Option (MatchContext ν) → Part ν} {step : Step ν σ}
    (realizes : Realizes core part step) : Realizes core part (step.withClasses {}) := by
  intro options same
  rw [withClasses_empty builtin same]
  exact realizes options same

omit builtin in
theorem Governs.withoutClasses {tree : TreeView ν} {remembering : Prop} {step : Step ν σ}
    (governs : Governs tree remembering step) : Governs tree remembering (step.withClasses {}) := by
  intro options scope careful
  rw [Step.withClasses, Options.withClasses_self careful.builtin]
  exact governs options scope careful

end Step

namespace Basis

def surveyedWith (basis : Basis ν) (expand : SelectorList → Option (MatchContext ν) → ν → Prop) :
    Reading ν where
  basis := basis
  leads kind node next := next ∈ kind.reach basis node
  relative := Selector.isRelative
  searched groups node found := ∃ siblings, found ∈ Subselect.searchArea basis siblings node ∧
    (siblings = true ↔ Selector.reachesSiblings groups = true ∧ ¬ (Finding.choice
      (Token.surveyGroups basis.outlook (Selector.isRelative groups) groups)).verdict = .always)
  expand := expand

/-- The reading of a selector as it is compiled, as far as it can be told without compiling it. -/
def surveyed (basis : Basis ν) : Nat → Reading ν
  | 0 => basis.surveyedWith fun _ _ _ => False
  | depth + 1 => basis.surveyedWith fun selectors context =>
    (basis.surveyed depth).someHolds context false selectors

variable (basis : Basis ν) (depth : Nat)

theorem surveyed_basis : (basis.surveyed depth).basis = basis := by
  cases depth <;> rfl

theorem surveyed_leads :
    (basis.surveyed depth).leads = fun kind node next => next ∈ kind.reach basis node := by
  cases depth <;> rfl

theorem surveyed_part_has (groups : SelectorList) (context : Option (MatchContext ν)) :
    (basis.surveyed depth).part context (.subselect "has" groups) = .test fun node => ∃ found,
      (∃ siblings, found ∈ Subselect.searchArea basis siblings node ∧
        (siblings = true ↔ Selector.reachesSiblings groups = true ∧ ¬ (Finding.choice
          (Token.surveyGroups basis.outlook (Selector.isRelative groups) groups)).verdict = .always)) ∧
      Part.SomeHold (basis.surveyed depth).part
        (if Selector.isRelative groups then some (.node node) else none) (Selector.isRelative groups) groups
        found := by
  rw [Reading.part]
  simp only [Reading.someHolds_eq]
  cases depth <;> rfl

end Basis

namespace Step

variable {core : Options ν σ} {atScope : Step ν σ} {groups : List (List (Prepared ν σ))}
  {told : Token → Finding}

/-- The argument of `:has()` is known to match everything if that was found out. -/
theorem always_iff (tells : Prepared.Tells told) (foreseenScope : Foreseen core .test atScope)
    (foreseen : ∀ group ∈ groups, Prepared.ForeseenAs core told group) {options : Options ν σ}
    (same : options.core = core) {session after : Session σ} {query : Query ν σ}
    (compiled : Gives (Subselect.hasQuery groups atScope options) session query after) :
    (argumentFinding told (Subselect.isRelative groups) groups).verdict = .always ↔
      query.predicate = .alwaysTrue := by
  have known := ((settles_hasQuery tells foreseenScope foreseen same).of_gives compiled).2
  rw [query.predicate.eq_alwaysTrue_iff, known]

variable (builtin : core.custom = {})
include builtin

theorem realizes_token_surveyed (depth : Nat)
    (each : ∀ name selectors, Selector.abbreviations.lookup name = some selectors →
      Selector.expandsWithin depth name = true →
        Realizes core (fun context => .test ((core.toBasis.surveyed depth).expand selectors context))
          (expansion depth selectors))
    {token : Token} (expands : token.uses (fun name => !Selector.expandsWithin depth name) = false) :
    Realizes core (fun context => (core.toBasis.surveyed depth).part context token)
      (tokenStep (expansion depth) token) := by
  have basis := core.toBasis.surveyed_basis depth
  have leads := core.toBasis.surveyed_leads depth
  refine realizes_token_of builtin basis leads (Selector.expandsWithin depth) each
    (fun groups inside realized => ?_) expands
  have foreseen : ∀ group ∈ prepareGroups (expansion depth) groups, Prepared.Foreseen core group :=
    forall_prepareGroups fun group listed token member =>
      foreseen_token builtin _ (fun _ _ stands => foreseen_expansion builtin stands)
        (SelectorList.uses_of_mem inside listed member)
  have assigned := Reading.assigned (realizes_atScope builtin _ basis (expansion depth)) leads
  have has := realizes_has_of_means assigned realized fun options session query after same compiled =>
    always_iff (Prepared.tells_survey _) (foreseen_atScope builtin (expansion depth)) foreseen same compiled
  rw [argumentFinding_survey, Subselect.isRelative_prepareGroups, tokens_prepareGroups] at has
  simp only [core.toBasis.surveyed_part_has]
  exact has

theorem realizes_expansion_surveyed {depth : Nat} {name : String} {selectors : SelectorList}
    (stands : Selector.abbreviations.lookup name = some selectors)
    (expands : Selector.expandsWithin depth name = true) :
    Realizes core (fun context => .test ((core.toBasis.surveyed depth).expand selectors context))
      (expansion depth selectors) := by
  induction depth generalizing name selectors with
  | zero =>
    rw [Selector.expandsWithin, stands] at expands
    cases expands
  | succ depth ih =>
    have within := Selector.uses_of_expandsWithin stands expands
    have realized : ∀ group ∈ prepareGroups (expansion depth) selectors,
        Prepared.Realized core (core.toBasis.surveyed depth) group :=
      forall_prepareGroups fun group listed token member =>
        realizes_token_surveyed builtin depth (fun _ _ => ih) (SelectorList.uses_of_mem within listed member)
    have any := realizes_anyOf
      (realizes_atScope builtin _ (core.toBasis.surveyed_basis depth) (expansion depth))
      (core.toBasis.surveyed_leads depth) realized
    rw [tokens_prepareGroups] at any
    exact any

end Step

namespace Alias

variable (entry : Alias) {core : Options ν σ}

theorem tells_survey (outlook : Outlook) : Prepared.Tells (entry.survey outlook) where
  scope := congrArg (Token.survey outlook) entry.spell_scope
  combinator _ := rfl

theorem argumentFinding_prepare (outlook : Outlook) (anchored : Bool) (groups : SelectorList) :
    Step.argumentFinding (entry.survey outlook) anchored (entry.prepare groups : List (List (Prepared ν σ))) =
      .choice (entry.surveyGroups outlook anchored groups) := by
  rw [Step.argumentFinding, Prepared.findingsAs, surveyGroups_eq_map]
  conv => rhs; rw [← entry.tokens_prepare (ν := ν) (σ := σ) groups]
  rw [List.map_map]
  rfl

theorem isRelative_prepare (groups : SelectorList) :
    Subselect.isRelative (entry.prepare groups : List (List (Prepared ν σ))) =
      Selector.isRelative groups := by
  rw [Subselect.isRelative_eq, tokens_prepare]

theorem forall_prepare {property : Prepared ν σ → Prop} {groups : SelectorList}
    (each : ∀ group ∈ groups, ∀ token ∈ group, property ⟨token, entry.step token⟩) :
    ∀ group ∈ entry.prepare groups, ∀ item ∈ group, property item :=
  List.forall_mem_map.mpr fun group listed => List.forall_mem_map.mpr (each group listed)

section Foreseen

variable (builtin : core.custom = {})
include builtin

theorem foreseen_plain (token : Token) :
    Step.Foreseen core (token.survey core.toBasis.outlook)
      ((tokenStep (expansion SelectorList.depth) token).withClasses {}) :=
  (Step.foreseen_token builtin (fun _ => true) (fun _ _ stands _ => Step.foreseen_expansion builtin stands
    (Selector.expandsWithin_abbreviations stands)) token.uses_nothing).withoutClasses builtin

theorem foreseen_step (token : Token) :
    Step.Foreseen core (entry.survey core.toBasis.outlook token) (entry.step token) := by
  induction token using entry.induct with
  | standing =>
    have told : entry.survey core.toBasis.outlook (.pseudoClass entry.name none) =
        (Token.subselect "is" entry.list).survey core.toBasis.outlook := congrArg _ entry.spell_name
    rw [told, entry.step_name]
    exact foreseen_plain builtin _
  | faulty text =>
    rw [entry.step_name_some]
    exact Step.foreseen_throw _ (entry.refused_survey_some _ text)
  | subselect name groups ih =>
    have foreseen : ∀ group ∈ entry.prepare groups,
        Prepared.ForeseenAs core (entry.survey core.toBasis.outlook) group := entry.forall_prepare ih
    have atScope := (Step.foreseen_atScope builtin (expansion SelectorList.depth)).withoutClasses builtin
    have tells := entry.tells_survey core.toBasis.outlook
    rw [survey, entry.step_subselect]
    cases Subselect.ofName? name with
    | none => exact Step.foreseen_throw _ rfl
    | some kind =>
      cases kind with
      | anyOf =>
        have any := Step.foreseen_anyOf tells atScope foreseen
        rw [argumentFinding_prepare] at any
        exact any
      | noneOf =>
        have none := Step.foreseen_noneOf tells atScope foreseen
        rw [argumentFinding_prepare] at none
        exact none
      | has =>
        have has := Step.foreseen_has tells atScope foreseen
        rw [argumentFinding_prepare, isRelative_prepare] at has
        exact has
  | unused token unused =>
    rw [entry.survey_of_unused _ unused, entry.step_of_unused unused]
    exact foreseen_plain builtin token

end Foreseen

section Realized

/-- What a token means in a list that is compiled with the alias: what it means spelled out. -/
def part (entry : Alias) (basis : Basis ν) (context : Option (MatchContext ν)) (token : Token) : Part ν :=
  (basis.surveyed SelectorList.depth).part context (entry.spell token)

/-- Groups that are anchored alike hold where they hold spelled out. -/
theorem someHold_part (basis : Basis ν) {anchored : Bool} {groups : SelectorList}
    (keeps : ∀ group ∈ groups, Selector.KeepsFront entry anchored group)
    (context : Option (MatchContext ν)) :
    Part.SomeHold (entry.part basis) context anchored groups =
      Part.SomeHold (basis.surveyed SelectorList.depth).part context anchored
        (groups.map (List.map entry.spell)) := by
  funext node
  unfold Part.SomeHold
  simp only [List.mem_map, exists_exists_and_eq_and, eq_iff_iff]
  refine exists_congr fun group => and_congr_right fun listed => ?_
  rw [Selector.written_spell entry _ (keeps group listed), List.map_map]
  rfl

variable (builtin : core.custom = {})
include builtin

theorem realizes_plain (token : Token) :
    Step.Realizes core (fun context => (core.toBasis.surveyed SelectorList.depth).part context token)
      ((tokenStep (expansion SelectorList.depth) token).withClasses {}) :=
  (Step.realizes_token_surveyed builtin SelectorList.depth
    (fun _ _ stands _ => Step.realizes_expansion_surveyed builtin stands
      (Selector.expandsWithin_abbreviations stands)) token.expandsWithin).withoutClasses builtin

theorem assigned : Part.Assigned core ((scopeStep (expansion SelectorList.depth)).withClasses {})
    (entry.part core.toBasis) where
  scope := by
    have atScope := (Step.realizes_atScope builtin _ (core.toBasis.surveyed_basis SelectorList.depth)
      (expansion SelectorList.depth)).withoutClasses builtin
    simp only [part, entry.spell_scope]
    exact atScope
  combinator context kind :=
    congrArg (fun leads : Combinator → ν → ν → Prop => Part.move (leads kind))
      (core.toBasis.surveyed_leads SelectorList.depth)
  simple context token movable := by
    refine Reading.part_test_of_simple _ context ?_
    rw [entry.isCombinator_spell]
    exact Token.simple_of_rank movable

theorem realizes_step {token : Token} (alike : entry.AnchorsAlike false [[token]]) :
    Step.Realizes core (fun context => entry.part core.toBasis context token) (entry.step token) := by
  have assigned := entry.assigned builtin
  induction token using entry.induct with
  | standing =>
    simp only [part, entry.spell_name, entry.step_name]
    exact realizes_plain builtin _
  | faulty text =>
    rw [entry.step_name_some]
    exact Step.realizes_throw _ _
  | subselect name groups ih =>
    have inner := alike.argument
    have means : ∀ group ∈ entry.prepare groups, Prepared.Means core (entry.part core.toBasis) group :=
      entry.forall_prepare fun group listed token member =>
        ih group listed token member (inner.token listed member)
    have unanchored := entry.someHold_part core.toBasis fun group (_ : group ∈ groups) =>
      Selector.keepsFront_false entry group
    rw [entry.step_subselect]
    simp only [part, entry.spell_subselect]
    cases named : Subselect.ofName? name with
    | none => exact Step.realizes_throw _ _
    | some kind =>
      cases kind with
      | anyOf =>
        have any := Step.realizes_anyOf_of_means assigned means
        simp only [entry.tokens_prepare, unanchored] at any
        simp only [Reading.part, named, Reading.someHolds_eq]
        exact any
      | noneOf =>
        have none := Step.realizes_noneOf_of_means assigned means
        simp only [entry.tokens_prepare, unanchored] at none
        simp only [Reading.part, named, Reading.someHolds_eq]
        exact none
      | has =>
        obtain rfl := Subselect.eq_has named
        have keeps : ∀ group ∈ groups, Selector.KeepsFront entry (Selector.isRelative groups) group := by
          cases relative : Selector.isRelative groups with
          | true => exact alike.relative relative
          | false => exact fun group _ => Selector.keepsFront_false entry group
        have foreseen : ∀ group ∈ entry.prepare groups,
            Prepared.ForeseenAs core (entry.survey core.toBasis.outlook) group :=
          entry.forall_prepare fun _ _ token _ => entry.foreseen_step builtin token
        have atScope := (Step.foreseen_atScope builtin (expansion SelectorList.depth)).withoutClasses builtin
        have has := Step.realizes_has_of_means assigned means fun options session query after same compiled =>
          Step.always_iff (entry.tells_survey _) atScope foreseen same compiled
        rw [argumentFinding_prepare, isRelative_prepare,
          verdict_surveyGroups keeps fun _ _ token _ => entry.verdict_survey _ token] at has
        simp only [entry.tokens_prepare, entry.someHold_part core.toBasis keeps] at has
        simp only [core.toBasis.surveyed_part_has, Selector.isRelative_spell, Selector.reachesSiblings_spell]
        exact has
  | unused token unused =>
    simp only [part, entry.spell_of_unused unused, entry.step_of_unused unused]
    exact realizes_plain builtin token

end Realized

section Governed

variable {tree : TreeView ν} {remembering : Prop} (bears : remembering → tree.Remembers)
include bears

theorem governs_plain {token : Token} (unfolded : remembering → token.uses (· == "icontains") = false) :
    Step.Governs tree remembering
      ((tokenStep (expansion SelectorList.depth) token : Step ν σ).withClasses {}) :=
  (Step.governs_token bears (Step.governs_expansion bears SelectorList.depth) token unfolded).withoutClasses

theorem governs_atScope : Step.Governs tree remembering
    ((scopeStep (expansion SelectorList.depth) : Step ν σ).withClasses {}) :=
  governs_plain bears fun _ => (by decide : Selector.scope.uses (· == "icontains") = false)

theorem governs_step {token : Token}
    (unfolded : remembering → (entry.spell token).uses (· == "icontains") = false) :
    Step.Governs tree remembering (entry.step token : Step ν σ) := by
  induction token using entry.induct with
  | standing =>
    rw [entry.step_name]
    exact governs_plain bears (entry.spell_name ▸ unfolded)
  | faulty text =>
    rw [entry.step_name_some]
    exact Step.governs_throw _
  | subselect name groups ih =>
    rw [entry.spell_subselect] at unfolded
    have governs : ∀ group ∈ (entry.prepare groups : List (List (Prepared ν σ))), ∀ item ∈ group,
        item.step.Governs tree remembering := by
      refine entry.forall_prepare fun group listed token member =>
        ih group listed token member fun remembers => ?_
      exact SelectorList.uses_of_mem (Token.uses_subselect_eq_false (unfolded remembers)).2
        (List.mem_map_of_mem listed) (List.mem_map_of_mem member)
    have atScope := governs_atScope (σ := σ) bears
    rw [entry.step_subselect]
    cases Subselect.ofName? name with
    | none => exact Step.governs_throw _
    | some kind =>
      cases kind with
      | anyOf => exact Step.governs_anyOf bears atScope governs
      | noneOf => exact Step.governs_noneOf bears atScope governs
      | has => exact Step.governs_has bears atScope governs
  | unused token unused =>
    rw [entry.step_of_unused unused]
    exact governs_plain bears (entry.spell_of_unused unused ▸ unfolded)

end Governed

end Alias

namespace SelectorList

variable (entry : Alias) (options : Options ν σ) {selectors : SelectorList}
  {given : Option (MatchContext ν)} {session after : Session σ} {query : Query ν σ}

/-- With the alias or spelled out, a search is asked for siblings alike. -/
theorem reachesSiblings_classes (relative : options.flags.relativeSelector = true)
    (compiled : Gives (selectors.compile (options.withClasses entry.classes) given) session query after) :
    query.reachesSiblings = (selectors.map (List.map entry.spell)).any fun group =>
      Selector.startsAmongSiblings
        (Selector.written false (Prepared.anchors options (given.map Scope.fixed)) group) := by
  obtain ⟨unchecked, between, inner, reaches, _⟩ := exists_unchecked compiled
  rw [compileUnchecked_classes] at inner
  rw [reaches, Prepared.reachesSiblings_of_compile inner, Prepared.amongSiblings_eq _ _ relative,
    entry.tokens_prepare, List.any_map]
  refine congrArg _ (funext fun group => ?_)
  exact (Selector.startsAmongSiblings_front_spell entry _ group).symm

section Builtin

variable (builtin : options.custom = {})
include builtin

theorem passes_classes (root : options.root = .alwaysTrue) (relative : options.flags.relativeSelector = true)
    (alike : entry.AnchorsAlike (Prepared.anchors options (given.map Scope.fixed)) selectors)
    (compiled : Gives (selectors.compile (options.withClasses entry.classes) given) session query after)
    (node : ν) : query.predicate.passes none node = true ↔ options.tree.isElement node = true ∧
      (options.core.toBasis.surveyed depth).someHolds (options.context.or given)
        (Prepared.anchors options (given.map Scope.fixed)) (selectors.map (List.map entry.spell)) node := by
  have coreBuiltin : options.core.custom = {} := builtin
  obtain ⟨unchecked, between, inner, _, checked⟩ := exists_unchecked compiled
  rw [compileUnchecked_classes] at inner
  have means : ∀ group ∈ entry.prepare selectors,
      Prepared.Means options.core (entry.part options.core.toBasis) group :=
    entry.forall_prepare fun group listed token member =>
      entry.realizes_step coreBuiltin (alike.token listed member)
  have resolved : Scope.IsResolved (Prepared.scopeOf options (given.map Scope.fixed)) (none : Option ν) :=
    fun isSubject => absurd isSubject (Prepared.scopeOf_ne_subject options given)
  have meant := Prepared.passes_compile_of_means options none rfl root relative (entry.assigned coreBuiltin)
    means inner resolved node
  rw [scopeOf_seenFrom, entry.tokens_prepare, entry.someHold_part _ alike.groups] at meant
  rw [checked, Bool.and_eq_true, meant, Reading.someHolds_eq]
  rfl

theorem answers_classes (root : options.root = .alwaysTrue) (bears : options.tree.Remembers)
    (unfolded : uses (· == "icontains") (selectors.map (List.map entry.spell)) = false)
    (tidy : session.Tidy)
    (compiled : Gives (selectors.compile (options.withClasses entry.classes) given) session query after) :
    query.Answers after (query.predicate.passes none) := by
  have careful : options.Careful options.tree (options.flags.cacheResults = true)
      (Prepared.scopeOf options (given.map Scope.fixed)) :=
    ⟨rfl, builtin, id, fun _ => Prepared.scopeOf_ne_subject options given⟩
  have governs : ∀ group ∈ (entry.prepare selectors : List (List (Prepared ν σ))), ∀ item ∈ group,
      item.step.Governs options.tree (options.flags.cacheResults = true) :=
    entry.forall_prepare fun group listed token member => entry.governs_step (fun _ => bears) fun _ =>
      uses_of_mem unfolded (List.mem_map_of_mem listed) (List.mem_map_of_mem member)
  obtain ⟨wider, grows, governed⟩ := grows_of_unchecked (options.withClasses entry.classes)
    (fun inner => by
      rw [compileUnchecked_classes] at inner
      obtain ⟨wider, grows, fits⟩ := Prepared.fits_compile careful
        (fun _ => root ▸ Predicate.fits_alwaysTrue) (fun _ => bears) (Alias.governs_atScope fun _ => bears)
        governs inner (Nat.le_refl (session.ledger tidy).bound)
      exact ⟨wider, grows, fits.governed⟩) compiled
  exact Query.answers_of_governed grows.keeps grows.within governed

variable (selectors given) in
theorem accepts_classes (may : options.root.isAlwaysFalse = false)
    (relative : options.flags.relativeSelector = true) :
    Settles (selectors.compile (options.withClasses entry.classes) given)
      (Finding.choice (entry.surveyGroups options.toBasis.outlook
        (Prepared.anchors options (given.map Scope.fixed)) selectors)).refused fun _ => True := by
  have coreBuiltin : options.core.custom = {} := builtin
  have foreseen : ∀ group ∈ entry.prepare selectors,
      Prepared.ForeseenAs options.core (entry.survey options.core.toBasis.outlook) group :=
    entry.forall_prepare fun _ _ token _ => entry.foreseen_step coreBuiltin token
  have atScope := (Step.foreseen_atScope coreBuiltin (expansion depth)).withoutClasses coreBuiltin
  have accepts := Prepared.accepts_compile (entry.tells_survey _) atScope foreseen rfl may
    (given.map Scope.fixed)
  have found := entry.argumentFinding_prepare (ν := ν) (σ := σ) options.core.toBasis.outlook
    (Prepared.anchors options (given.map Scope.fixed)) selectors
  rw [Step.argumentFinding] at found
  rw [relative, found, Prepared.refused, relative] at accepts
  refine settles_of_unchecked ?_
  rw [compileUnchecked_classes]
  exact accepts

end Builtin

end SelectorList
end SelectorEngine
