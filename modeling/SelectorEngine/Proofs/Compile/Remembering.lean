import SelectorEngine.Proofs.Compile.Outcome
import SelectorEngine.Proofs.Match.Remembering
import SelectorEngine.Proofs.Tree.Forest
import SelectorEngine.Proofs.Meaning.SimpleSelector
import SelectorEngine.Proofs.Selector.Occurrence

/-! Compiled plans are governed. Every table that a compilation takes from the session goes to one walk
or one inherited test, and the ledger grows by what is right to record there. Walks that remember are
only compiled where no subject can change their answers. -/
namespace SelectorEngine

variable {ν σ : Type}

structure Session.Grew (session after : Session σ) : Prop where
  memo : after.memo = session.memo
  supply : session.supply ≤ after.supply

theorem Session.Grew.refl (session : Session σ) : session.Grew session := ⟨rfl, Nat.le_refl _⟩

theorem Session.Grew.trans {session between after : Session σ} (first : session.Grew between)
    (second : between.Grew after) : session.Grew after :=
  ⟨second.memo.trans first.memo, Nat.le_trans first.supply second.supply⟩

/-- The ledger grew with the session, if anything is remembered at all. -/
structure Ledger.Grows (remembering : Prop) (ledger : Ledger) (session : Session σ) (wider : Ledger)
    (after : Session σ) : Prop where
  widened : wider.Extends ledger
  within : wider.bound ≤ after.supply
  grew : session.Grew after
  stays : ¬ remembering → wider = ledger

theorem Ledger.Grows.trans {remembering : Prop} {ledger middle wider : Ledger}
    {session between after : Session σ} (first : Grows remembering ledger session middle between)
    (second : Grows remembering middle between wider after) :
    Grows remembering ledger session wider after :=
  ⟨second.widened.trans first.widened, second.within, first.grew.trans second.grew,
    fun never => (second.stays never).trans (first.stays never)⟩

theorem Ledger.grows_of_grew (remembering : Prop) {ledger : Ledger} {session after : Session σ}
    (within : ledger.bound ≤ session.supply) (grew : session.Grew after) :
    Grows remembering ledger session ledger after :=
  ⟨.refl ledger, Nat.le_trans within grew.supply, grew, fun _ => rfl⟩

namespace Predicate

/-- The plan of the predicate is governed, and the subject is of no consequence to it unless `:scope`
refers to the subject. -/
structure Fits (ledger : Ledger) (scope : Option (Scope ν)) (predicate : Predicate ν σ) : Prop where
  governed : predicate.toPlan.Governed ledger
  closed : scope ≠ some .subject → predicate.toPlan.Closed

variable {ledger wider : Ledger} {scope : Option (Scope ν)} {first second : Predicate ν σ}

theorem Fits.extend (fits : first.Fits ledger scope) (widened : wider.Extends ledger) :
    first.Fits wider scope :=
  ⟨fits.governed.extend widened, fits.closed⟩

theorem fits_alwaysTrue : Fits ledger scope (alwaysTrue : Predicate ν σ) :=
  ⟨trivial, fun _ _ _ _ => rfl⟩

theorem fits_alwaysFalse : Fits ledger scope (alwaysFalse : Predicate ν σ) :=
  ⟨trivial, fun _ _ _ _ => rfl⟩

def Made (ledger : Ledger) (scope : Option (Scope ν)) (action : SessionM σ (Predicate ν σ)) : Prop :=
  ∀ session, (action.run session).1.Fits ledger scope ∧ session.Grew (action.run session).2

theorem made_pure (fits : first.Fits ledger scope) :
    Made ledger scope (pure first : SessionM σ (Predicate ν σ)) :=
  fun session => ⟨fits, .refl session⟩

theorem made_ofPlan {plan : Plan ν σ} (governed : plan.Governed ledger)
    (closed : scope ≠ some .subject → plan.Closed) : Made ledger scope (ofPlan plan) :=
  fun _ => ⟨⟨governed, closed⟩, rfl, Nat.le_succ _⟩

theorem made_guard (fits : first.Fits ledger scope) (check : Plan ν σ)
    (governed : check.Governed ledger) (closed : scope ≠ some .subject → check.Closed) :
    Made ledger scope (first.guard check) := by
  cases first with
  | alwaysTrue => exact made_ofPlan governed closed
  | alwaysFalse => exact made_pure fits
  | dynamic identity plan =>
    exact made_ofPlan ⟨governed, fits.governed⟩ fun free => (closed free).both (fits.closed free)

theorem made_andThen (fits : first.Fits ledger scope) (check : Plan ν σ)
    (governed : check.Governed ledger) (closed : scope ≠ some .subject → check.Closed) :
    Made ledger scope (first.andThen check) := by
  cases first with
  | alwaysTrue => exact made_ofPlan governed closed
  | alwaysFalse => exact made_pure fits
  | dynamic identity plan =>
    exact made_ofPlan ⟨fits.governed, governed⟩ fun free => (fits.closed free).both (closed free)

theorem made_and (fits : first.Fits ledger scope) (fits' : second.Fits ledger scope) :
    Made ledger scope (first.and second) := by
  cases first with
  | alwaysTrue => cases second <;> exact made_pure fits'
  | alwaysFalse => cases second <;> exact made_pure fits
  | dynamic identity plan =>
    cases second with
    | alwaysTrue => exact made_pure fits
    | alwaysFalse => exact made_pure fits'
    | dynamic identity' other =>
      exact made_ofPlan ⟨fits.governed, fits'.governed⟩ fun free =>
        (fits.closed free).both (fits'.closed free)

theorem made_or (fits : first.Fits ledger scope) (fits' : second.Fits ledger scope) :
    Made ledger scope (first.or second) := by
  cases first with
  | alwaysTrue => cases second <;> exact made_pure fits
  | alwaysFalse => cases second <;> exact made_pure fits'
  | dynamic identity plan =>
    cases second with
    | alwaysTrue => exact made_pure fits'
    | alwaysFalse => exact made_pure fits
    | dynamic identity' other =>
      exact made_ofPlan ⟨fits.governed, fits'.governed⟩ fun free =>
        (fits.closed free).either (fits'.closed free)

theorem made_negate (fits : first.Fits ledger scope) : Made ledger scope first.negate := by
  cases first with
  | alwaysTrue => exact made_pure fits_alwaysFalse
  | alwaysFalse => exact made_pure fits_alwaysTrue
  | dynamic identity plan =>
    exact made_ofPlan fits.governed fun free => (fits.closed free).negation

theorem made_union (fits : first.Fits ledger scope) (fits' : second.Fits ledger scope)
    (start : Predicate ν σ) : Made ledger scope (first.union second start) := by
  unfold union
  split
  · exact made_pure fits
  · split
    · exact made_pure fits'
    · exact made_or fits fits'

end Predicate
/-- What a compilation that may remember is careful about: the tree bears it, no host is asked, and no
subject is referred to. -/
structure Options.Careful (tree : TreeView ν) (remembering : Prop) (options : Options ν σ)
    (scope : Option (Scope ν)) : Prop where
  tree_eq : options.tree = tree
  builtin : options.custom = {}
  remembers : options.flags.cacheResults = true → remembering
  free : options.flags.cacheResults = true → scope ≠ some .subject

def Step.Governs (tree : TreeView ν) (remembering : Prop) (step : Step ν σ) : Prop :=
  ∀ (options : Options ν σ) scope, options.Careful tree remembering scope →
    ∀ next session result after, CompileM.Gives (step options scope next) session result after →
      ∀ ledger : Ledger, ledger.bound ≤ session.supply → next.Fits ledger scope →
        ∃ wider, Ledger.Grows remembering ledger session wider after ∧ result.Fits wider scope

namespace Step

open CompileM

variable {tree : TreeView ν} {remembering : Prop}

theorem governs_of_made {make : Options ν σ → Option (Scope ν) → Predicate ν σ →
      SessionM σ (Predicate ν σ)}
    (made : ∀ (options : Options ν σ) scope, options.Careful tree remembering scope →
      ∀ ledger next, next.Fits ledger scope → Predicate.Made ledger scope (make options scope next)) :
    Governs tree remembering fun options scope next => liftM (make options scope next) := by
  intro options scope careful next session result after given ledger within fits
  have run := gives_lift.mp given
  obtain ⟨resultFits, grew⟩ := made options scope careful ledger next fits session
  rw [run] at resultFits grew
  exact ⟨ledger, Ledger.grows_of_grew remembering within grew, resultFits⟩

theorem governs_guard (property : Options ν σ → ν → Bool) : Governs tree remembering
    fun options _ next => liftM (next.guard (.holds (property options))) :=
  governs_of_made fun _ _ _ _ _ fits => Predicate.made_guard fits _ trivial fun _ _ _ _ => rfl

theorem governs_throw (error : CompileError) :
    Governs tree remembering fun _ _ _ => (throw error : CompileM σ (Predicate ν σ)) :=
  fun _ _ _ _ _ _ _ given => absurd given gives_throw

theorem governs_pure (value : Predicate ν σ → Predicate ν σ)
    (kept : ∀ ledger scope next, next.Fits ledger scope → (value next).Fits ledger scope) :
    Governs tree remembering fun _ _ next => (pure (value next) : CompileM σ (Predicate ν σ)) :=
  governs_of_made fun _ _ _ _ _ fits => Predicate.made_pure (kept _ _ _ fits)

theorem governs_alwaysFalse :
    Governs tree remembering fun _ _ _ => (pure .alwaysFalse : CompileM σ (Predicate ν σ)) :=
  governs_pure (fun _ => .alwaysFalse) fun _ _ _ _ => Predicate.fits_alwaysFalse

theorem governs_ite (condition : Options ν σ → Bool) {yes no : Step ν σ}
    (first : Governs tree remembering yes) (second : Governs tree remembering no) :
    Governs tree remembering fun options scope next =>
      if condition options then yes options scope next else no options scope next := by
  intro options scope careful next session result after given
  dsimp only at given
  split at given
  · exact first options scope careful next session result after given
  · exact second options scope careful next session result after given

theorem governs_attribute (selector : AttributeSelector) :
    Governs tree remembering (attributeStep (σ := σ) selector) :=
  governs_ite (fun options => (AttributeTest.ofSelector selector options.flags).neverPasses)
    governs_alwaysFalse
    (governs_guard fun options => (AttributeTest.ofSelector selector options.flags).passes options.tree)

/-- A walk that remembers gets a table of its own, where the failures of what it defers to are right. -/
theorem governs_combinator (bears : remembering → tree.Remembers) (kind : Combinator) :
    Governs tree remembering (combinatorStep (σ := σ) kind) := by
  intro options scope careful next session result after given ledger within fits
  rw [combinatorStep_eq] at given
  split at given
  · exact absurd given gives_throw
  · split at given
    · obtain ⟨rfl, rfl⟩ := gives_pure.mp given
      exact ⟨ledger, Ledger.grows_of_grew remembering within (.refl _), Predicate.fits_alwaysFalse⟩
    · unfold combinatorWalk at given
      split at given
      · next walks =>
        have keyed := (bears (careful.remembers walks.2)).keyed
        rw [← careful.tree_eq] at keyed
        have closed := fits.closed (careful.free walks.2)
        let right := fun key result => result = false ∧ ∀ node, options.climb.key node = some key →
          (options.tree.isElement node && next.toPlan.passes none node) = false
        have widened := ledger.enter_extends within right
        obtain ⟨rfl, rfl⟩ := gives_lift.mp given
        refine ⟨ledger.enter session.supply within right, ⟨widened, ?_, ⟨rfl, ?_⟩, ?_⟩, ?_, ?_⟩
        · exact Nat.le_succ (session.supply + 1)
        · exact Nat.le_add_right session.supply 2
        · exact fun never => absurd (careful.remembers walks.2) never
        · refine ⟨fits.governed.extend widened, closed, keyed, Nat.lt_succ_self _, fun key result => ?_⟩
          rw [ledger.enter_allows within right]
        · exact fun _ => closed.under _ _ _
      · obtain ⟨rfl, rfl⟩ := gives_lift.mp given
        have grew : session.Grew { session with supply := session.supply + 1 } := ⟨rfl, Nat.le_succ _⟩
        exact ⟨ledger, Ledger.grows_of_grew remembering within grew, fits.governed, fun free =>
          (fits.closed free).leadsTo _⟩

private theorem grows_andInherited {remembering : Prop} {ledger : Ledger} {scope : Option (Scope ν)}
    {next : Predicate ν σ} {session : Session σ} (within : ledger.bound ≤ session.supply)
    (fits : next.Fits ledger scope) (climb : Climb ν) (remembers : Bool) (property : ν → Bool)
    (may : remembers = true → remembering) (keyed : remembers = true → climb.IsKeyed)
    (inherits : remembers = true → ∀ node, ∀ above ∈ climb.above node, property above = false →
      property node = false) :
    ∃ wider, Ledger.Grows remembering ledger session wider
        ((next.andInherited climb remembers (.holds property)).run session).2 ∧
      ((next.andInherited climb remembers (.holds property)).run session).1.Fits wider scope := by
  unfold Predicate.andInherited
  cases remembers with
  | false =>
    have made := Predicate.made_andThen fits (.holds property) trivial fun _ _ _ _ => rfl
    exact ⟨ledger, Ledger.grows_of_grew remembering within (made session).2, (made session).1⟩
  | true =>
    let right := fun key result => ∀ node, climb.key node = some key → property node = result
    have widened := ledger.enter_extends within right
    have governed : (Plan.inherited session.supply climb (.holds property) : Plan ν σ).Governed
        (ledger.enter session.supply within right) := by
      refine ⟨trivial, fun _ _ _ => rfl, keyed rfl, inherits rfl, Nat.lt_succ_self _, fun key result => ?_⟩
      rw [ledger.enter_allows within right]
      rfl
    obtain ⟨made, grew⟩ := Predicate.made_andThen (fits.extend widened) _ governed
      (fun _ _ _ _ => rfl) { session with supply := session.supply + 1 }
    have step : session.Grew { session with supply := session.supply + 1 } := ⟨rfl, Nat.le_succ _⟩
    exact ⟨ledger.enter session.supply within right,
      ⟨widened, grew.supply, step.trans grew, fun never => absurd (may rfl) never⟩, made⟩

theorem governs_text (bears : remembering → tree.Remembers) (fold : String → String)
    (unfolded : remembering → fold = id) (argument : String) :
    Governs tree remembering (BuiltinFilter.textStep (σ := σ) fold argument) := by
  intro options scope careful next session result after given ledger within fits
  have run := gives_lift.mp given
  have grown := grows_andInherited within fits options.tree.elementClimb options.flags.cacheResults
    (fun node => Text.contains (fold argument) (fold (options.tree.text node)))
    careful.remembers (fun remembers => ?_) fun remembers node above isAbove fails => ?_
  · rw [run] at grown
    exact grown
  · rw [careful.tree_eq]
    exact (bears (careful.remembers remembers)).keyed
  · have may := careful.remembers remembers
    rw [careful.tree_eq] at isAbove fails ⊢
    have within := (bears may).textInherited node above isAbove
    rw [unfolded may, ← Bool.not_eq_true, id, id, Text.contains_iff] at fails ⊢
    exact fun found => fails (found.trans within)

theorem governs_need (name : String) (argument : Option String) {step : String → Step ν σ}
    (each : ∀ text, Governs tree remembering (step text)) :
    Governs tree remembering fun options scope next =>
      BuiltinFilter.needArgument name argument >>= fun text => step text options scope next := by
  intro options scope careful next session result after given
  cases argument with
  | none =>
    obtain ⟨_, _, impossible, _⟩ := gives_bind.mp given
    exact absurd impossible gives_throw
  | some text => exact each text options scope careful next session result after given

theorem governs_verify (name : String) (taken : Bool) (argument : Option String) {step : Step ν σ}
    (governs : Governs tree remembering step) :
    Governs tree remembering fun options scope next =>
      verifyArgument name taken argument >>= fun _ => step options scope next := by
  intro options scope careful next session result after given
  obtain ⟨_, between, verified, rest⟩ := gives_bind.mp given
  have stays : between = session := by
    unfold verifyArgument at verified
    split at verified
    · exact absurd verified gives_throw
    · exact absurd verified gives_throw
    · exact (gives_pure.mp verified).2
  subst stays
  exact governs options scope careful next between result after rest

theorem governs_counting (how : Counting) (name formula : String) :
    Governs tree remembering (how.step (σ := σ) name formula) := by
  intro options scope careful next session result after given
  unfold Counting.step at given
  split at given
  · exact absurd given gives_throw
  · exact governs_alwaysFalse options scope careful next session result after given
  · exact governs_guard (fun options node => (options.tree.elementParent node).isSome)
      options scope careful next session result after given
  · next positions _ _ _ =>
    exact governs_guard (fun options node => positions.contains (how.position options.toBasis node))
      options scope careful next session result after given

theorem governs_root : Governs tree remembering (BuiltinFilter.rootStep (σ := σ)) :=
  governs_guard fun options node => (options.tree.elementParent node).isNone

theorem governs_scope : Governs tree remembering (BuiltinFilter.scopeStep (σ := σ)) := by
  intro options scope careful next session result after given
  match scope with
  | none => exact governs_root options none careful next session result after given
  | some .subject =>
    intro ledger within fits
    obtain ⟨made, grew⟩ := Predicate.made_guard fits (.isSubject options.same) trivial
      (fun free => absurd rfl free) session
    have run : (next.guard (.isSubject options.same)).run session = (result, after) :=
      gives_lift.mp given
    rw [run] at made grew
    exact ⟨ledger, Ledger.grows_of_grew remembering within grew, made⟩
  | some (.fixed context) =>
    unfold BuiltinFilter.scopeStep at given
    dsimp only at given
    split at given
    · exact governs_root options _ careful next session result after given
    · exact governs_guard (fun options node => context.toList.any (options.same · node))
        options _ careful next session result after given

theorem governs_filter (bears : remembering → tree.Remembers) (filter : BuiltinFilter)
    (unfolded : remembering → filter ≠ .containsFolded) (name : String) (argument : Option String) :
    Governs tree remembering (filter.step (σ := σ) name argument) := by
  cases filter with
  | contains => exact governs_need name argument (governs_text bears id fun _ => rfl)
  | containsFolded =>
    exact governs_need name argument
      (governs_text bears Text.lower fun remembers => absurd rfl (unfolded remembers))
  | counting how => exact governs_need name argument (governs_counting how name)
  | root => exact governs_root
  | scope => exact governs_scope
  | state which =>
    exact governs_ite (fun options => options.tree.supports which)
      (governs_guard fun options node => options.tree.isIn node which) governs_alwaysFalse
  | lang =>
    exact governs_need name argument fun value =>
      governs_attribute { name := "lang", action := .equals, value }

theorem governs_pseudoClass (bears : remembering → tree.Remembers)
    {expand : SelectorList → Step ν σ}
    (each : ∀ selectors, (remembering → selectors.uses (· == "icontains") = false) →
      Governs tree remembering (expand selectors))
    (name : String) (unfolded : remembering → (name == "icontains") = false)
    (argument : Option String) :
    Governs tree remembering (pseudoClassStep expand name argument) := by
  have contained : Selector.IsSelfContained (· == "icontains") := by decide
  intro options scope careful next session result after given
  rw [pseudoClassStep_builtin expand name argument (CustomClasses.lacks_of_empty careful.builtin name)] at given
  split at given
  · next selectors found =>
    have plain := each selectors fun remembers => contained.uses_eq_false found (unfolded remembers)
    exact governs_verify name false argument plain options scope careful next session result after given
  · split at given
    · next filter found =>
      have plain : remembering → filter ≠ .containsFolded := by
        rintro remembers rfl
        have other := unfolded remembers
        unfold BuiltinFilter.ofName? at found
        split at found <;> cases found
        cases other
      exact governs_filter bears filter plain name argument
        options scope careful next session result after given
    · split at given
      · next structural _ =>
        exact governs_verify name false argument
          (governs_guard fun options => structural.holds options.toBasis)
          options scope careful next session result after given
      · split at given
        · exact absurd given gives_throw
        · exact absurd given gives_throw

end Step

namespace Prepared

open CompileM

variable {tree : TreeView ν} {remembering : Prop} {options : Options ν σ} {scope : Option (Scope ν)}
  {session after : Session σ} {ledger : Ledger}

theorem fits_fold (careful : options.Careful tree remembering scope)
    {group : List (Prepared ν σ)} (governs : ∀ item ∈ group, item.step.Governs tree remembering)
    {start result : Predicate ν σ} (given : Gives (fold options scope group start) session result after)
    (within : ledger.bound ≤ session.supply) (fits : start.Fits ledger scope) :
    ∃ wider, Ledger.Grows remembering ledger session wider after ∧ result.Fits wider scope := by
  induction group generalizing start session ledger with
  | nil =>
    obtain ⟨rfl, rfl⟩ := gives_pure.mp given
    exact ⟨ledger, Ledger.grows_of_grew remembering within (.refl _), fits⟩
  | cons first rest ih =>
    obtain ⟨head, tail⟩ := List.forall_mem_cons.mp governs
    rw [fold] at given
    split at given
    · obtain ⟨rfl, rfl⟩ := gives_pure.mp given
      exact ⟨ledger, Ledger.grows_of_grew remembering within (.refl _), fits⟩
    · obtain ⟨between, middle, stepped, folded⟩ := gives_bind.mp given
      obtain ⟨wide, grows, fitsBetween⟩ :=
        head options scope careful start session between middle stepped ledger within fits
      obtain ⟨wider, growsFurther, fitsResult⟩ := ih tail folded grows.within fitsBetween
      exact ⟨wider, grows.trans growsFurther, fitsResult⟩

theorem fits_foldGroups (careful : options.Careful tree remembering scope)
    (root : ∀ ledger, options.root.Fits ledger scope) {groups : List (List (Prepared ν σ))}
    (governs : ∀ group ∈ groups, ∀ item ∈ group, item.step.Governs tree remembering)
    {united result : Predicate ν σ}
    (given : Gives (foldGroups options scope groups united) session result after)
    (within : ledger.bound ≤ session.supply) (fits : united.Fits ledger scope) :
    ∃ wider, Ledger.Grows remembering ledger session wider after ∧ result.Fits wider scope := by
  induction groups generalizing united session ledger with
  | nil =>
    obtain ⟨rfl, rfl⟩ := gives_pure.mp given
    exact ⟨ledger, Ledger.grows_of_grew remembering within (.refl _), fits⟩
  | cons group rest ih =>
    obtain ⟨head, tail⟩ := List.forall_mem_cons.mp governs
    rw [foldGroups] at given
    obtain ⟨predicate, between, folded, further⟩ := gives_bind.mp given
    obtain ⟨union, middle, joined, further⟩ := gives_bind.mp further
    obtain ⟨wide, grows, fitsPredicate⟩ :=
      fits_fold careful head folded within (root ledger)
    obtain ⟨fitsUnion, grew⟩ :=
      Predicate.made_union (fits.extend grows.widened) fitsPredicate options.root between
    rw [gives_lift.mp joined] at fitsUnion grew
    have joins := Ledger.grows_of_grew remembering grows.within grew
    obtain ⟨wider, growsFurther, fitsResult⟩ := ih tail further joins.within fitsUnion
    exact ⟨wider, (grows.trans joins).trans growsFurther, fitsResult⟩

theorem fits_compile {given : Option (Scope ν)}
    (careful : options.Careful tree remembering (scopeOf options given))
    (root : ∀ ledger, options.root.Fits ledger (scopeOf options given))
    (bears : remembering → tree.Remembers) {atScope : Step ν σ}
    (governsScope : atScope.Governs tree remembering) {groups : List (List (Prepared ν σ))}
    (governs : ∀ group ∈ groups, ∀ item ∈ group, item.step.Governs tree remembering)
    {query : Query ν σ} (compiled : Gives (compile atScope groups options given) session query after)
    (within : ledger.bound ≤ session.supply) :
    ∃ wider, Ledger.Grows remembering ledger session wider after ∧
      query.predicate.Fits wider (scopeOf options given) := by
  rw [compile_eq] at compiled
  split at compiled
  · exact absurd compiled gives_throw
  · obtain ⟨predicate, between, folded, rest⟩ := gives_bind.mp compiled
    obtain ⟨rfl, rfl⟩ := gives_pure.mp rest
    have all := forall_completed options given governs governsScope (Step.governs_combinator bears)
    exact fits_foldGroups careful root all folded within Predicate.fits_alwaysFalse

end Prepared
namespace Step

open CompileM

variable {tree : TreeView ν} {remembering : Prop} {atScope : Step ν σ}
  {groups : List (List (Prepared ν σ))}

theorem governs_anyOf (bears : remembering → tree.Remembers)
    (governsScope : atScope.Governs tree remembering)
    (governs : ∀ group ∈ groups, ∀ item ∈ group, item.step.Governs tree remembering) :
    Governs tree remembering (Subselect.anyOfStep atScope groups) := by
  intro options scope careful next session result after given ledger within fits
  obtain ⟨query, between, compiled, joined⟩ := gives_bind.mp given
  have inner : options.embedded.unanchored.Careful tree remembering scope :=
    ⟨careful.tree_eq, careful.builtin, careful.remembers, careful.free⟩
  obtain ⟨wide, grows, fitsQuery⟩ :=
    Prepared.fits_compile inner (fun _ => Predicate.fits_alwaysTrue) bears governsScope governs compiled within
  obtain ⟨fitsResult, grew⟩ :=
    Predicate.made_and fitsQuery (fits.extend grows.widened) between
  rw [gives_lift.mp joined] at fitsResult grew
  exact ⟨wide, grows.trans (Ledger.grows_of_grew remembering grows.within grew), fitsResult⟩

theorem governs_noneOf (bears : remembering → tree.Remembers)
    (governsScope : atScope.Governs tree remembering)
    (governs : ∀ group ∈ groups, ∀ item ∈ group, item.step.Governs tree remembering) :
    Governs tree remembering (Subselect.noneOfStep atScope groups) := by
  intro options scope careful next session result after given ledger within fits
  obtain ⟨query, between, compiled, rest⟩ := gives_bind.mp given
  obtain ⟨negated, middle, negating, joined⟩ := gives_bind.mp rest
  have inner : options.embedded.unanchored.Careful tree remembering scope :=
    ⟨careful.tree_eq, careful.builtin, careful.remembers, careful.free⟩
  obtain ⟨wide, grows, fitsQuery⟩ :=
    Prepared.fits_compile inner (fun _ => Predicate.fits_alwaysTrue) bears governsScope governs compiled within
  obtain ⟨fitsNegated, grew⟩ := Predicate.made_negate fitsQuery between
  rw [gives_lift.mp negating] at fitsNegated grew
  have negates := Ledger.grows_of_grew remembering grows.within grew
  obtain ⟨fitsResult, grewFurther⟩ :=
    Predicate.made_and fitsNegated (fits.extend grows.widened) middle
  rw [gives_lift.mp joined] at fitsResult grewFurther
  have joins := Ledger.grows_of_grew remembering negates.within grewFurther
  exact ⟨wide, (grows.trans negates).trans joins, fitsResult⟩

/-- The search of `:has()` sets its own subject, and without one its argument has no scope; either way
its answers depend on the node alone. -/
theorem made_hasSearch {ledger : Ledger} {scope : Option (Scope ν)} {next : Predicate ν σ}
    {query : Query ν σ} (options : Options ν σ) (fits : next.Fits ledger scope)
    (governed : query.predicate.toPlan.Governed ledger)
    (closed : Subselect.isRelative groups = false → query.predicate.toPlan.Closed) :
    Predicate.Made ledger scope (Subselect.hasSearch groups options query next) := by
  obtain ⟨predicate, reaches⟩ := query
  unfold Subselect.hasSearch
  cases predicate with
  | alwaysFalse => exact Predicate.made_pure Predicate.fits_alwaysFalse
  | alwaysTrue => exact Predicate.made_andThen fits _ trivial fun _ _ _ _ => rfl
  | dynamic identity plan =>
    dsimp only at governed closed ⊢
    cases relative : Subselect.isRelative groups with
    | true => exact Predicate.made_andThen fits _ governed fun _ _ _ _ => rfl
    | false => exact Predicate.made_andThen fits _ governed fun _ => (closed relative).leadsTo _

theorem governs_has (bears : remembering → tree.Remembers)
    (governsScope : atScope.Governs tree remembering)
    (governs : ∀ group ∈ groups, ∀ item ∈ group, item.step.Governs tree remembering) :
    Governs tree remembering (Subselect.hasStep atScope groups) := by
  intro options scope careful next session result after given ledger within fits
  rw [Subselect.hasStep_eq] at given
  obtain ⟨query, between, compiled, searched⟩ := gives_bind.mp given
  have argument : ∃ wide, Ledger.Grows remembering ledger session wide between ∧
      query.predicate.toPlan.Governed wide ∧
        (Subselect.isRelative groups = false → query.predicate.toPlan.Closed) := by
    unfold Subselect.hasQuery at compiled
    split at compiled
    · next relative =>
      -- Nothing is remembered here, so it is no matter that the subject is referred to.
      have inner : options.embedded.unremembering.Careful tree remembering (some .subject) :=
        ⟨careful.tree_eq, careful.builtin, (nomatch ·), (nomatch ·)⟩
      obtain ⟨wide, grows, fitsQuery⟩ :=
        Prepared.fits_compile inner (fun _ => Predicate.fits_alwaysTrue) bears governsScope governs compiled within
      refine ⟨wide, grows, fitsQuery.governed, fun absolute => ?_⟩
      exact absurd (relative.symm.trans absolute) Bool.true_eq_false.mp
    · have inner : options.embedded.Careful tree remembering none :=
        ⟨careful.tree_eq, careful.builtin, careful.remembers, fun _ impossible => nomatch impossible⟩
      obtain ⟨wide, grows, fitsQuery⟩ :=
        Prepared.fits_compile inner (fun _ => Predicate.fits_alwaysTrue) bears governsScope governs compiled within
      exact ⟨wide, grows, fitsQuery.governed, fun _ => fitsQuery.closed fun impossible => nomatch impossible⟩
  obtain ⟨wide, grows, governed, closed⟩ := argument
  obtain ⟨fitsResult, grew⟩ :=
    made_hasSearch options (fits.extend grows.widened) governed closed between
  rw [gives_lift.mp searched] at fitsResult grew
  exact ⟨wide, grows.trans (Ledger.grows_of_grew remembering grows.within grew), fitsResult⟩

theorem governs_token (bears : remembering → tree.Remembers) {expand : SelectorList → Step ν σ}
    (each : ∀ selectors, (remembering → selectors.uses (· == "icontains") = false) →
      Governs tree remembering (expand selectors))
    (token : Token) (unfolded : remembering → token.uses (· == "icontains") = false) :
    Governs tree remembering (tokenStep expand token) := by
  induction token using Token.induct with
  | tag name space =>
    exact governs_guard fun options node => options.tree.name node ==
      if options.flags.foldsTags then Text.lower name else name
  | universal space => exact governs_pure id fun _ _ _ fits => fits
  | attr selector => exact governs_attribute selector
  | pseudoClass name argument => exact governs_pseudoClass bears each name unfolded argument
  | subselect name groups ih =>
    have governsScope := governs_pseudoClass bears each "scope" (fun _ => by decide) none
    have governs : ∀ group ∈ prepareGroups expand groups, ∀ item ∈ group,
        item.step.Governs tree remembering := by
      refine forall_prepareGroups fun group listed token member => ?_
      refine ih group listed token member fun remembers => ?_
      exact SelectorList.uses_of_mem (Token.uses_subselect_eq_false (unfolded remembers)).2 listed member
    rw [tokenStep]
    unfold subselectStep
    split
    · next kind _ =>
      cases kind with
      | anyOf => exact governs_anyOf bears governsScope governs
      | noneOf => exact governs_noneOf bears governsScope governs
      | has => exact governs_has bears governsScope governs
    · exact governs_throw _
  | pseudoElement name argument => exact governs_throw _
  | combinator kind => exact governs_combinator bears kind

theorem governs_expansion (bears : remembering → tree.Remembers) (depth : Nat)
    (selectors : SelectorList) (unfolded : remembering → selectors.uses (· == "icontains") = false) :
    Governs tree remembering (expansion (σ := σ) depth selectors) := by
  induction depth generalizing selectors with
  | zero => exact governs_throw _
  | succ depth ih =>
    refine governs_anyOf bears (governs_pseudoClass bears ih "scope" (fun _ => by decide) none) ?_
    exact forall_prepareGroups fun group listed token member => governs_token bears ih token
      fun remembers => SelectorList.uses_of_mem (unfolded remembers) listed member

end Step

/-- Nothing is recorded in tables that were not given out. -/
def Session.Tidy (session : Session σ) : Prop :=
  ∀ table key result, session.memo.find? table key = some result → table < session.supply

theorem Session.tidy_of_empty (host : σ) (supply : Nat) (journal : Journal) :
    Session.Tidy { host, supply, journal } := by
  intro table key result recorded
  rw [Memo.find_empty] at recorded
  cases recorded

namespace SelectorList

open CompileM

variable (options : Options ν σ) {selectors : SelectorList} {given : Option (MatchContext ν)}
  {session after : Session σ} {query : Query ν σ}

theorem grows_of_unchecked {remembering : Prop} {ledger : Ledger}
    (grow : ∀ {query : Query ν σ} {between},
      Gives (selectors.compileUnchecked options given) session query between →
        ∃ wider, Ledger.Grows remembering ledger session wider between ∧
          query.predicate.toPlan.Governed wider)
    (compiled : Gives (selectors.compile options given) session query after) :
    ∃ wider, Ledger.Grows remembering ledger session wider after ∧
      query.predicate.toPlan.Governed wider := by
  obtain ⟨unchecked, between, inner, rest⟩ := gives_bind.mp compiled
  obtain ⟨guarded, middle, guarding, made⟩ := gives_bind.mp rest
  obtain ⟨rfl, rfl⟩ := gives_pure.mp made
  obtain ⟨wider, grows, governed⟩ := grow inner
  have fits : unchecked.predicate.Fits wider (some .subject) :=
    ⟨governed, fun free => absurd rfl free⟩
  obtain ⟨fitsGuarded, grew⟩ := Predicate.made_guard fits (.holds options.tree.isElement) trivial
    (fun free => absurd rfl free) between
  rw [gives_lift.mp guarding] at fitsGuarded grew
  exact ⟨wider, grows.trans (Ledger.grows_of_grew _ grows.within grew), fitsGuarded.governed⟩

section

variable (builtin : options.custom = {}) (bears : options.flags.cacheResults = true → options.tree.Remembers)
  (unfolded : options.flags.cacheResults = true → selectors.uses (· == "icontains") = false)
  {ledger : Ledger} (within : ledger.bound ≤ session.supply)
include builtin bears unfolded within

theorem grows_compileUnchecked_of_fits (root : ∀ ledger scope, options.root.Fits ledger scope)
    (compiled : Gives (selectors.compileUnchecked options given) session query after) :
    ∃ wider, Ledger.Grows (options.flags.cacheResults = true) ledger session wider after ∧
      query.predicate.toPlan.Governed wider := by
  have expands := Step.governs_expansion (σ := σ) bears options.custom.aliasDepth
  have careful : options.Careful options.tree (options.flags.cacheResults = true)
      (Prepared.scopeOf options (given.map Scope.fixed)) :=
    ⟨rfl, builtin, id, fun _ => Prepared.scopeOf_ne_subject options given⟩
  have governs : ∀ group ∈ prepareGroups (expansion options.custom.aliasDepth) selectors,
      ∀ item ∈ group, item.step.Governs options.tree (options.flags.cacheResults = true) :=
    forall_prepareGroups fun group listed token member => Step.governs_token bears expands token
      fun remembers => uses_of_mem (unfolded remembers) listed member
  obtain ⟨wider, grows, fits⟩ := Prepared.fits_compile careful (root · _) bears
    (Step.governs_pseudoClass bears expands "scope" (fun _ => by decide) none) governs compiled within
  exact ⟨wider, grows, fits.governed⟩

theorem grows_compile_of_fits (root : ∀ ledger scope, options.root.Fits ledger scope)
    (compiled : Gives (selectors.compile options given) session query after) :
    ∃ wider, Ledger.Grows (options.flags.cacheResults = true) ledger session wider after ∧
      query.predicate.toPlan.Governed wider :=
  grows_of_unchecked options
    (grows_compileUnchecked_of_fits options builtin bears unfolded within root) compiled

end

theorem grows_compileUnchecked (builtin : options.custom = {}) (root : options.root = .alwaysTrue)
    (bears : options.flags.cacheResults = true → options.tree.Remembers)
    (unfolded : options.flags.cacheResults = true → selectors.uses (· == "icontains") = false)
    (compiled : Gives (selectors.compileUnchecked options given) session query after)
    {ledger : Ledger} (within : ledger.bound ≤ session.supply) :
    ∃ wider, Ledger.Grows (options.flags.cacheResults = true) ledger session wider after ∧
      query.predicate.toPlan.Governed wider :=
  grows_compileUnchecked_of_fits options builtin bears unfolded within
    (fun _ _ => root ▸ Predicate.fits_alwaysTrue) compiled

theorem grows_compile (builtin : options.custom = {}) (root : options.root = .alwaysTrue)
    (bears : options.flags.cacheResults = true → options.tree.Remembers)
    (unfolded : options.flags.cacheResults = true → selectors.uses (· == "icontains") = false)
    (compiled : Gives (selectors.compile options given) session query after)
    {ledger : Ledger} (within : ledger.bound ≤ session.supply) :
    ∃ wider, Ledger.Grows (options.flags.cacheResults = true) ledger session wider after ∧
      query.predicate.toPlan.Governed wider :=
  grows_compile_of_fits options builtin bears unfolded within
    (fun _ _ => root ▸ Predicate.fits_alwaysTrue) compiled

end SelectorList

def Session.ledger (session : Session σ) (tidy : session.Tidy) : Ledger where
  bound := session.supply
  allows table key result := session.memo.find? table key = some result
  inBound found := tidy _ _ _ found

namespace Ledger

variable {ledger : Ledger} {session after : Session σ}

theorem Keeps.tidy (keeps : ledger.Keeps session) (within : ledger.bound ≤ session.supply) :
    session.Tidy :=
  fun table key result found =>
    Nat.lt_of_lt_of_le (ledger.inBound (keeps table key result found)) within

theorem Grows.keeps {remembering : Prop} {tidy : session.Tidy}
    (grows : Grows remembering (session.ledger tidy) session ledger after) : ledger.Keeps after := by
  intro table key result found
  rw [grows.grew.memo] at found
  rw [grows.widened.allows table (tidy table key result found)]
  exact found

end Ledger

namespace Query

/-- Tested from the session on along any sequence of nodes, the query gives these answers, and the
session stays tidy. -/
def Answers (query : Query ν σ) (session : Session σ) (answer : ν → Bool) : Prop :=
  ∀ nodes : List ν, ∃ after, (nodes.mapM query.test).run session = (nodes.map answer, after) ∧
    after.Tidy

theorem Answers.unique {query : Query ν σ} {session : Session σ} {answer other : ν → Bool}
    (first : query.Answers session answer) (second : query.Answers session other) : answer = other := by
  funext node
  obtain ⟨_, run, _⟩ := first [node]
  obtain ⟨_, again, _⟩ := second [node]
  simpa using congrArg Prod.fst (run.symm.trans again)

theorem ensures_test {ledger : Ledger} {query : Query ν σ}
    (governed : query.predicate.toPlan.Governed ledger) (node : ν) :
    ledger.Ensures (query.test node) (· = query.predicate.passes none node) := by
  have run := Plan.ensures_run governed none node
  unfold Query.test Predicate.test
  cases found : query.predicate with
  | alwaysTrue => exact Ledger.ensures_pure rfl
  | alwaysFalse => exact Ledger.ensures_pure rfl
  | dynamic identity plan =>
    rw [found] at run
    exact run

theorem run_test_of_tableless {query : Query ν σ}
    (governed : query.predicate.toPlan.Governed .blank) (node : ν) (session : Session σ) :
    (query.test node).run session = (query.predicate.passes none node, session) := by
  have run := Plan.run_of_tableless governed rfl none node session
  unfold Query.test Predicate.test
  cases found : query.predicate with
  | alwaysTrue => rfl
  | alwaysFalse => rfl
  | dynamic identity plan =>
    rw [found] at run
    exact run

theorem answers_of_ensures {ledger : Ledger} {query : Query ν σ} {session : Session σ}
    (keeps : ledger.Keeps session) (within : ledger.bound ≤ session.supply) {answer : ν → Bool}
    (tests : ∀ node, ledger.Ensures (query.test node) (· = answer node)) :
    query.Answers session answer := by
  intro nodes
  obtain ⟨answers, after, run, rfl, keepsAfter, supply⟩ := Ledger.ensures_mapM tests nodes session keeps
  exact ⟨after, run, keepsAfter.tidy (by omega)⟩

theorem answers_of_governed {ledger : Ledger} {query : Query ν σ} {session : Session σ}
    (keeps : ledger.Keeps session) (within : ledger.bound ≤ session.supply)
    (governed : query.predicate.toPlan.Governed ledger) :
    query.Answers session (query.predicate.passes none) :=
  answers_of_ensures keeps within (ensures_test governed)

end Query
end SelectorEngine
