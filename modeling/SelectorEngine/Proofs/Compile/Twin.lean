import SelectorEngine.Proofs.Compile.Extension

/-! Predicates that are tested alike. Whatever is put in front of two of them, they stay alike; so a list that
is compiled for one root is tested like the same list compiled for a root that is tested like it. -/
namespace SelectorEngine

variable {ν σ : Type}

/-- The same answer known beforehand, or the same identity and plans that run alike. -/
inductive Predicate.Twin : Predicate ν σ → Predicate ν σ → Prop
  | alwaysTrue : Twin .alwaysTrue .alwaysTrue
  | alwaysFalse : Twin .alwaysFalse .alwaysFalse
  | dynamic (identity : Nat) {plan other : Plan ν σ} (same : plan.run none = other.run none) :
      Twin (.dynamic identity plan) (.dynamic identity other)

namespace Predicate.Twin

variable {first second third fourth : Predicate ν σ}

theorem isAlwaysFalse (twin : first.Twin second) : first.isAlwaysFalse = second.isAlwaysFalse := by
  cases twin <;> rfl

theorem sameAs (twin : first.Twin second) (twin' : third.Twin fourth) :
    first.sameAs third = second.sameAs fourth := by
  cases twin <;> cases twin' <;> rfl

theorem test (twin : first.Twin second) : first.test = second.test := by
  cases twin with
  | alwaysTrue => rfl
  | alwaysFalse => rfl
  | dynamic identity same => exact same

/-- Both actions give twins and end in one session. -/
def Made (action other : SessionM σ (Predicate ν σ)) : Prop :=
  ∀ session, (action.run session).1.Twin (other.run session).1 ∧
    (action.run session).2 = (other.run session).2

theorem made_pure (twin : first.Twin second) : Made (pure first : SessionM σ (Predicate ν σ)) (pure second) :=
  fun _ => ⟨twin, rfl⟩

theorem made_ofPlan {plan other : Plan ν σ} (same : plan.run none = other.run none) :
    Made (ofPlan plan) (ofPlan other) :=
  fun session => ⟨.dynamic session.supply same, rfl⟩

theorem refl (predicate : Predicate ν σ) : predicate.Twin predicate := by
  cases predicate with
  | alwaysTrue => exact .alwaysTrue
  | alwaysFalse => exact .alwaysFalse
  | dynamic identity plan => exact .dynamic identity rfl

theorem symm (twin : first.Twin second) : second.Twin first := by
  cases twin with
  | alwaysTrue => exact .alwaysTrue
  | alwaysFalse => exact .alwaysFalse
  | dynamic identity same => exact .dynamic identity same.symm

theorem run_both {plan plan' other other' : Plan ν σ} (same : plan.run none = plan'.run none)
    (same' : other.run none = other'.run none) :
    (Plan.both plan other).run none = (Plan.both plan' other').run none := by
  funext node
  rw [Plan.run, Plan.run, same, same']

theorem made_guard (twin : first.Twin second) (check : Plan ν σ) :
    Made (first.guard check) (second.guard check) := by
  cases twin with
  | alwaysTrue => exact made_ofPlan rfl
  | alwaysFalse => exact made_pure .alwaysFalse
  | dynamic identity same => exact made_ofPlan (run_both rfl same)

theorem made_andThen (twin : first.Twin second) (check : Plan ν σ) :
    Made (first.andThen check) (second.andThen check) := by
  cases twin with
  | alwaysTrue => exact made_ofPlan rfl
  | alwaysFalse => exact made_pure .alwaysFalse
  | dynamic identity same => exact made_ofPlan (run_both same rfl)

theorem made_and (before : Predicate ν σ) (twin : first.Twin second) :
    Made (before.and first) (before.and second) := by
  cases before with
  | alwaysTrue => cases twin <;> exact made_pure (by constructor <;> assumption)
  | alwaysFalse => exact made_pure .alwaysFalse
  | dynamic other plan =>
    cases twin with
    | alwaysTrue => exact made_pure (refl _)
    | alwaysFalse => exact made_pure .alwaysFalse
    | dynamic identity same => exact made_ofPlan (run_both rfl same)

theorem made_or (twin : first.Twin second) (twin' : third.Twin fourth) :
    Made (first.or third) (second.or fourth) := by
  cases twin with
  | alwaysTrue => cases twin' <;> exact made_pure .alwaysTrue
  | alwaysFalse => cases twin' <;> exact made_pure (by constructor <;> assumption)
  | dynamic identity same =>
    cases twin' with
    | alwaysTrue => exact made_pure .alwaysTrue
    | alwaysFalse => exact made_pure (.dynamic identity same)
    | dynamic other same' =>
      refine made_ofPlan ?_
      funext node
      rw [Plan.run, Plan.run, same, same']

theorem made_union {start start' : Predicate ν σ} (twin : first.Twin second) (twin' : third.Twin fourth)
    (rooted : start.Twin start') : Made (first.union third start) (second.union fourth start') := by
  unfold union
  rw [twin.isAlwaysFalse, twin'.isAlwaysFalse, twin.sameAs rooted, twin'.sameAs rooted]
  split
  · exact made_pure twin
  · split
    · exact made_pure twin'
    · exact made_or twin twin'

theorem made_walk (kind : Combinator) (options : Options ν σ) {plan other : Plan ν σ}
    (same : plan.run none = other.run none) :
    Made (combinatorWalk kind options plan) (combinatorWalk kind options other) := by
  unfold combinatorWalk
  split
  · intro session
    refine made_ofPlan ?_ { session with supply := session.supply + 1 }
    funext node
    rw [Plan.run, Plan.run, same]
  · refine made_ofPlan ?_
    funext node
    rw [Plan.run, Plan.run, same]

theorem made_apply (extension : Extension ν σ) (twin : first.Twin second) :
    Made (extension.apply first) (extension.apply second) := by
  cases extension with
  | nothing => exact made_pure twin
  | never => exact made_pure .alwaysFalse
  | guard check => exact made_guard twin check
  | andThen check => exact made_andThen twin check
  | and before => exact made_and before twin
  | walk kind options =>
    unfold Extension.apply
    dsimp only
    rw [twin.isAlwaysFalse]
    split
    · exact made_pure .alwaysFalse
    · refine made_walk kind options ?_
      cases twin with
      | alwaysTrue => rfl
      | alwaysFalse => rfl
      | dynamic identity same => exact same

end Predicate.Twin

namespace CompileM

variable {α β γ δ : Type}

/-- What the first compilation gives, the second gives a counterpart of, and both end in one session. -/
def Follows (related : α → β → Prop) (first : CompileM σ α) (second : CompileM σ β) : Prop :=
  ∀ session value after, Gives first session value after →
    ∃ counterpart, Gives second session counterpart after ∧ related value counterpart

theorem follows_pure {related : α → β → Prop} {value : α} {counterpart : β}
    (pair : related value counterpart) :
    Follows related (pure value : CompileM σ α) (pure counterpart : CompileM σ β) := by
  intro session result after given
  obtain ⟨rfl, rfl⟩ := gives_pure.mp given
  exact ⟨counterpart, gives_pure.mpr ⟨rfl, rfl⟩, pair⟩

theorem follows_throw (related : α → β → Prop) (error : CompileError) (second : CompileM σ β) :
    Follows related (throw error : CompileM σ α) second :=
  fun _ _ _ given => absurd given gives_throw

theorem follows_lift {action other : SessionM σ (Predicate ν σ)} (made : Predicate.Twin.Made action other) :
    Follows Predicate.Twin (liftM action : CompileM σ (Predicate ν σ)) (liftM other) := by
  intro session result after given
  obtain ⟨twin, ended⟩ := made session
  rw [gives_lift.mp given] at twin ended
  exact ⟨_, gives_lift.mpr (Prod.ext rfl ended.symm), twin⟩

theorem follows_bind {related : α → β → Prop} {kept : γ → δ → Prop} {first : CompileM σ α}
    {second : CompileM σ β} {next : α → CompileM σ γ} {further : β → CompileM σ δ}
    (start : Follows related first second)
    (rest : ∀ value counterpart, related value counterpart →
      Follows kept (next value) (further counterpart)) :
    Follows kept (first >>= next) (second >>= further) := by
  intro session result after given
  obtain ⟨value, between, started, ended⟩ := gives_bind.mp given
  obtain ⟨counterpart, gives, pair⟩ := start session value between started
  obtain ⟨last, givesLast, pairLast⟩ := rest value counterpart pair between result after ended
  exact ⟨last, gives_bind.mpr ⟨counterpart, between, gives, givesLast⟩, pairLast⟩

end CompileM

open CompileM

variable {options : Options ν σ} (builtin : options.custom = {}) {root : Predicate ν σ}

include builtin in
theorem Step.Extends.follows {step : Step ν σ} (extend : step.Extends) (scope : Option (Scope ν))
    {next other : Predicate ν σ} (twin : next.Twin other) :
    Follows Predicate.Twin (step options scope next) (step { options with root } scope other) := by
  intro session result after given
  rcases extend options builtin scope session with ⟨error, fails⟩ | ⟨extension, between, _, gives⟩
  · exact absurd (fails options.root next) given.not_fails
  · cases given.symm.trans (gives options.root next)
    obtain ⟨twins, ended⟩ := twin.made_apply extension between
    rw [ended]
    exact ⟨_, gives root other, twins⟩

namespace Prepared

include builtin

theorem follows_fold (scope : Option (Scope ν)) {group : List (Prepared ν σ)}
    (extend : ∀ item ∈ group, item.step.Extends) {start other : Predicate ν σ} (twin : start.Twin other) :
    Follows Predicate.Twin (fold options scope group start) (fold { options with root } scope group other) := by
  induction group generalizing start other with
  | nil => exact follows_pure twin
  | cons first rest ih =>
    obtain ⟨head, tail⟩ := List.forall_mem_cons.mp extend
    rw [fold, fold, twin.isAlwaysFalse]
    split
    · exact follows_pure twin
    · exact follows_bind (head.follows builtin scope twin) fun _ _ twins => ih tail twins

theorem follows_foldGroups (rooted : options.root.Twin root) (scope : Option (Scope ν))
    {groups : List (List (Prepared ν σ))} (extend : ∀ group ∈ groups, ∀ item ∈ group, item.step.Extends)
    {united other : Predicate ν σ} (twin : united.Twin other) :
    Follows Predicate.Twin (foldGroups options scope groups united)
      (foldGroups { options with root } scope groups other) := by
  induction groups generalizing united other with
  | nil => exact follows_pure twin
  | cons group rest ih =>
    obtain ⟨head, tail⟩ := List.forall_mem_cons.mp extend
    refine follows_bind (follows_fold builtin scope head rooted) fun predicate partner twins => ?_
    exact follows_bind (follows_lift (twin.made_union twins rooted)) fun _ _ union => ih tail union

theorem follows_compile (rooted : options.root.Twin root) {atScope : Step ν σ}
    (extendScope : atScope.Extends) {groups : List (List (Prepared ν σ))}
    (extend : ∀ group ∈ groups, ∀ item ∈ group, item.step.Extends) (given : Option (Scope ν)) :
    Follows (fun query other => query.predicate.Twin other.predicate) (compile atScope groups options given)
      (compile atScope groups { options with root } given) := by
  have all := forall_completed options given extend extendScope Step.extends_combinator
  rw [compile_eq, compile_eq]
  change Follows _ _ (if refused groups options then _ else
    foldGroups { options with root } (scopeOf options given) (completed atScope groups options given)
      .alwaysFalse >>= _)
  split
  · exact follows_throw _ _ _
  · exact follows_bind (follows_foldGroups builtin rooted _ all .alwaysFalse)
      fun _ _ twins => follows_pure twins

end Prepared

include builtin in
/-- Two roots that are tested alike make no difference to what is compiled for them. -/
theorem SelectorList.follows_compile (rooted : options.root.Twin root) (selectors : SelectorList)
    (given : Option (MatchContext ν)) :
    Follows (fun query other => query.test = other.test) (selectors.compile options given)
      (selectors.compile { options with root } given) := by
  refine follows_bind (Prepared.follows_compile builtin rooted (Step.extends_atScope _)
    (extends_prepareGroups _ selectors) _) fun query other twin => ?_
  exact follows_bind (follows_lift (twin.made_guard _)) fun _ _ twins =>
    follows_pure (funext fun node => congrFun twins.test node)

end SelectorEngine
