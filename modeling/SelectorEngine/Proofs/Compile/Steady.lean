import Mathlib.Tactic.Choose
import SelectorEngine.Proofs.Compile.Agreement
import SelectorEngine.Proofs.Match.Calls

/-! Compiling where nothing is remembered and checks note their calls. A group is compiled to the same plan
wherever it is compiled, alone or in a list, and whenever the plan is run on a node it makes the same calls. -/
namespace SelectorEngine

variable {ν σ κ : Type}

namespace Plan

/-- On every node the plan has an answer, and calls that it makes, whatever was remembered and called before. -/
def IsSteady (plan : Plan ν (List κ)) : Prop :=
  ∀ subject node, ∃ answer calls, Calls (plan.run subject node) answer calls

namespace IsSteady

variable {first second : Plan ν (List κ)}

theorem holds (property : ν → Bool) : (Plan.holds property : Plan ν (List κ)).IsSteady :=
  fun _ node => ⟨property node, [], calls_pure _⟩

theorem isSubject (same : ν → ν → Bool) : (Plan.isSubject same : Plan ν (List κ)).IsSteady :=
  fun subject node => ⟨subject.any (same · node), [], calls_pure _⟩

theorem asks {note : ν → κ} {answer : ν → Bool} {check : ν → StateM (List κ) Bool}
    (notes : ∀ node, check node = noting (note node) (answer node)) : (Plan.asks check).IsSteady := by
  intro subject node
  refine ⟨answer node, [note node], ?_⟩
  rw [run, notes]
  exact calls_ask _ _

theorem both (left : first.IsSteady) (right : second.IsSteady) : (Plan.both first second).IsSteady := by
  intro subject node
  obtain ⟨answer, calls, start⟩ := left subject node
  obtain ⟨result, further, rest⟩ := right subject node
  exact ⟨_, _, calls_both start rest⟩

theorem either (left : first.IsSteady) (right : second.IsSteady) : (Plan.either first second).IsSteady := by
  intro subject node
  obtain ⟨answer, calls, start⟩ := left subject node
  obtain ⟨result, further, rest⟩ := right subject node
  exact ⟨_, _, calls_either start rest⟩

theorem negation (steady : first.IsSteady) : (Plan.negation first).IsSteady := by
  intro subject node
  obtain ⟨answer, calls, inner⟩ := steady subject node
  exact ⟨_, _, calls_negation inner⟩

theorem leadsTo (reach : ν → List ν) (steady : first.IsSteady) : (Plan.leadsTo reach first).IsSteady := by
  intro subject node
  choose answer calls each using steady subject
  exact ⟨_, _, calls_anyM fun reached _ => each reached⟩

theorem asSubject (reach : ν → List ν) (steady : first.IsSteady) :
    (Plan.asSubject reach first).IsSteady := by
  intro _ node
  choose answer calls each using steady (some node)
  exact ⟨_, _, calls_anyM fun reached _ => each reached⟩

end IsSteady
end Plan

/-- Being one and the same steady plan. -/
def Kinship.steady : Kinship ν (List κ) where
  related plan other := plan = other ∧ plan.IsSteady
  symm same := ⟨same.1.symm, same.1 ▸ same.2⟩
  trans same same' := ⟨same.1.trans same'.1, same.2⟩
  holds property := ⟨rfl, .holds property⟩
  isSubject same := ⟨rfl, .isSubject same⟩
  both same same' := ⟨by rw [same.1, same'.1], same.2.both same'.2⟩
  either same same' := ⟨by rw [same.1, same'.1], same.2.either same'.2⟩
  negation same := ⟨congrArg Plan.negation same.1, same.2.negation⟩
  leadsTo reach _ _ same := ⟨congrArg (Plan.leadsTo reach) same.1, same.2.leadsTo reach⟩
  asSubject reach _ _ same := ⟨congrArg (Plan.asSubject reach) same.1, same.2.asSubject reach⟩
  remembers := False
  under impossible := impossible.elim
  inherited impossible := impossible.elim

/-- A check of the caller's that was called. -/
structure Call (ν : Type) where
  name : String
  argument : Option String
  node : ν
deriving DecidableEq, Repr

/-- The caller's checks answer by the node and the argument alone and note when they are called. -/
def CustomClasses.NoteCalls (custom : CustomClasses ν (List (Call ν))) : Prop :=
  ∀ entry ∈ custom.checks, ∃ answer : ν → Option String → Bool,
    ∀ node argument, entry.2.check node argument = noting ⟨entry.1, argument, node⟩ (answer node argument)

theorem Kinship.knows_of_noteCalls {custom : CustomClasses ν (List (Call ν))} (plain : custom.filters = [])
    (noted : custom.NoteCalls) : Kinship.steady.Knows custom where
  filters := plain
  checks entry listed argument := by
    obtain ⟨answer, notes⟩ := noted entry listed
    exact ⟨rfl, .asks fun node => notes node argument⟩

namespace Prepared

open CompileM

theorem refused_eq_any (groups : List (List (Prepared ν σ))) (options : Options ν σ) :
    refused groups options = groups.any fun group => refused [group] options := by
  unfold refused
  cases options.flags.relativeSelector <;> simp [Function.comp_def]

theorem foldGroups_singleton {options : Options ν σ} (root : options.root = .alwaysTrue)
    (scope : Option (Scope ν)) (group : List (Prepared ν σ)) :
    foldGroups options scope [group] .alwaysFalse = fold options scope group .alwaysTrue := by
  rw [foldGroups, root]
  refine Eq.trans (congrArg _ (funext fun predicate => ?_)) (bind_pure _)
  cases predicate <;> rfl

/-- A group that is compiled alone is folded as it is in a list. -/
theorem fold_of_compile_singleton {options : Options ν σ} (root : options.root = .alwaysTrue)
    {atScope : Step ν σ} {group : List (Prepared ν σ)} {given : Option (Scope ν)} {session after : Session σ}
    {query : Query ν σ} (compiled : Gives (compile atScope [group] options given) session query after) :
    refused [group] options = false ∧
      Gives (fold options (scopeOf options given) (complete atScope options.flags.relativeSelector
        (anchors options given) ((scopeOf options given).any Scope.isCollection) group) .alwaysTrue)
        session query.predicate after := by
  rw [compile_eq, completed, List.map_singleton, foldGroups_singleton root] at compiled
  split at compiled
  · exact absurd compiled gives_throw
  · next accepted =>
    obtain ⟨predicate, between, folded, rest⟩ := gives_bind.mp compiled
    obtain ⟨rfl, rfl⟩ := gives_pure.mp rest
    exact ⟨Bool.not_eq_true _ ▸ accepted, folded⟩

/-- The groups are asked in turn, after what they are united with, until one of them passes. -/
theorem exists_foldGroups {options : Options ν (List κ)} (root : options.root = .alwaysTrue)
    {scope : Option (Scope ν)} {α : Type} {items : List α} {made : α → List (Prepared ν (List κ))}
    {answer : α → ν → Bool} {calls : α → ν → List κ}
    (folds : ∀ item ∈ items, ∀ session, ∃ identity plan after,
      Gives (fold options scope (made item) .alwaysTrue) session (.dynamic identity plan) after ∧
        ∀ node, Calls (plan.run none node) (answer item node) (calls item node))
    {united : Predicate ν (List κ)} {passed : ν → Bool} {called : ν → List κ}
    (start : ∀ node, Calls (united.test node) (passed node) (called node)) (session : Session (List κ)) :
    ∃ predicate after, Gives (foldGroups options scope (items.map made) united) session predicate after ∧
      ∀ node, Calls (predicate.test node) (passed node || items.any (answer · node))
        (called node ++ if passed node then []
          else (throughFirst (answer · node) items).flatMap (calls · node)) := by
  induction items generalizing united passed called session with
  | nil =>
    refine ⟨united, session, gives_pure.mpr ⟨rfl, rfl⟩, fun node => ?_⟩
    rw [List.any_nil, Bool.or_false, throughFirst, List.flatMap_nil, ite_self, List.append_nil]
    exact start node
  | cons item rest ih =>
    obtain ⟨head, tail⟩ := List.forall_mem_cons.mp folds
    obtain ⟨identity, plan, between, folded, tests⟩ := head session
    have union := Predicate.calls_union start tests identity between
    obtain ⟨predicate, after, others, answers⟩ := ih tail union
      ((united.union (.dynamic identity plan) .alwaysTrue).run between).2
    refine ⟨predicate, after, ?_, fun node => ?_⟩
    · rw [List.map_cons, foldGroups, root]
      exact gives_bind.mpr ⟨_, between, folded, gives_bind.mpr ⟨_, _, gives_lift.mpr rfl, others⟩⟩
    · have found := answers node
      rw [List.any_cons, ← Bool.or_assoc, flatMap_throughFirst_cons]
      cases passes : passed node <;> cases next : answer item node <;> simpa [passes, next] using found

end Prepared

/-- A group with its steps as it is folded in a list. -/
def Options.whole (options : Options ν σ) (given : Option (MatchContext ν)) (group : Group) :
    List (Prepared ν σ) :=
  let expand := expansion options.custom.aliasDepth
  let scope := given.map Scope.fixed
  Prepared.complete (scopeStep expand) options.flags.relativeSelector (Prepared.anchors options scope)
    ((Prepared.scopeOf options scope).any Scope.isCollection) (prepareGroup expand group)

namespace SelectorList

open CompileM

/-- Wherever the group is folded, it gives a predicate to be tested that answers and calls like this. -/
structure FoldsTo (options : Options ν (List κ)) (given : Option (MatchContext ν)) (group : Group)
    (answer : ν → Bool) (calls : ν → List κ) : Prop where
  accepted : Prepared.refused [prepareGroup (expansion options.custom.aliasDepth) group] options = false
  folds : ∀ session, ∃ identity plan after,
    Gives (Prepared.fold options (Prepared.scopeOf options (given.map Scope.fixed))
      (options.whole given group) .alwaysTrue) session (.dynamic identity plan) after ∧
      ∀ node, Calls (plan.run none node) (answer node) (calls node)

/-- The list asks its groups in turn. -/
theorem exists_compileUnchecked {options : Options ν (List κ)} (root : options.root = .alwaysTrue)
    {selectors : SelectorList} {given : Option (MatchContext ν)} {answer : Group → ν → Bool}
    {calls : Group → ν → List κ}
    (each : ∀ group ∈ selectors, FoldsTo options given group (answer group) (calls group))
    (session : Session (List κ)) :
    ∃ query after, Gives (selectors.compileUnchecked options given) session query after ∧
      ∀ node, Calls (query.test node) (selectors.any (answer · node))
        ((throughFirst (answer · node) selectors).flatMap (calls · node)) := by
  let expand : SelectorList → Step ν (List κ) := expansion options.custom.aliasDepth
  have accepted : Prepared.refused (prepareGroups expand selectors) options = false := by
    rw [Prepared.refused_eq_any, prepareGroups_eq_map, List.any_map, List.any_eq_false]
    exact fun group listed => Bool.eq_false_iff.mp (each group listed).accepted
  have never (node : ν) : Calls ((Predicate.alwaysFalse : Predicate ν (List κ)).test node) false [] :=
    calls_pure false
  obtain ⟨predicate, after, folded, tests⟩ :=
    Prepared.exists_foldGroups root (fun group listed => (each group listed).folds) never session
  have compiled : Gives (selectors.compileUnchecked options given) session ⟨predicate,
      Prepared.amongSiblings (scopeStep expand) (prepareGroups expand selectors) options
        (given.map Scope.fixed)⟩ after := by
    unfold compileUnchecked
    rw [Prepared.compile_eq, if_neg (Bool.eq_false_iff.mp accepted), Prepared.completed, prepareGroups_eq_map,
      List.map_map]
    exact gives_bind.mpr ⟨predicate, after, folded, gives_pure.mpr ⟨rfl, rfl⟩⟩
  exact ⟨_, after, compiled, tests⟩

theorem FoldsTo.alone {options : Options ν (List κ)} (root : options.root = .alwaysTrue) {group : Group}
    {given : Option (MatchContext ν)} {answer : ν → Bool} {calls : ν → List κ}
    (folds : FoldsTo options given group answer calls) (session : Session (List κ)) :
    ∃ query after, Gives (compileUnchecked [group] options given) session query after ∧
      ∀ node, Calls (query.test node) (answer node) (calls node) := by
  have each : ∀ other ∈ [group], FoldsTo options given other answer calls :=
    List.forall_mem_singleton.mpr folds
  simpa [throughFirst] using exists_compileUnchecked root each session

/-- A group that gives a predicate to be tested gives the same steady plan wherever it is folded. -/
theorem exists_foldsTo {options : Options ν (List (Call ν))} (root : options.root = .alwaysTrue)
    (forgets : options.flags.cacheResults = false) (plain : options.custom.filters = [])
    (noted : options.custom.NoteCalls) {group : Group} {given : Option (MatchContext ν)}
    {session after : Session (List (Call ν))} {query : Query ν (List (Call ν))}
    (compiled : Gives (compileUnchecked [group] options given) session query after)
    (isDynamic : query.predicate.isDynamic = true) :
    ∃ answer calls, FoldsTo options given group answer calls := by
  have suits : options.Suits .steady options.core :=
    ⟨rfl, fun remembers => absurd (forgets.symm.trans remembers) Bool.false_ne_true⟩
  have knows : Kinship.steady.Knows options.core.custom := Kinship.knows_of_noteCalls plain noted
  have uniform : ∀ item ∈ options.whole given group, item.step.Uniform .steady options.core :=
    Prepared.forall_completed options (given.map Scope.fixed)
      (Step.uniform_prepareGroups knows options.custom.aliasDepth [group])
      (Step.uniform_atScope knows options.custom.aliasDepth) Step.uniform_combinator _ List.mem_cons_self
  have agree := Prepared.agree_fold suits suits (Prepared.scopeOf options (given.map Scope.fixed)) uniform
    .alwaysTrue
  obtain ⟨accepted, folded⟩ := Prepared.fold_of_compile_singleton root compiled
  obtain ⟨predicate, reaches⟩ := query
  cases predicate with
  | alwaysTrue => cases isDynamic
  | alwaysFalse => cases isDynamic
  | dynamic identity plan =>
    have again (other : Session (List (Call ν))) : ∃ identity' ended, Gives (Prepared.fold options
        (Prepared.scopeOf options (given.map Scope.fixed)) (options.whole given group) .alwaysTrue) other
        (.dynamic identity' plan) ended ∧ plan.IsSteady := by
      obtain ⟨counterpart, ended, gives, kin⟩ := agree.gives folded other
      cases kin with
      | dynamic _ identity' same => exact ⟨identity', ended, same.1 ▸ gives, same.2⟩
    obtain ⟨_, _, _, steady⟩ := again session
    choose answer calls tests using steady none
    refine ⟨answer, calls, accepted, fun other => ?_⟩
    obtain ⟨identity', ended, gives, _⟩ := again other
    exact ⟨identity', plan, ended, gives, tests⟩

end SelectorList
end SelectorEngine
