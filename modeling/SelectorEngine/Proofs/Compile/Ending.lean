import SelectorEngine.Proofs.Compile.Calling

/-! Compilations that do not give up on aliases that stand for one another without end. Everything but an
expansion that is cut off keeps from that, so steps made by calls do if the step they are cut off with does. -/
namespace SelectorEngine

variable {ν σ : Type}

namespace CompileM

variable {α β : Type}

/-- Started in any session, the compilation does not give up on endless aliases. -/
def Ends (action : CompileM σ α) : Prop := ∀ session, ¬ Fails action session .endlessAlias

theorem ends_pure (value : α) : Ends (pure value : CompileM σ α) :=
  fun _ => (gives_pure.mpr ⟨rfl, rfl⟩).not_fails

theorem ends_throw {error : CompileError} (other : error ≠ .endlessAlias) :
    Ends (throw error : CompileM σ α) := by
  intro session failed
  cases failed
  exact other rfl

theorem ends_lift (action : SessionM σ α) : Ends (liftM action : CompileM σ α) :=
  fun _ => (gives_lift.mpr rfl).not_fails

theorem ends_bind {action : CompileM σ α} {next : α → CompileM σ β} (first : Ends action)
    (rest : ∀ value, Ends (next value)) : Ends (action >>= next) := by
  intro session failed
  rcases gives_or_fails action session with ⟨value, between, given⟩ | ⟨error, early⟩
  · rcases gives_or_fails (next value) between with ⟨result, after, ended⟩ | ⟨error, late⟩
    · exact (gives_bind.mpr ⟨value, between, given, ended⟩).not_fails failed
    · have whole := given.bind_fails late
      cases whole.symm.trans failed
      exact rest value between late
  · have whole := early.bind next
    cases whole.symm.trans failed
    exact first session early

end CompileM

open CompileM

/-- With these pseudo-classes of the caller's, the step does not give up on endless aliases. -/
def Step.Ends (custom : CustomClasses ν σ) (step : Step ν σ) : Prop :=
  ∀ options scope next, options.custom = custom → CompileM.Ends (step options scope next)

/-- No filter of the caller's gives up on endless aliases. -/
def CustomClasses.FiltersEnd (custom : CustomClasses ν σ) : Prop :=
  ∀ entry ∈ custom.filters, ∀ next argument basis, CompileM.Ends (entry.2 next argument basis)

variable {custom : CustomClasses ν σ}

namespace Step

theorem ends_attribute (selector : AttributeSelector) : Step.Ends custom (attributeStep selector) := by
  intro options scope next _
  unfold attributeStep
  dsimp only
  split
  · exact ends_pure _
  · exact ends_lift _

theorem ends_combinator (kind : Combinator) : Step.Ends custom (combinatorStep kind) := by
  intro options scope next _
  rw [combinatorStep_eq]
  split
  · exact ends_throw CompileError.noConfusion
  · split
    · exact ends_pure _
    · exact ends_lift _

theorem ends_need (name : String) (argument : Option String) :
    CompileM.Ends (BuiltinFilter.needArgument name argument : CompileM σ String) := by
  cases argument with
  | none => exact ends_throw CompileError.noConfusion
  | some text => exact ends_pure text

theorem ends_verify (name : String) (taken : Bool) (argument : Option String) :
    CompileM.Ends (verifyArgument name taken argument : CompileM σ Unit) := by
  unfold verifyArgument
  split
  · exact ends_throw CompileError.noConfusion
  · exact ends_throw CompileError.noConfusion
  · exact ends_pure _

theorem ends_counting (how : Counting) (name formula : String) : Step.Ends custom (how.step name formula) := by
  intro options scope next _
  unfold Counting.step
  split
  · exact ends_throw CompileError.noConfusion
  · exact ends_pure _
  · exact ends_lift _
  · exact ends_lift _

theorem ends_filter (filter : BuiltinFilter) (name : String) (argument : Option String) :
    Step.Ends custom (filter.step name argument) := by
  intro options scope next same
  cases filter with
  | contains => exact ends_bind (ends_need name argument) fun _ => ends_lift _
  | containsFolded => exact ends_bind (ends_need name argument) fun _ => ends_lift _
  | counting how =>
    exact ends_bind (ends_need name argument) fun formula => ends_counting how name formula options scope next same
  | root => exact ends_lift _
  | scope =>
    change CompileM.Ends (BuiltinFilter.scopeStep options scope next)
    unfold BuiltinFilter.scopeStep
    split
    · exact ends_lift _
    · exact ends_lift _
    · split <;> exact ends_lift _
  | state which =>
    change CompileM.Ends (if _ then _ else _)
    split
    · exact ends_lift _
    · exact ends_pure _
  | lang => exact ends_bind (ends_need name argument) fun _ => ends_attribute _ options scope next same

theorem ends_pseudoClass (filtersEnd : custom.FiltersEnd) {expand : SelectorList → Step ν σ}
    (expands : ∀ selectors, Step.Ends custom (expand selectors)) (name : String) (argument : Option String) :
    Step.Ends custom (pseudoClassStep expand name argument) := by
  intro options scope next same
  unfold pseudoClassStep
  split
  · exact ends_bind (ends_verify name false argument) fun _ => expands _ options scope next same
  · split
    · next filter found =>
      rw [same] at found
      obtain ⟨before, after, split, _⟩ := List.lookup_eq_some_iff.mp found
      exact filtersEnd (name, filter) (by rw [split]; simp) next argument options.toBasis
    · split
      · exact ends_bind (ends_verify name _ argument) fun _ => ends_lift _
      · split
        · exact ends_bind (ends_verify name false argument) fun _ => expands _ options scope next same
        · split
          · exact ends_filter _ name argument options scope next same
          · split
            · exact ends_bind (ends_verify name false argument) fun _ => ends_lift _
            · split
              · exact ends_throw CompileError.noConfusion
              · exact ends_throw CompileError.noConfusion

end Step

namespace Prepared

variable {options : Options ν σ}

theorem ends_fold (same : options.custom = custom) (scope : Option (Scope ν)) {group : List (Prepared ν σ)}
    (ends : ∀ item ∈ group, Step.Ends custom item.step) (next : Predicate ν σ) :
    CompileM.Ends (fold options scope group next) := by
  induction group generalizing next with
  | nil => exact ends_pure next
  | cons first rest ih =>
    obtain ⟨head, tail⟩ := List.forall_mem_cons.mp ends
    rw [fold]
    split
    · exact ends_pure next
    · exact ends_bind (head options scope next same) (ih tail)

theorem ends_foldGroups (same : options.custom = custom) (scope : Option (Scope ν))
    {groups : List (List (Prepared ν σ))}
    (ends : ∀ group ∈ groups, ∀ item ∈ group, Step.Ends custom item.step) (united : Predicate ν σ) :
    CompileM.Ends (foldGroups options scope groups united) := by
  induction groups generalizing united with
  | nil => exact ends_pure united
  | cons group rest ih =>
    obtain ⟨head, tail⟩ := List.forall_mem_cons.mp ends
    rw [foldGroups]
    exact ends_bind (ends_fold same scope head options.root) fun _ =>
      ends_bind (ends_lift _) fun united => ih tail united

theorem ends_compile (same : options.custom = custom) {atScope : Step ν σ}
    (scopeEnds : Step.Ends custom atScope) {groups : List (List (Prepared ν σ))}
    (ends : ∀ group ∈ groups, ∀ item ∈ group, Step.Ends custom item.step) (given : Option (Scope ν)) :
    CompileM.Ends (compile atScope groups options given) := by
  have completed := forall_completed options given ends scopeEnds Step.ends_combinator
  rw [compile_eq]
  split
  · exact ends_throw CompileError.noConfusion
  · exact ends_bind (ends_foldGroups same _ completed _) fun _ => ends_pure _

end Prepared

theorem Subselect.ends_step (kind : Subselect) {atScope : Step ν σ} (scopeEnds : Step.Ends custom atScope)
    {groups : List (List (Prepared ν σ))}
    (ends : ∀ group ∈ groups, ∀ item ∈ group, Step.Ends custom item.step) :
    Step.Ends custom (kind.step atScope groups) := by
  intro options scope next same
  have argument (inner : Options ν σ) (kept : inner.custom = custom) (given : Option (Scope ν)) :
      CompileM.Ends (Prepared.compile atScope groups inner given) :=
    Prepared.ends_compile kept scopeEnds ends given
  cases kind with
  | anyOf => exact ends_bind (argument options.embedded.unanchored same scope) fun _ => ends_lift _
  | noneOf =>
    exact ends_bind (argument options.embedded.unanchored same scope) fun _ =>
      ends_bind (ends_lift _) fun _ => ends_lift _
  | has =>
    change CompileM.Ends (Subselect.hasStep atScope groups options scope next)
    rw [hasStep_eq]
    refine ends_bind ?_ fun _ => ends_lift _
    unfold hasQuery
    split
    · exact argument options.embedded.unremembering same (some .subject)
    · exact argument options.embedded same none

theorem Prepared.ends_calling {call : Token → Step ν σ} (ends : ∀ token, Step.Ends custom (call token))
    (groups : SelectorList) : ∀ group ∈ calling call groups, ∀ item ∈ group, Step.Ends custom item.step := by
  intro group listed item member
  obtain ⟨original, _, rfl⟩ := List.mem_map.mp listed
  obtain ⟨token, _, rfl⟩ := List.mem_map.mp member
  exact ends token

theorem Token.ends_stepCalling (filtersEnd : custom.FiltersEnd) {call : Token → Step ν σ}
    (ends : ∀ token, Step.Ends custom (call token)) (token : Token) :
    Step.Ends custom (token.stepCalling call) := by
  have argument (kind : Subselect) (groups : SelectorList) :
      Step.Ends custom (kind.step (call Selector.scope) (Prepared.calling call groups)) :=
    kind.ends_step (ends _) (Prepared.ends_calling ends groups)
  induction token using Token.induct with
  | tag name space => exact fun _ _ _ _ => ends_lift _
  | universal space => exact fun _ _ next _ => ends_pure next
  | attr selector => exact Step.ends_attribute selector
  | pseudoClass name text => exact Step.ends_pseudoClass filtersEnd (argument .anyOf) name text
  | subselect name groups _ =>
    rw [stepCalling]
    cases Subselect.ofName? name with
    | none => exact fun _ _ _ _ => ends_throw CompileError.noConfusion
    | some kind => exact argument kind groups
  | pseudoElement name text => exact fun _ _ _ _ => ends_throw CompileError.noConfusion
  | combinator kind => exact Step.ends_combinator kind

theorem ends_callWithin (filtersEnd : custom.FiltersEnd) {cut : Step ν σ} (cutEnds : Step.Ends custom cut)
    (depth : Nat) (token : Token) : Step.Ends custom (callWithin cut depth token) := by
  induction depth generalizing token with
  | zero => exact cutEnds
  | succ depth ih => exact token.ends_stepCalling filtersEnd ih

namespace SelectorList

variable {options : Options ν σ} (selectors : SelectorList) (given : Option (MatchContext ν))

theorem ends_compileCalling (filtersEnd : options.custom.FiltersEnd) {cut : Step ν σ}
    (cutEnds : Step.Ends options.custom cut) (depth : Nat) :
    CompileM.Ends (selectors.compileCalling (callWithin cut depth) options given) := by
  have ends (token : Token) := ends_callWithin filtersEnd cutEnds depth token
  exact Prepared.ends_compile rfl (ends Selector.scope) (Prepared.ends_calling ends selectors) _

theorem ends_compile (unchecked : CompileM.Ends (selectors.compileUnchecked options given)) :
    CompileM.Ends (selectors.compile options given) :=
  ends_bind unchecked fun _ => ends_bind (ends_lift _) fun _ => ends_pure _

end SelectorList

end SelectorEngine
