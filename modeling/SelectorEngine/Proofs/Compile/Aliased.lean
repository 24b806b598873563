import SelectorEngine.Proofs.Compile.Meaning
import SelectorEngine.Proofs.Meaning.Abbreviation
import SelectorEngine.Proofs.Selector.Spelled

/-! Compiling with pseudo-classes of the caller's. They matter to the steps of tokens alone, so a list
compiles as it does without them from the steps that bring them along. With nothing but an alias, such a step
is the built-in one of the same token, at any depth but for the alias itself: that is the step of `:is()` of
its list, which expands aliases to one level less. -/
namespace SelectorEngine

variable {ν σ : Type}

def Options.withClasses (custom : CustomClasses ν σ) (options : Options ν σ) : Options ν σ :=
  { options with custom }

theorem Options.withClasses_self {options : Options ν σ} {custom : CustomClasses ν σ}
    (same : options.custom = custom) : options.withClasses custom = options := by
  rw [← same]
  rfl

/-- The step with these pseudo-classes of the caller's, whatever ones the options have. -/
def Step.withClasses (custom : CustomClasses ν σ) (step : Step ν σ) : Step ν σ := fun options =>
  step (options.withClasses custom)

namespace Prepared

variable (custom : CustomClasses ν σ)

def withClasses (item : Prepared ν σ) : Prepared ν σ := ⟨item.token, item.step.withClasses custom⟩

@[simp] theorem tokens_map_withClasses (group : List (Prepared ν σ)) :
    tokens (group.map (withClasses custom)) = tokens group := by
  rw [tokens, List.map_map]
  rfl

theorem fold_withClasses (options : Options ν σ) (scope : Option (Scope ν)) (group : List (Prepared ν σ))
    (start : Predicate ν σ) :
    fold (options.withClasses custom) scope group start =
      fold options scope (group.map (withClasses custom)) start := by
  induction group generalizing start with
  | nil => rfl
  | cons first rest ih =>
    rw [List.map_cons, fold, fold]
    split
    · rfl
    · exact congrArg _ (funext ih)

theorem foldGroups_withClasses (options : Options ν σ) (scope : Option (Scope ν))
    (groups : List (List (Prepared ν σ))) (united : Predicate ν σ) :
    foldGroups (options.withClasses custom) scope groups united =
      foldGroups options scope (groups.map (List.map (withClasses custom))) united := by
  induction groups generalizing united with
  | nil => rfl
  | cons group rest ih =>
    rw [List.map_cons, foldGroups, foldGroups, fold_withClasses]
    refine congrArg _ (funext fun predicate => ?_)
    exact congrArg _ (funext ih)

private theorem arrange_withClasses (group : List (Prepared ν σ)) :
    arrange (fun item => item.token.rank) (group.map (withClasses custom)) =
      (arrange (fun item => item.token.rank) group).map (withClasses custom) :=
  arrange_map (fun item : Prepared ν σ => item.token.rank) (withClasses custom) group

private theorem anchor_withClasses (atScope : Step ν σ) (anchored : Bool) (group : List (Prepared ν σ)) :
    anchor (atScope.withClasses custom) anchored (group.map (withClasses custom)) =
      (anchor atScope anchored group).map (withClasses custom) := by
  rw [anchor, anchor, List.map_append, tokens_map_withClasses]
  cases Selector.front anchored (tokens group) <;> rfl

private theorem widen_withClasses (group : List (Prepared ν σ)) :
    widen (group.map (withClasses custom)) = (widen group).map (withClasses custom) := by
  rcases group with _ | ⟨first, _ | ⟨second, rest⟩⟩
  · rfl
  · rfl
  · have below := congrArg Selector.startsBelowScope (tokens_map_withClasses custom (first :: second :: rest))
    change (if Selector.startsBelowScope (tokens ((first :: second :: rest).map (withClasses custom))) then _
      else _) = (if Selector.startsBelowScope (tokens (first :: second :: rest)) then _ else _ :
        List (Prepared ν σ)).map (withClasses custom)
    rw [below]
    split <;> rfl

theorem complete_withClasses (atScope : Step ν σ) (relative anchored collection : Bool)
    (group : List (Prepared ν σ)) :
    complete (atScope.withClasses custom) relative anchored collection (group.map (withClasses custom)) =
      (complete atScope relative anchored collection group).map (withClasses custom) := by
  unfold complete
  dsimp only
  cases relative <;> cases collection <;>
    simp only [Bool.false_eq_true, if_true, if_false, arrange_withClasses, anchor_withClasses,
      widen_withClasses]

theorem compile_withClasses (atScope : Step ν σ) (groups : List (List (Prepared ν σ)))
    (options : Options ν σ) (given : Option (Scope ν)) :
    compile atScope groups (options.withClasses custom) given =
      compile (atScope.withClasses custom) (groups.map (List.map (withClasses custom))) options given := by
  have refuses : refused (groups.map (List.map (withClasses custom))) options = refused groups options := by
    simp only [refused, List.map_map, Function.comp_def, arrange_withClasses, List.any_map,
      tokens_map_withClasses]
  have completes : completed (atScope.withClasses custom) (groups.map (List.map (withClasses custom))) options
      given = (completed atScope groups options given).map (List.map (withClasses custom)) := by
    simp only [completed, List.map_map, Function.comp_def, complete_withClasses]
  have reaches : amongSiblings (atScope.withClasses custom) (groups.map (List.map (withClasses custom)))
      options given = amongSiblings atScope groups options given := by
    simp only [amongSiblings, List.any_map, Function.comp_def, complete_withClasses, tokens_map_withClasses]
  rw [compile_eq, compile_eq, refuses, completes, reaches, ← foldGroups_withClasses]
  rfl

end Prepared

namespace Subselect

variable (custom : CustomClasses ν σ) (atScope : Step ν σ) (groups : List (List (Prepared ν σ)))

theorem step_withClasses (kind : Subselect) :
    (kind.step atScope groups).withClasses custom =
      kind.step (atScope.withClasses custom) (groups.map (List.map (Prepared.withClasses custom))) := by
  funext options scope next
  have relative : isRelative (groups.map (List.map (Prepared.withClasses custom))) = isRelative groups := by
    simp only [isRelative, List.any_map, Function.comp_def, Prepared.withClasses]
  cases kind with
  | anyOf =>
    change anyOfStep atScope groups (options.withClasses custom) scope next =
      anyOfStep _ _ options scope next
    unfold anyOfStep
    rw [← Prepared.compile_withClasses]
    rfl
  | noneOf =>
    change noneOfStep atScope groups (options.withClasses custom) scope next =
      noneOfStep _ _ options scope next
    unfold noneOfStep
    rw [← Prepared.compile_withClasses]
    rfl
  | has =>
    change hasStep atScope groups (options.withClasses custom) scope next = hasStep _ _ options scope next
    have searches (query : Query ν σ) :
        hasSearch (groups.map (List.map (Prepared.withClasses custom))) options query next =
          hasSearch groups (options.withClasses custom) query next := by
      unfold hasSearch
      rw [relative]
      rfl
    rw [hasStep_eq, hasStep_eq, hasQuery, hasQuery, relative, ← Prepared.compile_withClasses,
      ← Prepared.compile_withClasses]
    simp only [searches]
    rfl

end Subselect

namespace Alias

/-- Pseudo-classes of the caller's that are nothing but the alias. -/
def classes (entry : Alias) : CustomClasses ν σ where
  aliases := [(entry.name, entry.list)]

section Unused

variable (entry : Alias) {expand expand' : SelectorList → Step ν σ}

theorem pseudoClassStep_classes {name : String} (different : (name == entry.name) = false)
    (argument : Option String)
    (each : ∀ selectors, Selector.abbreviations.lookup name = some selectors →
      (expand selectors).withClasses entry.classes = (expand' selectors).withClasses {}) :
    (pseudoClassStep expand name argument).withClasses entry.classes =
      (pseudoClassStep expand' name argument).withClasses {} := by
  funext options scope next
  have lacks : (entry.classes : CustomClasses ν σ).Lacks name := by
    refine ⟨?_, rfl, rfl⟩
    change List.lookup name [(entry.name, entry.list)] = none
    rw [List.lookup_cons, different]
    rfl
  change pseudoClassStep expand name argument (options.withClasses entry.classes) scope next =
    pseudoClassStep expand' name argument (options.withClasses {}) scope next
  rw [pseudoClassStep_builtin expand name argument lacks,
    pseudoClassStep_builtin expand' name argument (CustomClasses.lacks_of_empty rfl name)]
  cases stands : Selector.abbreviations.lookup name with
  | some selectors =>
    have same := congrFun (congrFun (congrFun (each selectors stands) options) scope) next
    exact congrArg (fun rest => verifyArgument name false argument >>= fun _ => rest) same
  | none =>
    cases BuiltinFilter.ofName? name with
    | some filter => cases filter <;> rfl
    | none => rfl

theorem scopeStep_classes :
    (scopeStep expand).withClasses entry.classes = (scopeStep expand').withClasses {} :=
  entry.pseudoClassStep_classes entry.ne_scope none fun _ stands => by cases stands

theorem prepareGroups_classes {groups : SelectorList}
    (each : ∀ group ∈ groups, ∀ token ∈ group,
      (tokenStep expand token).withClasses entry.classes = (tokenStep expand' token).withClasses {}) :
    (prepareGroups expand groups).map (List.map (Prepared.withClasses entry.classes)) =
      (prepareGroups expand' groups).map (List.map (Prepared.withClasses {})) := by
  simp only [prepareGroups_eq_map, List.map_map]
  refine List.map_congr_left fun group listed => ?_
  simp only [Function.comp_apply, prepareGroup_eq_map, List.map_map]
  exact List.map_congr_left fun token member => congrArg (Prepared.mk token) (each group listed token member)

theorem tokenStep_classes (isExpanded : String → Bool)
    (each : ∀ name selectors, Selector.abbreviations.lookup name = some selectors →
      isExpanded name = true →
        (expand selectors).withClasses entry.classes = (expand' selectors).withClasses {})
    {token : Token} (unused : token.uses (· == entry.name) = false)
    (expands : token.uses (fun name => !isExpanded name) = false) :
    (tokenStep expand token).withClasses entry.classes = (tokenStep expand' token).withClasses {} := by
  induction token using Token.induct with
  | pseudoClass name argument =>
    have expanded : isExpanded name = true := by simpa [Token.uses] using expands
    exact entry.pseudoClassStep_classes unused argument fun selectors stands =>
      each name selectors stands expanded
  | subselect name groups ih =>
    have same := entry.prepareGroups_classes fun group listed token member =>
      ih group listed token member
        (SelectorList.uses_of_mem (Token.uses_subselect_eq_false unused).2 listed member)
        (SelectorList.uses_of_mem (Token.uses_subselect_eq_false expands).2 listed member)
    rw [tokenStep, tokenStep, subselectStep, subselectStep]
    cases Subselect.ofName? name with
    | none => rfl
    | some kind =>
      dsimp only
      rw [Subselect.step_withClasses, Subselect.step_withClasses, same, entry.scopeStep_classes]
  | combinator kind => cases kind <;> rfl
  | _ => rfl

theorem unused_of_abbreviation {name : String} {selectors : SelectorList}
    (stands : Selector.abbreviations.lookup name = some selectors) :
    selectors.uses (· == entry.name) = false := by
  have builtin : ∀ listed ∈ Selector.abbreviations,
      SelectorList.uses (fun name => !Selector.isBuiltin name) listed.2 = false := by decide
  refine SelectorList.uses_eq_false_of_narrower (fun name known => ?_)
    (builtin _ (Selector.mem_abbreviations stands))
  refine Bool.eq_false_iff.mpr fun same => ?_
  rw [beq_iff_eq.mp same, entry.own] at known
  cases known

/-- What a built-in abbreviation stands for compiles as it does without the alias, expanded to any depth that
is enough. -/
theorem expansion_classes {steps : Nat} {name : String} {selectors : SelectorList}
    (stands : Selector.abbreviations.lookup name = some selectors)
    (expands : Selector.expandsWithin steps name = true) {depth depth' : Nat} (deep : steps ≤ depth)
    (deep' : steps ≤ depth') :
    (expansion depth selectors : Step ν σ).withClasses entry.classes =
      (expansion depth' selectors).withClasses {} := by
  induction steps generalizing name selectors depth depth' with
  | zero =>
    rw [Selector.expandsWithin, stands] at expands
    cases expands
  | succ steps ih =>
    obtain ⟨depth, rfl⟩ := Nat.exists_eq_add_of_lt deep
    obtain ⟨depth', rfl⟩ := Nat.exists_eq_add_of_lt deep'
    have unused := entry.unused_of_abbreviation stands
    have within := Selector.uses_of_expandsWithin stands expands
    have same := entry.prepareGroups_classes fun group listed token member =>
      entry.tokenStep_classes (Selector.expandsWithin steps)
        (fun _ _ stands expanded => ih stands expanded (Nat.le_add_right steps depth)
          (Nat.le_add_right steps depth'))
        (SelectorList.uses_of_mem unused listed member) (SelectorList.uses_of_mem within listed member)
    change (Subselect.anyOf.step _ _).withClasses _ = (Subselect.anyOf.step _ _).withClasses _
    rw [Subselect.step_withClasses, Subselect.step_withClasses, same, entry.scopeStep_classes]

/-- All abbreviations can be expanded to that depth. -/
theorem tokenStep_classes_of_deep {token : Token} (unused : token.uses (· == entry.name) = false)
    {depth : Nat} (deep : SelectorList.depth ≤ depth) :
    (tokenStep (expansion depth) token : Step ν σ).withClasses entry.classes =
      (tokenStep (expansion SelectorList.depth) token).withClasses {} :=
  entry.tokenStep_classes (fun _ => true)
    (fun _ _ stands _ => entry.expansion_classes stands (Selector.expandsWithin_abbreviations stands) deep
      (Nat.le_refl _))
    unused token.uses_nothing

end Unused

section Step

variable (entry : Alias)

/-- The step of a token as a list is compiled with the alias. -/
def step (token : Token) : Step ν σ :=
  (tokenStep (expansion (SelectorList.depth + 1)) token).withClasses entry.classes

def prepare (groups : SelectorList) : List (List (Prepared ν σ)) :=
  groups.map (List.map fun token => ⟨token, entry.step token⟩)

theorem tokens_prepare (groups : SelectorList) :
    (entry.prepare groups : List (List (Prepared ν σ))).map Prepared.tokens = groups := by
  simp [prepare, Prepared.tokens, Function.comp_def]

theorem map_withClasses_prepareGroups (groups : SelectorList) :
    (prepareGroups (expansion (SelectorList.depth + 1)) groups : List (List (Prepared ν σ))).map
      (List.map (Prepared.withClasses entry.classes)) = entry.prepare groups := by
  simp only [prepare, prepareGroups_eq_map, prepareGroup_eq_map, List.map_map, Function.comp_def]
  rfl

theorem step_of_unused {token : Token} (unused : token.uses (· == entry.name) = false) :
    entry.step token = (tokenStep (expansion SelectorList.depth) token : Step ν σ).withClasses {} :=
  entry.tokenStep_classes_of_deep unused (Nat.le_succ _)

private theorem step_pseudoClass (argument : Option String) :
    (entry.step (.pseudoClass entry.name argument) : Step ν σ) = fun options scope next =>
      verifyArgument entry.name false argument >>= fun _ =>
        expansion (SelectorList.depth + 1) entry.list (options.withClasses entry.classes) scope next := by
  have found : (entry.classes : CustomClasses ν σ).aliases.lookup entry.name = some entry.list :=
    List.lookup_cons_self
  funext options scope next
  change pseudoClassStep (expansion (SelectorList.depth + 1)) entry.name argument
    (options.withClasses entry.classes) scope next = _
  unfold pseudoClassStep
  rw [show (options.withClasses entry.classes).custom.aliases.lookup entry.name = some entry.list from found]

theorem step_name_some (text : String) : (entry.step (.pseudoClass entry.name (some text)) : Step ν σ) =
    fun _ _ _ => throw (.invalidArgument entry.name .unexpected) :=
  entry.step_pseudoClass (some text)

/-- The alias is the step of `:is()` of its list. -/
theorem step_name : (entry.step (.pseudoClass entry.name none) : Step ν σ) =
    (tokenStep (expansion SelectorList.depth) (.subselect "is" entry.list)).withClasses {} := by
  have same : (expansion (SelectorList.depth + 1) entry.list : Step ν σ).withClasses entry.classes =
      (tokenStep (expansion SelectorList.depth) (.subselect "is" entry.list)).withClasses {} :=
    entry.tokenStep_classes_of_deep entry.unused_anyOf (Nat.le_refl _)
  rw [← same]
  exact entry.step_pseudoClass none

theorem step_subselect (name : String) (groups : SelectorList) :
    (entry.step (.subselect name groups) : Step ν σ) =
      match Subselect.ofName? name with
      | some kind =>
        kind.step ((scopeStep (expansion SelectorList.depth)).withClasses {}) (entry.prepare groups)
      | none => fun _ _ _ => throw (.unknownPseudoClass name) := by
  rw [step, tokenStep, subselectStep]
  cases Subselect.ofName? name with
  | none => rfl
  | some kind =>
    dsimp only
    rw [Subselect.step_withClasses, map_withClasses_prepareGroups, entry.scopeStep_classes]

end Step

end Alias

namespace SelectorList

variable (entry : Alias)

/-- With the alias, a list compiles as it does without from the steps that bring the alias along. -/
theorem compileUnchecked_classes (selectors : SelectorList) (options : Options ν σ)
    (given : Option (MatchContext ν)) :
    selectors.compileUnchecked (options.withClasses entry.classes) given =
      Prepared.compile ((scopeStep (expansion depth)).withClasses {}) (entry.prepare selectors) options
        (given.map Scope.fixed) := by
  have deep : (options.withClasses entry.classes).custom.aliasDepth = depth + 1 := Nat.add_comm _ _
  unfold compileUnchecked
  rw [deep]
  dsimp only
  have atScope : (scopeStep (expansion (depth + 1)) : Step ν σ).withClasses entry.classes =
      (scopeStep (expansion depth)).withClasses {} := entry.scopeStep_classes
  rw [Prepared.compile_withClasses, atScope, entry.map_withClasses_prepareGroups]

end SelectorList
end SelectorEngine
