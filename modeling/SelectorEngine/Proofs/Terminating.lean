import SelectorEngine.Proofs.Compile.Ending
import SelectorEngine.Proofs.Tree.Growth

/-! Compiling comes to an end if aliases do not lead back to themselves, among them `:scope` where the caller
made it an alias and it is put in front of groups. -/
namespace SelectorEngine

variable {ν σ : Type}

open CompileM

namespace SelectorList

/-- Where aliases do not lead back to themselves, every token needs finitely many calls. Nested no deeper than
their number, they are never cut off, whatever the list, and compile it to what it is compiled to; so
compiling does not give up on endless aliases. -/
theorem compile_needs_finitely_many_calls (options : Options ν σ)
    (leadsNowhere : options.custom.aliases = [] ∨ options.custom.IsAcyclic) :
    ∃ calls : Token → Nat,
      (∀ token, calls token = 1 + ((token.callees options.custom).map calls).sum) ∧
      ∀ (selectors : SelectorList) (given : Option (MatchContext ν)),
        (∀ (cut : Step ν σ) (depth : Nat), calls Selector.scope ≤ depth →
          (∀ group ∈ selectors, ∀ token ∈ group, calls token ≤ depth) →
          selectors.compileCalling (callWithin cut depth) options given =
            selectors.compileUnchecked options given) ∧
        (options.custom.FiltersEnd → ∀ session,
          ¬ Fails (selectors.compile options given) session .endlessAlias) := by
  have acyclic : options.custom.IsAcyclic := leadsNowhere.elim CustomClasses.isAcyclic_of_no_aliases id
  obtain ⟨level, falls, low⟩ := acyclic.exists_level
  have below (token : Token) : token.StaysBelow options.custom level options.custom.aliasDepth :=
    fun name _ isAlias => low name isAlias
  obtain ⟨calls, count⟩ := exists_calls fun token => (below token).acc falls
  have reached (selectors : SelectorList) (given : Option (MatchContext ν)) (cut : Step ν σ) (depth : Nat)
      (scope : calls Selector.scope ≤ depth)
      (enough : ∀ group ∈ selectors, ∀ token ∈ group, calls token ≤ depth) :
      selectors.compileCalling (callWithin cut depth) options given =
        selectors.compileUnchecked options given := by
    have steps {token : Token} (enough : calls token ≤ depth) :=
      callWithin_eq falls count cut (below token) enough
    unfold compileCalling compileUnchecked
    dsimp only
    rw [Prepared.prepareGroups_eq_calling]
    exact Prepared.compile_calling_congr
      (fun group listed token member => steps (enough group listed token member)) rfl (steps scope) _
  refine ⟨calls, count, fun selectors given => ⟨reached selectors given, fun filtersEnd => ?_⟩⟩
  -- Cut off deep enough, and with another error, the compilation is the same and cannot fail for aliases.
  let cut : Step ν σ := fun _ _ _ => throw .relativeSelector
  have cutEnds : Step.Ends options.custom cut := fun _ _ _ _ => ends_throw CompileError.noConfusion
  let depth := calls Selector.scope + (selectors.flatten.map calls).sum
  have enough (group : Group) (listed : group ∈ selectors) (token : Token) (member : token ∈ group) :
      calls token ≤ depth :=
    (List.le_sum_of_mem (List.mem_map_of_mem (List.mem_flatten.mpr ⟨group, listed, member⟩))).trans
      (Nat.le_add_left _ _)
  refine selectors.ends_compile given ?_
  rw [← reached selectors given cut depth (Nat.le_add_right _ _) enough]
  exact selectors.ends_compileCalling given filtersEnd cutEnds depth

/-- `:menu` for `:link:has(> b)`, and `:any-link` for `a`, which `:link` is about then. -/
def menuClasses : CustomClasses ν σ where
  aliases := [
    ("menu", [[Selector.pseudo "link", Selector.pseudoOf "has" [[Selector.child, Selector.tag "b"]]]]),
    ("any-link", [[Selector.tag "a"]])]

theorem compile_needs_finitely_many_calls_for_menu :
    let options : Options Nat Unit :=
      { Options.ofTree Arena.withElementsInside.view with custom := menuClasses }
    let selectors : SelectorList := [[Selector.noneOf [[Selector.pseudo "menu"]]]]
    options.custom.IsAcyclic ∧
      (∃ depth, ∀ cut, selectors.compileCalling (callWithin cut depth) options none =
        selectors.compileUnchecked options none) ∧
      ∀ session, ¬ Fails (selectors.compile options none) session .endlessAlias := by
  have acyclic : (menuClasses : CustomClasses Nat Unit).IsAcyclic := by
    refine CustomClasses.isAcyclic_of_hasLevels
      (fun name => if name == "menu" then 2 else Selector.abbreviationLevel name) rfl ?_
    unfold CustomClasses.HasLevels
    decide
  obtain ⟨calls, _, each⟩ := compile_needs_finitely_many_calls
    { Options.ofTree Arena.withElementsInside.view with custom := menuClasses } (.inr acyclic)
  obtain ⟨reached, ends⟩ := each [[Selector.noneOf [[Selector.pseudo "menu"]]]] none
  let depth := calls Selector.scope + calls (Selector.noneOf [[Selector.pseudo "menu"]])
  have enough : ∀ group ∈ [[Selector.noneOf [[Selector.pseudo "menu"]]]], ∀ token ∈ group,
      calls token ≤ depth := by
    intro group listed token member
    obtain rfl := List.mem_singleton.mp listed
    obtain rfl := List.mem_singleton.mp member
    exact Nat.le_add_left _ _
  exact ⟨acyclic, ⟨depth, fun cut => reached cut depth (Nat.le_add_right _ _) enough⟩,
    ends fun _ none => nomatch none⟩

end SelectorList

section Endless

/-- `:scope` for `> a`, a group that `:scope` is put in front of. -/
def scopeClasses : CustomClasses ν σ where
  aliases := [("scope", [[Selector.child, Selector.tag "a"]])]

theorem Prepared.fails_compile {options : Options ν σ} {given : Option (Scope ν)} {atScope : Step ν σ}
    {groups : List (List (Prepared ν σ))} (accepted : refused groups options = false)
    {first : Prepared ν σ} {rest : List (Prepared ν σ)} {others : List (List (Prepared ν σ))}
    (completes : completed atScope groups options given = (first :: rest) :: others)
    (may : options.root.isAlwaysFalse = false) {session : Session σ} {error : CompileError}
    (fails : Fails (first.step options (scopeOf options given) options.root) session error) :
    Fails (compile atScope groups options given) session error := by
  rw [compile_eq, accepted, completes, if_neg Bool.false_ne_true, foldGroups, fold, may,
    if_neg Bool.false_ne_true]
  exact ((fails.bind _).bind _).bind _

variable {error : CompileError}

/-- With these pseudo-classes of the caller's, the step fails with the error. -/
def Step.AlwaysFails (custom : CustomClasses ν σ) (error : CompileError) (step : Step ν σ) : Prop :=
  ∀ options scope next session, options.custom = custom → Fails (step options scope next) session error

/-- Compiled as an argument, `> a` starts with the step of `:scope`. -/
theorem alwaysFails_anyOf {atScope : Step ν σ} (fails : Step.AlwaysFails scopeClasses error atScope)
    (call : Token → Step ν σ) : Step.AlwaysFails scopeClasses error
      (Subselect.anyOfStep atScope (Prepared.calling call [[Selector.child, Selector.tag "a"]])) := by
  intro options scope next session same
  have completes : Prepared.completed atScope
      (Prepared.calling call [[Selector.child, Selector.tag "a"]]) options.embedded.unanchored scope =
      [[⟨Selector.scope, atScope⟩, ⟨Selector.child, call Selector.child⟩,
        ⟨Selector.tag "a", call (Selector.tag "a")⟩]] := by
    unfold Prepared.completed
    cases (Prepared.scopeOf options.embedded.unanchored scope).any Scope.isCollection <;> rfl
  exact (Prepared.fails_compile rfl completes rfl (fails _ _ _ _ same)).bind _

/-- Where the caller made it an alias, `:scope` takes the step that its list expands to. -/
theorem alwaysFails_scope {expand : SelectorList → Step ν σ}
    (fails : Step.AlwaysFails scopeClasses error (expand [[Selector.child, Selector.tag "a"]])) :
    Step.AlwaysFails scopeClasses error (pseudoClassStep expand "scope" none) := by
  intro options scope next session same
  have stands : options.custom.aliases.lookup "scope" = some [[Selector.child, Selector.tag "a"]] := by
    rw [same]
    rfl
  unfold pseudoClassStep
  rw [stands]
  exact fails options scope next session same

theorem alwaysFails_callWithin (depth : Nat) : Step.AlwaysFails scopeClasses error
    (callWithin (fun _ _ _ => throw error) depth Selector.scope : Step ν σ) := by
  induction depth with
  | zero => exact fun _ _ _ _ _ => rfl
  | succ depth ih => exact alwaysFails_scope (alwaysFails_anyOf ih _)

theorem alwaysFails_expansion (depth : Nat) : Step.AlwaysFails scopeClasses .endlessAlias
    (expansion depth [[Selector.child, Selector.tag "a"]] : Step ν σ) := by
  induction depth with
  | zero => exact fun _ _ _ _ _ => rfl
  | succ depth ih =>
    rw [expansion, Prepared.prepareGroups_eq_calling]
    exact alwaysFails_anyOf (alwaysFails_scope ih) _

theorem fails_compile_scope {options : Options ν σ} (same : options.custom = scopeClasses)
    (free : options.context = none) (may : options.root.isAlwaysFalse = false) {step : Step ν σ}
    (fails : Step.AlwaysFails scopeClasses error step) (session : Session σ) :
    Fails (Prepared.compile step [[⟨Selector.scope, step⟩]] options none) session error := by
  have accepted : Prepared.refused [[⟨Selector.scope, step⟩]] options = false := Bool.and_false _
  have completes : Prepared.completed step [[⟨Selector.scope, step⟩]] options none =
      [[⟨Selector.scope, step⟩]] := by
    have unscoped : Prepared.scopeOf options none = none := by rw [Prepared.scopeOf, free]; rfl
    unfold Prepared.completed
    rw [Prepared.anchors_eq_false free, unscoped]
    cases options.flags.relativeSelector <;> rfl
  exact Prepared.fails_compile accepted completes may (fails _ _ _ _ same)

/-- `:scope` is not in what it stands for, nor is any other alias: but what it stands for is anchored at it. The
calls do not come to an end, and are cut off at every depth. -/
theorem scope_alias_never_ends :
    let options : Options Nat Unit :=
      { Options.ofTree Arena.withElementsInside.view with custom := scopeClasses }
    (∀ name, ¬ Relation.TransGen options.custom.Mentions name name) ∧
      (¬ ∃ calls : Token → Nat, ∀ token,
        calls token = 1 + ((token.callees options.custom).map calls).sum) ∧
      ∀ session,
        (∀ depth error, Fails (SelectorList.compileCalling (callWithin (fun _ _ _ => throw error) depth)
          [[Selector.scope]] options none) session error) ∧
        Fails (SelectorList.compile [[Selector.scope]] options none) session .endlessAlias := by
  intro options
  refine ⟨?_, ?_, fun session => ⟨fun depth error => ?_, ?_⟩⟩
  · have levels : (scopeClasses : CustomClasses Nat Unit).HasLevels Selector.abbreviationLevel := by
      unfold CustomClasses.HasLevels
      decide
    exact not_transGen_self fun _ _ mentions => levels.falls mentions
  · intro ⟨calls, count⟩
    have again : calls Selector.scope =
        1 + ([Selector.scope, Selector.child, Selector.tag "a"].map calls).sum := count Selector.scope
    rw [List.map_cons, List.sum_cons] at again
    omega
  · exact fails_compile_scope rfl rfl rfl (alwaysFails_callWithin depth) session
  · have failing : Step.AlwaysFails scopeClasses .endlessAlias
        (scopeStep (expansion options.custom.aliasDepth) : Step Nat Unit) :=
      alwaysFails_scope (alwaysFails_expansion _)
    have same : options.custom = scopeClasses := rfl
    exact (fails_compile_scope same rfl rfl failing session).bind _

end Endless

end SelectorEngine
