import SelectorEngine.Proofs.Compile.Documented
import SelectorEngine.Proofs.Compile.Foresight
import SelectorEngine.Proofs.Meaning.Visited

/-! Compiled selectors mean what their searches visit, in every forest and with `:scope` at any depth. -/
namespace SelectorEngine

variable {ν σ : Type}

/-- No abbreviation is left in the token after so many expansions. -/
def Token.ExpandsWithin (depth : Nat) (token : Token) : Prop :=
  token.uses (fun name => !Selector.expandsWithin depth name) = false

theorem Token.ExpandsWithin.inner {depth : Nat} {name : String} {groups : SelectorList}
    (expands : (Token.subselect name groups).ExpandsWithin depth) :
    ∀ group ∈ groups, ∀ token ∈ group, token.ExpandsWithin depth :=
  fun _ listed _ member =>
    SelectorList.uses_of_mem (Token.uses_subselect_eq_false expands).2 listed member

theorem Token.ExpandsWithin.abbreviated {depth : Nat} {name : String} {argument : Option String}
    {selectors : SelectorList} (stands : Selector.abbreviations.lookup name = some selectors)
    (expands : (Token.pseudoClass name argument).ExpandsWithin (depth + 1)) :
    ∀ group ∈ selectors, ∀ token ∈ group, token.ExpandsWithin depth := by
  have within : Selector.expandsWithin (depth + 1) name = true := by
    simpa [ExpandsWithin, Token.uses] using expands
  exact fun _ listed _ member =>
    SelectorList.uses_of_mem (Selector.uses_of_expandsWithin stands within) listed member

theorem Token.expandsWithin (token : Token) : token.ExpandsWithin Selector.abbreviations.length := by
  have every (name : String) : Selector.expandsWithin Selector.abbreviations.length name = true := by
    cases stands : Selector.abbreviations.lookup name with
    | some selectors => exact Selector.expandsWithin_abbreviations stands
    | none =>
      obtain ⟨steps, length⟩ : ∃ steps, Selector.abbreviations.length = steps + 1 := ⟨_, rfl⟩
      rw [length, Selector.expandsWithin, stands]
      rfl
  unfold ExpandsWithin
  simp only [every]
  exact token.uses_nothing

section Visited

variable (options : Options ν σ) (builtin : options.custom = {}) (forest : options.tree.IsForest)
  (identity : ∀ first second, options.same first second = true ↔ first = second)

include forest identity in
theorem mem_searchArea_iff_visits (siblings : Bool) (node found : ν) :
    found ∈ Subselect.searchArea options.toBasis siblings node ↔
      options.tree.Visits (siblings = true) node found := by
  unfold Subselect.searchArea
  rw [forest.mem_elementsFrom]
  apply exists_congr
  intro start
  rw [List.mem_append, ← and_assoc, ← and_assoc]
  apply and_congr_left'
  rw [and_comm]
  apply and_congr_right
  intro element
  apply or_congr_right
  cases siblings with
  | false => simp
  | true =>
    rw [if_pos rfl, TreeView.mem_nextSiblings forest identity]
    simp [element]

/-- What the argument of `:has()` is compiled to knows beforehand what was found out about the argument. -/
theorem Options.isKnown_iff {core : Options ν σ} (builtin : core.custom = {}) (same : core.core = core)
    (session : Session σ) {depth : Nat} {groups : SelectorList}
    (expands : ∀ group ∈ groups, ∀ token ∈ group, token.ExpandsWithin depth) :
    core.isKnown depth groups ↔ core.toBasis.KnowsArgument groups := by
  have foreseen : ∀ group ∈ prepareGroups (expansion depth) groups, Prepared.Foreseen core group :=
    forall_prepareGroups fun group listed token member =>
      Step.foreseen_token builtin _ (fun _ _ => Step.foreseen_expansion builtin)
        (expands group listed token member)
  have settles := Step.settles_hasQuery (Prepared.tells_survey _)
    (Step.foreseen_atScope builtin (expansion depth)) foreseen same
  rw [Subselect.isRelative_prepareGroups, Step.argumentFinding_survey, tokens_prepareGroups] at settles
  unfold isKnown Basis.KnowsArgument
  generalize Finding.choice (Token.surveyGroups core.toBasis.outlook (Selector.isRelative groups) groups) =
    finding at settles
  obtain ⟨verdict, refused⟩ := finding
  constructor
  · intro known
    obtain ⟨session, query, after, given, always⟩ := known
    obtain ⟨passed, asFound⟩ := settles.of_gives given
    rw [query.predicate.eq_alwaysTrue_iff, asFound] at always
    exact congrArg₂ Finding.mk always passed
  · intro found
    cases found
    obtain ⟨query, after, given, asFound⟩ := settles session
    exact ⟨session, query, after, given, query.predicate.eq_alwaysTrue_iff.mpr asFound⟩

include forest identity in
theorem reading_matches_visited (depth : Nat) :
    (options.core.reading depth).Matches options.tree.isElement (options.toBasis.visited depth) where
  basis := by
    rw [options.core.reading_basis, Basis.visited_basis]
    rfl
  leads kind node next := by
    rw [reading_leads_iff options forest identity, Basis.visited_leads]
  toElements kind node next reached :=
    ((reading_leads_iff options forest identity depth kind node next).mp reached).1
  relative := by rw [options.core.reading_relative, Basis.visited_relative]

include builtin forest identity in
theorem searched_iff_visits (session : Session σ) {depth : Nat} {groups : SelectorList}
    (expands : ∀ group ∈ groups, ∀ token ∈ group, token.ExpandsWithin depth) (node found : ν) :
    (options.core.reading depth).searched groups node found ↔
      (options.toBasis.visited depth).searched groups node found := by
  have coreBuiltin : options.core.custom = {} := builtin
  have known : options.core.isKnown depth groups ↔ options.toBasis.KnowsArgument groups :=
    Options.isKnown_iff coreBuiltin rfl session expands
  have area := mem_searchArea_iff_visits options forest identity
  rw [options.core.reading_searched, Basis.visited_searched, known]
  constructor
  · intro searched
    obtain ⟨siblings, inArea, chosen⟩ := searched
    rw [← propext chosen]
    exact (area siblings node found).mp inArea
  · intro visits
    classical
    obtain ⟨siblings, chosen⟩ : ∃ siblings : Bool, siblings = true ↔
        Selector.reachesSiblings groups = true ∧ ¬ options.toBasis.KnowsArgument groups :=
      ⟨decide _, decide_eq_true_iff⟩
    rw [← propext chosen] at visits
    exact ⟨siblings, (area siblings node found).mpr visits, chosen⟩

include builtin forest identity in
theorem part_alike_visited (session : Session σ) (depth : Nat) (token : Token)
    (expands : token.ExpandsWithin depth) (context : Option (MatchContext ν)) :
    ((options.core.reading depth).part context token).Alike options.tree.isElement
      ((options.toBasis.visited depth).part context token) := by
  refine options.core.reading_deepens.part_alike options.toBasis.visited_deepens
    (reading_matches_visited options forest identity) (fun _ _ _ expands => expands.inner)
    (fun _ _ _ _ stands expands => expands.abbreviated stands) ?_ depth token expands context
  intro depth name groups expands _ node found
  refine ⟨searched_iff_visits options builtin forest identity session expands.inner node found,
    fun searched => ?_⟩
  rw [Basis.visited_searched] at searched
  exact searched.isElement

end Visited
end SelectorEngine
