import SelectorEngine.Proofs.Compile.Meaning
import SelectorEngine.Proofs.Meaning.Region

/-! Compiled selectors mean what the documentation says. In a forest the walks and searches of a compiled
selector lead where the documented reading does; for `:has()`, as long as its argument does not mention
`:scope` and no node that is not an element stands inside the tree. -/
namespace SelectorEngine

variable {ν σ : Type}

/-- `:has()` and the abbreviations that stand for something with `:has()`. -/
def Selector.searches (name : String) : Bool :=
  name == "has" || name == "selected" || name == "checked"

/-- If the token searches at any depth, it does not mention `:scope`, and what stands inside the tree
are elements. -/
def Token.SearchesPlainly (tree : TreeView ν) (token : Token) : Prop :=
  token.uses Selector.searches = true → tree.HasSolidInside ∧ token.mentionsScope = false

theorem Token.SearchesPlainly.inner {tree : TreeView ν} {name : String} {groups : SelectorList}
    (plainly : (Token.subselect name groups).SearchesPlainly tree) {group : Group}
    (listed : group ∈ groups) {token : Token} (member : token ∈ group) :
    token.SearchesPlainly tree := by
  intro searches
  have uses : (Token.subselect name groups).uses Selector.searches = true := by
    rw [Token.uses, Token.anyGroupUses_eq_any, Bool.or_eq_true]
    exact .inr (List.any_eq_true.mpr ⟨group, listed, List.any_eq_true.mpr ⟨token, member, searches⟩⟩)
  obtain ⟨solid, unmentioned⟩ := plainly uses
  refine ⟨solid, ?_⟩
  rw [Token.mentionsScope_eq_uses] at unmentioned ⊢
  exact SelectorList.uses_of_mem (Token.uses_subselect_eq_false unmentioned).2 listed member

theorem Token.SearchesPlainly.argument {tree : TreeView ν} {name : String} {groups : SelectorList}
    (plainly : (Token.subselect name groups).SearchesPlainly tree)
    (has : Subselect.ofName? name = some .has) :
    tree.HasSolidInside ∧ ∀ group ∈ groups, Selector.IsAnchorable group := by
  have named := Subselect.eq_has has
  have searches : (Token.subselect name groups).uses Selector.searches = true := by
    rw [Token.uses, named]
    rfl
  obtain ⟨solid, unmentioned⟩ := plainly searches
  rw [Token.mentionsScope_eq_uses] at unmentioned
  refine ⟨solid, fun group listed => .inr fun token member => ?_⟩
  rw [Token.mentionsScope_eq_uses]
  exact SelectorList.uses_of_mem (Token.uses_subselect_eq_false unmentioned).2 listed member

theorem Token.SearchesPlainly.abbreviated {tree : TreeView ν} {name : String}
    {argument : Option String} {selectors : SelectorList}
    (stands : Selector.abbreviations.lookup name = some selectors)
    (plainly : (Token.pseudoClass name argument).SearchesPlainly tree) {group : Group}
    (listed : group ∈ selectors) {token : Token} (member : token ∈ group) :
    token.SearchesPlainly tree := by
  have searching : Selector.IsSelfContained Selector.searches := by decide
  have scopeless : Selector.IsSelfContained (· == "scope") := by decide
  have other : (name == "scope") = false := by
    cases is : name == "scope" with
    | false => rfl
    | true =>
      rw [beq_iff_eq.mp is] at stands
      cases stands
  intro searches
  have searchesName : Selector.searches name = true := by
    by_contra never
    have unused := searching.uses_eq_false stands (Bool.eq_false_iff.mpr never)
    rw [SelectorList.uses_of_mem unused listed member] at searches
    cases searches
  refine ⟨(plainly searchesName).1, ?_⟩
  rw [Token.mentionsScope_eq_uses]
  exact SelectorList.uses_of_mem (scopeless.uses_eq_false stands other) listed member

namespace Basis

variable (basis : Basis ν) (depth : Nat)

theorem documented_leads (kind : Combinator) (node other : ν) :
    (basis.documented depth).leads kind node other ↔
      basis.tree.isElement other = true ∧ kind.Relates basis.tree node other := by
  cases depth <;> exact Iff.rfl

theorem documented_basis : (basis.documented depth).basis = basis := by
  cases depth <;> rfl

theorem documented_searched (groups : SelectorList) (node found : ν) :
    (basis.documented depth).searched groups node found ↔ basis.tree.isElement found = true ∧
      basis.tree.InArea (Selector.reachesSiblings groups) node found := by
  cases depth <;> exact Iff.rfl

theorem documented_relative : (basis.documented depth).relative = Selector.isRelative := by
  cases depth <;> rfl

end Basis

theorem Options.reading_deepens (core : Options ν σ) : Reading.Deepens core.reading where
  never := rfl
  deeper _ := rfl

section Bridge

variable (options : Options ν σ) (builtin : options.custom = {}) (forest : options.tree.IsForest)
  (identity : ∀ first second, options.same first second = true ↔ first = second)
  (outside : ∃ node, options.tree.isElement node = false)

include forest identity in
theorem mem_searchArea (solid : options.tree.HasSolidInside) (siblings : Bool) (node found : ν) :
    found ∈ Subselect.searchArea options.toBasis siblings node ↔
      options.tree.isElement found = true ∧ options.tree.InArea siblings node found := by
  unfold Subselect.searchArea TreeView.InArea
  rw [TreeView.elementsFrom_append, List.mem_append, forest.mem_elementsFrom_children solid]
  cases siblings with
  | false =>
    rw [if_neg Bool.false_ne_true, forest.mem_elementsFrom]
    simp
  | true =>
    have elements (sibling : ν)
        (listed : sibling ∈ options.tree.nextSiblings options.same node) :
        options.tree.isElement sibling = true :=
      ((TreeView.mem_nextSiblings forest identity node sibling).mp listed).1
    rw [if_pos rfl, forest.mem_elementsFrom_elements solid elements, ← and_or_left]
    simp only [TreeView.mem_nextSiblings forest identity, true_and, and_assoc]

include builtin forest identity outside in
/-- A relative argument whose groups start at the scope is never known to match beforehand: at a node
that is no element, nothing is at the scope. -/
theorem not_isKnown {groups : SelectorList} (relative : Selector.isRelative groups = true)
    (anchorable : ∀ group ∈ groups, Selector.IsAnchorable group) (depth : Nat) :
    ¬ options.core.isKnown depth groups := by
  intro known
  obtain ⟨session, query, after, compiled, always⟩ := known
  obtain ⟨node, other⟩ := outside
  have coreBuiltin : options.core.custom = {} := builtin
  have realized := SelectorList.realized_prepareGroups coreBuiltin depth groups
  unfold Subselect.hasQuery at compiled
  rw [Subselect.isRelative_prepareGroups, relative, if_pos rfl] at compiled
  have same : options.core.embedded.unremembering.core = options.core := rfl
  have meant := Prepared.passes_compile options.core.embedded.unremembering (some node) same rfl rfl
    (Step.realizes_atScope coreBuiltin (options.core.reading depth)
      (options.core.reading_basis depth) (expansion depth))
    (options.core.reading_leads depth) realized compiled (fun _ => rfl) node
  rw [always, tokens_prepareGroups, Reading.someHolds_iff] at meant
  obtain ⟨group, listed, holds⟩ := meant.mp rfl
  obtain ⟨opening, kind, rest, written, isScope, _⟩ := Selector.exists_opening (anchorable group listed)
  have holds : (options.core.reading depth).Holds (some (.node node))
      (Selector.written false true group) node := holds
  rw [written] at holds
  obtain ⟨start, found, leads, atScope⟩ := Reading.exists_atScope_of_holds isScope holds
  rw [Reading.atScope_node, options.core.reading_basis] at atScope
  rw [options.core.reading_leads] at leads
  have element := ((kind.mem_reach forest identity start found).mp leads).1
  have itself : node = found := (identity node found).mp atScope
  rw [← itself, other] at element
  cases element

include forest identity in
theorem reading_leads_iff (depth : Nat) (kind : Combinator) (node next : ν) :
    (options.core.reading depth).leads kind node next ↔
      options.tree.isElement next = true ∧ kind.Relates options.tree node next := by
  rw [options.core.reading_leads]
  exact kind.mem_reach forest identity node next

include forest identity in
theorem reading_matches (depth : Nat) :
    (options.core.reading depth).Matches options.tree.isElement (options.toBasis.documented depth) where
  basis := by
    rw [options.core.reading_basis, Basis.documented_basis]
    rfl
  leads kind node next := by
    rw [reading_leads_iff options forest identity, Basis.documented_leads]
  toElements kind node next reached :=
    ((reading_leads_iff options forest identity depth kind node next).mp reached).1
  relative := by rw [options.core.reading_relative, Basis.documented_relative]

include builtin forest identity outside in
theorem searched_iff (solid : options.tree.HasSolidInside) (depth : Nat) {groups : SelectorList}
    (anchorable : ∀ group ∈ groups, Selector.IsAnchorable group) (node found : ν) :
    (options.core.reading depth).searched groups node found ↔
      (options.toBasis.documented depth).searched groups node found := by
  have known : Selector.reachesSiblings groups = true → ¬ options.core.isKnown depth groups := by
    intro reaches
    rw [Selector.reachesSiblings, Bool.and_eq_true] at reaches
    exact not_isKnown options builtin forest identity outside reaches.1 anchorable depth
  rw [options.core.reading_searched, Basis.documented_searched,
    ← mem_searchArea options forest identity solid]
  constructor
  · intro known
    obtain ⟨siblings, inArea, chosen⟩ := known
    have same : siblings = Selector.reachesSiblings groups := by
      rw [Bool.eq_iff_iff, chosen]
      exact and_iff_left_of_imp known
    rwa [← same]
  · intro inArea
    exact ⟨_, inArea, (and_iff_left_of_imp known).symm⟩

include builtin forest identity outside in
private theorem searched_alike (depth : Nat) (name : String) (groups : SelectorList)
    (plainly : (Token.subselect name groups).SearchesPlainly options.tree)
    (has : Subselect.ofName? name = some .has) (node found : ν) :
    ((options.core.reading depth).searched groups node found ↔
      (options.toBasis.documented depth).searched groups node found) ∧
    ((options.toBasis.documented depth).searched groups node found →
      options.tree.isElement found = true) := by
  obtain ⟨solid, anchorable⟩ := plainly.argument has
  refine ⟨searched_iff options builtin forest identity outside solid depth anchorable node found, ?_⟩
  rw [Basis.documented_searched]
  exact And.left

include builtin forest identity outside in
theorem part_alike (depth : Nat) (token : Token) (plainly : token.SearchesPlainly options.tree)
    (context : Option (MatchContext ν)) :
    ((options.core.reading depth).part context token).Alike options.tree.isElement
      ((options.toBasis.documented depth).part context token) := by
  refine options.core.reading_deepens.part_alike options.toBasis.documented_deepens
    (reading_matches options forest identity) (fun _ _ _ plainly _ listed _ member =>
      plainly.inner listed member) (fun _ _ _ _ stands plainly _ listed _ member =>
        plainly.abbreviated stands listed member)
    (searched_alike options builtin forest identity outside) depth token plainly context

include builtin forest identity outside in
theorem someHolds_iff_documented (depth : Nat) {selectors : SelectorList}
    (plainly : ∀ group ∈ selectors, ∀ token ∈ group, token.SearchesPlainly options.tree)
    (context : Option (MatchContext ν)) (anchored : Bool) {node : ν}
    (element : options.tree.isElement node = true) :
    (options.core.reading depth).someHolds context anchored selectors node ↔
      (options.toBasis.documented depth).someHolds context anchored selectors node :=
  (reading_matches options forest identity depth).someHolds_iff anchored
    (fun group listed token member => part_alike options builtin forest identity outside depth token
      (plainly group listed token member) context) element

end Bridge
end SelectorEngine
