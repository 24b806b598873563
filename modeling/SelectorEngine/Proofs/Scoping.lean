import SelectorEngine.Proofs.Compile.Remembering
import SelectorEngine.Proofs.Compile.Visited
import SelectorEngine.Proofs.Meaning.Compound
import SelectorEngine.Proofs.Meaning.Elsewhere
import SelectorEngine.Proofs.Tree.Growth

/-! What `:scope` is inside of `:has()`. In an argument with combinators it is the node that is asked about,
at every depth. An argument without combinators of its own is searched without a scope; that makes no
difference as long as no list inside of it leads from another node to the scope. -/
namespace SelectorEngine

variable {ν σ : Type}

namespace Selector

theorem startsAmongSiblings_of_compound {group : Group}
    (compound : ∀ token ∈ group, token.isCombinator = false) :
    startsAmongSiblings (written false true group) = false := by
  rw [written_eq_append_of_compound compound]
  cases group.any Token.mentionsScope with
  | true =>
    change startsAmongSiblings group = false
    rw [startsAmongSiblings_eq, opening_eq_none compound]
    rfl
  | false => rfl

theorem reachesSiblings_iff (groups : SelectorList) : reachesSiblings groups = true ↔
    ∃ group ∈ groups, startsAmongSiblings (written false true group) = true := by
  cases relative : isRelative groups with
  | true =>
    rw [reachesSiblings, relative, Bool.true_and, List.any_eq_true]
    rfl
  | false =>
    rw [reachesSiblings, relative, Bool.false_and]
    refine iff_of_false Bool.false_ne_true fun some => ?_
    obtain ⟨group, listed, starts⟩ := some
    rw [startsAmongSiblings_of_compound (compound_of_isRelative relative listed)] at starts
    cases starts

/-- `:is(:scope > name)` -/
def childOfScope (name : String) : Group := [anyOf [[scope, child, tag name]]]

/-- `:scope + c, :is(:scope, *)` -/
def anyBesideScope : SelectorList :=
  [[scope, adjacent, tag "c"], [anyOf [[scope], [universal]]]]

end Selector

namespace Basis

variable {basis : Basis ν} (forest : basis.tree.IsForest)
  (identity : ∀ first second, basis.same first second = true ↔ first = second) (depth : Nat)
  {groups : SelectorList}
include forest identity

/-- Below a node, a compound holds without a scope if, and only if, it holds with the node as the scope. -/
private theorem holds_compound_iff_scoped {group : Group}
    (compound : ∀ token ∈ group, token.isCombinator = false)
    (near : ∀ token ∈ group, token.asksAfar = false) {node found : ν}
    (element : basis.tree.isElement node = true) (isBelow : basis.tree.Below node found)
    (inside : basis.tree.elementParent found ≠ none) :
    (basis.visited depth).Holds none (Selector.written false false group) found ↔
      (basis.visited depth).Holds (some (.node node)) (Selector.written false true group) found := by
  have unrooted : ¬ (basis.visited depth).AtScope none found := by
    rw [Reading.atScope_root _ rfl, visited_basis]
    exact inside
  have apart : ¬ (basis.visited depth).AtScope (some (.node node)) found := by
    rw [Reading.atScope_node, visited_basis, identity]
    rintro rfl
    exact forest.not_below_self _ isBelow
  have unscoped : (basis.visited depth).Holds none group found ↔
      (basis.visited depth).Holds (some (.node node)) group found :=
    Reading.holds_iff_of_sameAt fun token member => Reading.part_sameAt rfl rfl
      (fun token => basis.visited_deepens.part_of_scopeless depth none (some (.node node)) token)
      unrooted apart (compound token member) (near token member)
  rw [Selector.written_of_absolute (Selector.startsRelative_of_compound compound), unscoped,
    Selector.written_eq_append_of_compound compound]
  cases group.any Token.mentionsScope with
  | true => rfl
  | false =>
    exact ((Reading.holds_below_scope_iff (basis.visited_basis depth) identity (basis.visited_leads depth)
      compound element found).trans (and_iff_left isBelow)).symm

/-- What a search visits with the node as the scope is what it visits as compiled, unless a list leads from
another node to the scope, or the search of siblings is left out. -/
theorem exists_visited_iff
    (near : Selector.isRelative groups = true ∨ ∀ group ∈ groups, ∀ token ∈ group, token.asksAfar = false)
    (searched : ¬ (Selector.reachesSiblings groups = true ∧ basis.KnowsArgument groups)) {node : ν}
    (element : basis.tree.isElement node = true) :
    (∃ found, basis.tree.Visits
        (Selector.reachesSiblings groups = true ∧ ¬ basis.KnowsArgument groups) node found ∧
      ∃ group ∈ groups, (basis.visited depth).Holds
        (if Selector.isRelative groups then some (.node node) else none)
        (Selector.written false (Selector.isRelative groups) group) found) ↔
    ∃ found, basis.tree.Visits
        (∃ group ∈ groups, Selector.startsAmongSiblings (Selector.written false true group) = true)
        node found ∧
      ∃ group ∈ groups, (basis.visited depth).Holds (some (.node node))
        (Selector.written false true group) found := by
  have wide : (Selector.reachesSiblings groups = true ∧ ¬ basis.KnowsArgument groups) ↔
      Selector.reachesSiblings groups = true :=
    and_iff_left_of_imp fun reaches known => searched ⟨reaches, known⟩
  rw [propext wide, ← propext (Selector.reachesSiblings_iff groups)]
  apply exists_congr
  intro found
  apply and_congr_right
  intro visits
  apply exists_congr
  intro group
  apply and_congr_right
  intro listed
  cases relative : Selector.isRelative groups with
  | true => rfl
  | false =>
    have stays : ¬ Selector.reachesSiblings groups = true := by
      rw [Selector.reachesSiblings, relative, Bool.false_and]
      exact Bool.false_ne_true
    have nears := near.resolve_left (by rw [relative]; exact Bool.false_ne_true)
    exact holds_compound_iff_scoped forest identity depth
      (Selector.compound_of_isRelative relative listed) (nears group listed) element
      (visits.below forest stays) (visits.elementParent forest stays element)

end Basis

theorem Options.holds_has_iff_visited (options : Options ν σ) (builtin : options.custom = {})
    (forest : options.tree.IsForest)
    (identity : ∀ first second, options.same first second = true ↔ first = second) (session : Session σ)
    (groups : SelectorList) (node : ν) :
    (options.core.reading SelectorList.depth).Holds none [.subselect "has" groups] node ↔
      ∃ found, options.tree.Visits
          (Selector.reachesSiblings groups = true ∧ ¬ options.toBasis.KnowsArgument groups) node found ∧
        ∃ group ∈ groups, (options.toBasis.visited SelectorList.depth).Holds
          (if Selector.isRelative groups then some (.node node) else none)
          (Selector.written false (Selector.isRelative groups) group) found := by
  have expands (token : Token) : token.ExpandsWithin SelectorList.depth := token.expandsWithin
  have single : (if Selector.isRelative groups then some (MatchContext.node node) else none).any
      MatchContext.isCollection = false := by
    cases Selector.isRelative groups <;> rfl
  rw [Reading.holds_has_iff, options.core.reading_relative]
  apply exists_congr
  intro found
  rw [searched_iff_visits options builtin forest identity session fun _ _ token _ => expands token,
    Basis.visited_searched]
  apply and_congr_right
  intro visits
  rw [(reading_matches_visited options forest identity SelectorList.depth).someHolds_iff _
    (fun _ _ token _ => part_alike_visited options builtin forest identity session _ token
      (expands token) _) visits.isElement, Reading.someHolds_iff, single]

namespace SelectorList

open CompileM

/-- `:has()` matches, whatever was tested before, the elements from which the search visits an element at
which the argument holds. Its scope is the element asked about at every depth, and the search goes through
the elements below and, where a group starts among siblings, through those after: always, but for two kinds
of arguments. One without combinators of its own is read without a scope, and one that is known beforehand
to match everything is not looked for among siblings. -/
theorem test_has_iff_visits {appended : List Nat} {arena : Arena} (grown : arena.Grown appended)
    (once : appended.Nodup) (acyclic : arena.IsAcyclic) {groups : SelectorList}
    (unfolded : groups.uses (· == "icontains") = false) {session after : Session σ}
    (tidy : session.Tidy) {query : Query Nat σ}
    (compiled : Gives (compile [[.subselect "has" groups]] (Options.ofTree arena.view) none)
      session query after) :
    ∃ answer, query.Answers after answer ∧ ∀ node, arena.view.isElement node = true →
      (answer node = true ↔
        ∃ found, arena.view.Visits (Selector.reachesSiblings groups = true ∧
            ¬ (Options.ofTree arena.view : Options Nat σ).toBasis.KnowsArgument groups) node found ∧
          ∃ group ∈ groups, ((Options.ofTree arena.view : Options Nat σ).toBasis.visited depth).Holds
            (if Selector.isRelative groups then some (.node node) else none)
            (Selector.written false (Selector.isRelative groups) group) found) ∧
      (Selector.isRelative groups = true ∨
          (∀ group ∈ groups, ∀ token ∈ group, token.asksAfar = false) →
        ¬ (Selector.reachesSiblings groups = true ∧
            (Options.ofTree arena.view : Options Nat σ).toBasis.KnowsArgument groups) →
        (answer node = true ↔
          ∃ found, arena.view.Visits (∃ group ∈ groups,
              Selector.startsAmongSiblings (Selector.written false true group) = true) node found ∧
            ∃ group ∈ groups, ((Options.ofTree arena.view : Options Nat σ).toBasis.visited depth).Holds
              (some (.node node)) (Selector.written false true group) found)) := by
  have uses : SelectorList.uses (· == "icontains") [[.subselect "has" groups]] = false := by
    rw [SelectorList.uses, List.any_cons, List.any_nil, List.any_cons, List.any_nil, Bool.or_false,
      Bool.or_false, Token.uses, Token.anyGroupUses_eq_any]
    exact unfolded
  have forest : arena.view.IsForest := grown.view_isForest once acyclic
  have identity (first second : Nat) : arena.view.same first second = true ↔ first = second := beq_iff_eq
  obtain ⟨ledger, grows, governed⟩ := grows_compile (Options.ofTree arena.view) rfl rfl
    (fun _ => grown.view_remembers acyclic) (fun _ => uses) compiled
    (Nat.le_refl (session.ledger tidy).bound)
  refine ⟨query.predicate.passes none, Query.answers_of_governed grows.keeps grows.within governed,
    fun node element => ?_⟩
  have asked : query.predicate.passes none node = true ↔
      ((Options.ofTree arena.view : Options Nat σ).core.reading depth).Holds none
        [.subselect "has" groups] node := by
    rw [passes_compile rfl rfl rfl compiled]
    refine (and_iff_right element).trans ((Reading.someHolds_iff _ _ _ _ _).trans ?_)
    simp only [List.mem_singleton, exists_eq_left]
    rfl
  have matching := asked.trans
    ((Options.ofTree arena.view).holds_has_iff_visited rfl forest identity session groups node)
  refine ⟨matching, fun near searched => matching.trans ?_⟩
  exact Basis.exists_visited_iff forest identity depth near searched element

theorem test_has_iff_visits_for_nested_scope :
    ∃ (query : Query Nat Unit) (after : Session Unit),
      Gives (compile [[.subselect "has" [Selector.child :: Selector.childOfScope "b"]]]
        (Options.ofTree Arena.withElementsInside.view) none) { host := () } query after ∧
      ∃ answer, query.Answers after answer ∧
        ∀ node, Arena.withElementsInside.view.isElement node = true →
          (answer node = true ↔
            ∃ found, Arena.withElementsInside.view.Visits
                (∃ group ∈ [Selector.child :: Selector.childOfScope "b"],
                  Selector.startsAmongSiblings (Selector.written false true group) = true) node found ∧
              ∃ group ∈ [Selector.child :: Selector.childOfScope "b"],
                ((Options.ofTree Arena.withElementsInside.view : Options Nat Unit).toBasis.visited
                  depth).Holds (some (.node node)) (Selector.written false true group) found) := by
  obtain ⟨appended, sprouted⟩ := Arena.exists_sprouted_withElementsInside
  obtain ⟨query, after, compiled⟩ : ∃ (query : Query Nat Unit) (after : Session Unit),
      Gives (compile [[.subselect "has" [Selector.child :: Selector.childOfScope "b"]]]
        (Options.ofTree Arena.withElementsInside.view) none) { host := () } query after := ⟨_, _, rfl⟩
  obtain ⟨answer, answers, exact⟩ := test_has_iff_visits sprouted.grown sprouted.once
    sprouted.ordered.isAcyclic (by decide +kernel) (Session.tidy_of_empty _ _ _) compiled
  exact ⟨query, after, compiled, answer, answers, fun node element =>
    (exact node element).2 (.inl rfl) fun impossible => Bool.false_ne_true impossible.1⟩

/-- What a list leads to from the scope is not found where the argument has no combinator of its own; and an
element after the node is not found by an argument that matches everything. -/
theorem has_overlooks_scope_and_siblings :
    (∃ (query : Query Nat Unit) (after : Session Unit),
      Gives (compile [[.subselect "has" [Selector.childOfScope "c"]]]
        (Options.ofTree Arena.withElementsInside.view) none) { host := () } query after ∧
      ((query.test 2).run after).1 = false ∧
      ∃ found, Arena.withElementsInside.view.Visits (∃ group ∈ [Selector.childOfScope "c"],
            Selector.startsAmongSiblings (Selector.written false true group) = true) 2 found ∧
        ∃ group ∈ [Selector.childOfScope "c"],
          ((Options.ofTree Arena.withElementsInside.view : Options Nat Unit).toBasis.visited depth).Holds
            (some (.node 2)) (Selector.written false true group) found) ∧
    ∃ (arena : Arena) (query : Query Nat Unit) (after : Session Unit),
      Arena.build? [(0, .element "r" []), (1, .element "a" []), (1, .element "b" [])] = some arena ∧
      Gives (compile [[.subselect "has" Selector.anyBesideScope]] (Options.ofTree arena.view) none)
        { host := () } query after ∧
      ((query.test 2).run after).1 = false ∧
      ∃ found, arena.view.Visits (∃ group ∈ Selector.anyBesideScope,
            Selector.startsAmongSiblings (Selector.written false true group) = true) 2 found ∧
        ∃ group ∈ Selector.anyBesideScope,
          ((Options.ofTree arena.view : Options Nat Unit).toBasis.visited depth).Holds (some (.node 2))
            (Selector.written false true group) found := by
  constructor
  · -- The child of the second element is below it and a child of the scope.
    refine ⟨_, _, rfl, rfl, 3, ⟨3, rfl, .inl List.mem_cons_self, .refl⟩, _, List.mem_cons_self,
      .inl ?_, trivial⟩
    exact ⟨rfl, 2, ⟨rfl, rfl⟩, (Reading.atScope_node _ 2 2).mpr rfl, trivial⟩
  · -- The third element stands after the second one.
    refine ⟨_, _, _, rfl, rfl, rfl, 3, ⟨3, rfl, .inr ⟨⟨_, List.mem_cons_self, rfl⟩, ?_⟩, .refl⟩, _,
      List.mem_cons_of_mem _ List.mem_cons_self, .inr (.inl ⟨trivial, trivial⟩), trivial⟩
    exact ⟨[], [], [], rfl⟩

end SelectorList
end SelectorEngine
