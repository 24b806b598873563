import SelectorEngine.Proofs.Compile.Spelled
import SelectorEngine.Proofs.Tree.Growth

/-! Aliases of the caller's. An alias is `:is()` of its list, but it is expanded only after groups were
anchored: a `:scope` in its list does not keep a group from being anchored, as one that is spelled out
does. -/
namespace SelectorEngine

variable {σ : Type}

namespace SelectorList

open CompileM

/-- Spelling an alias out as `:is()` of its list, at any depth, makes no difference to whether a search looks
at siblings. Nor does it to what is matched, if every group that is anchored is anchored alike, nor to what
can be compiled, if nothing is known never to match. -/
theorem compile_spelled {appended : List Nat} {arena : Arena} (grown : arena.Grown appended)
    (acyclic : arena.IsAcyclic) (entry : Alias) {selectors : SelectorList}
    (unfolded : uses (· == "icontains") (selectors.map (List.map entry.spell)) = false)
    (own given : Option (MatchContext Nat)) :
    let options : Options Nat σ := { Options.ofTree arena.view with context := own, custom := entry.classes }
    let usable := (own.or given).any (MatchContext.isUsable arena.view)
    let spelled : SelectorList := selectors.map (List.map entry.spell)
    (∀ (session other : Session σ) query counterpart after ended,
      Gives (selectors.compile options given) session query after →
      Gives (spelled.compile options given) other counterpart ended →
        query.reachesSiblings = counterpart.reachesSiblings ∧
        (session.Tidy → other.Tidy → entry.AnchorsAlike usable selectors →
          ∃ answer, query.Answers after answer ∧ counterpart.Answers ended answer)) ∧
    ((∀ token : Token, token.OccursIn spelled → (token.survey options.toBasis.outlook).verdict ≠ .never) →
      ∀ session, (∃ error, Fails (selectors.compile options given) session error) ↔
        ∃ error, Fails (spelled.compile options given) session error) := by
  intro options usable spelled
  let plain : Options Nat σ := { Options.ofTree arena.view with context := own }
  have bears : plain.tree.Remembers := grown.view_remembers acyclic
  have anchors : Prepared.anchors plain (given.map Scope.fixed) = usable := Prepared.anchors_eq rfl given
  have same : spelled.map (List.map entry.spell) = spelled := entry.map_spell_map_spell selectors
  refine ⟨fun session other query counterpart after ended compiled compiledSpelled => ⟨?_, ?_⟩, ?_⟩
  · rw [reachesSiblings_classes entry plain rfl compiled,
      reachesSiblings_classes entry plain rfl compiledSpelled, same]
  · intro tidy otherTidy alike
    have meant := passes_classes entry plain rfl rfl rfl (anchors ▸ alike) compiled
    have spelledMeant := passes_classes entry plain rfl rfl rfl
      (entry.anchorsAlike_map_spell _ selectors) compiledSpelled
    have alikeAnswers : query.predicate.passes none = counterpart.predicate.passes none := by
      funext node
      rw [Bool.eq_iff_iff, meant, spelledMeant, same]
    refine ⟨query.predicate.passes none, answers_classes entry plain rfl rfl bears unfolded tidy compiled, ?_⟩
    rw [alikeAnswers]
    exact answers_classes entry plain rfl rfl bears (same.symm ▸ unfolded) otherTidy compiledSpelled
  · intro may session
    have mayAgain : ∀ inner : Token, inner.OccursIn (spelled.map (List.map entry.spell)) →
        (inner.survey options.toBasis.outlook).verdict ≠ .never := same.symm ▸ may
    have whole := (accepts_classes entry plain selectors given rfl rfl rfl).fails_iff session
    have spelledWhole := (accepts_classes entry plain spelled given rfl rfl rfl).fails_iff session
    rw [Alias.refused_surveyGroups_of_open may _ false] at whole
    rw [Alias.refused_surveyGroups_of_open mayAgain _ false, same] at spelledWhole
    exact whole.trans spelledWhole.symm

/-- `:leaf` for `c`. -/
def leafAlias : Alias where
  name := "leaf"
  list := [[Selector.tag "c"]]
  own := by decide
  unused := by decide

theorem compile_spelled_for_leaf :
    let options : Options Nat Unit :=
      { Options.ofTree Arena.withElementsInside.view with context := none, custom := leafAlias.classes }
    (∀ session,
      (∃ error, Fails (compile [[.pseudoClass "leaf" none]] options (some (.node 2))) session error) ↔
        ∃ error, Fails (compile [[.subselect "is" [[Selector.tag "c"]]]] options (some (.node 2))) session
          error) ∧
    ∃ (query counterpart : Query Nat Unit) (after ended : Session Unit) (answer : Nat → Bool),
      Gives (compile [[.pseudoClass "leaf" none]] options (some (.node 2))) { host := () } query after ∧
      Gives (compile [[.subselect "is" [[Selector.tag "c"]]]] options (some (.node 2))) { host := () }
        counterpart ended ∧
      query.reachesSiblings = counterpart.reachesSiblings ∧ query.Answers after answer ∧
      counterpart.Answers ended answer := by
  obtain ⟨appended, sprouted⟩ := Arena.exists_sprouted_withElementsInside
  have unmentioned : Token.anyGroupMentionsScope leafAlias.list = false := by decide
  obtain ⟨alike, fails⟩ := compile_spelled sprouted.grown sprouted.ordered.isAcyclic leafAlias
    (by decide : uses (· == "icontains") (List.map (List.map leafAlias.spell) [[.pseudoClass "leaf" none]]) =
      false) none (some (.node 2))
  obtain ⟨reaches, answers⟩ := alike { host := () } { host := () } _ _ _ _ rfl rfl
  obtain ⟨answer, first, second⟩ := answers (Session.tidy_of_empty _ _ _) (Session.tidy_of_empty _ _ _)
    (Alias.anchorsAlike_of_unmentioned unmentioned _ _)
  refine ⟨fails fun token occurs => ?_, _, _, _, _, answer, rfl, rfl, reaches, first, second⟩
  change token.OccursIn [[.subselect "is" [[Selector.tag "c"]]]] at occurs
  cases occurs with
  | here listed member =>
    cases List.mem_singleton.mp listed
    cases List.mem_singleton.mp member
    exact Verdict.noConfusion
  | deeper listed member occurs =>
    cases List.mem_singleton.mp listed
    cases List.mem_singleton.mp member
    cases occurs with
    | here listed member =>
      cases List.mem_singleton.mp listed
      cases List.mem_singleton.mp member
      exact Verdict.noConfusion
    | deeper listed member _ =>
      cases List.mem_singleton.mp listed
      cases List.mem_singleton.mp member

/-- `:self` for `:scope`. -/
def selfAlias : Alias where
  name := "self"
  list := [[Selector.scope]]
  own := by decide
  unused := by decide

/-- With an element inside another one as the context, `:is(:scope)` matches it. An alias for `:scope` is
looked for below it, and does not. -/
theorem alias_overlooks_scope :
    let options : Options Nat Unit :=
      { Options.ofTree Arena.withElementsInside.view with context := none, custom := selfAlias.classes }
    (∃ appended, Arena.withElementsInside.Grown appended) ∧ Arena.withElementsInside.IsAcyclic ∧
      (∃ (query : Query Nat Unit) (after : Session Unit),
        Gives (compile [[.pseudoClass "self" none]] options (some (.node 2))) { host := () } query after ∧
        ((query.test 2).run after).1 = false) ∧
      ∃ (query : Query Nat Unit) (after : Session Unit),
        Gives (compile (List.map (List.map selfAlias.spell) [[.pseudoClass "self" none]]) options
          (some (.node 2))) { host := () } query after ∧
        ((query.test 2).run after).1 = true := by
  obtain ⟨appended, sprouted⟩ := Arena.exists_sprouted_withElementsInside
  refine ⟨⟨appended, sprouted.grown⟩, sprouted.ordered.isAcyclic, ?_, ?_⟩
  all_goals exact ⟨_, _, rfl, rfl⟩

end SelectorList
end SelectorEngine
