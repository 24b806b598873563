import SelectorEngine.Proofs.Compile.Agreement
import SelectorEngine.Proofs.Compile.Remembering
import SelectorEngine.Proofs.Tree.Growth

/-! Remembering is transparent. Whatever was tested before, a query that remembers answers like one that
does not, and what was tested before does not matter to either. -/
namespace SelectorEngine

variable {ν σ : Type}

def Options.remembering (options : Options ν σ) (remembers : Bool) : Options ν σ :=
  { options with flags := { options.flags with cacheResults := remembers } }

namespace SelectorList

open CompileM

/-- Compiling with and without remembering fails with the same error or succeeds both ways; and then the
answers are the same both ways, node by node, along every sequence of nodes. -/
theorem answers_whether_remembering_or_not {appended : List Nat} {arena : Arena}
    (grown : arena.Grown appended) (acyclic : arena.IsAcyclic) {options : Options Nat σ}
    (key : Nat → Option Nat) (supports : ElementState → Bool) (isIn : Nat → ElementState → Bool)
    (seen : options.tree = { arena.view with key, supports, isIn })
    (keyed : ∀ first second number, key first = some number → key second = some number →
      first = second)
    (builtin : options.custom = {}) (root : options.root = .alwaysTrue) (selectors : SelectorList)
    (unfolded : selectors.uses (· == "icontains") = false) (given : Option (MatchContext Nat)) :
    (∃ error, ∀ remembers (session : Session σ),
      (selectors.compile (options.remembering remembers) given).Fails session error) ∨
    ∃ answer, ∀ remembers (session : Session σ), session.Tidy → ∃ query after,
      (selectors.compile (options.remembering remembers) given).Gives session query after ∧
        query.Answers after answer := by
  have bears : options.tree.Remembers := by
    rw [seen]
    exact ⟨keyed, grown.text_infix acyclic rfl rfl rfl⟩
  have agree (first second : Bool) : Agree Query.Alike
      (selectors.compile (options.remembering first) given)
      (selectors.compile (options.remembering second) given) :=
    agree_compile (options.remembering first) (options.remembering second)
      rfl rfl rfl rfl root root builtin selectors given
  by_cases failing : ∃ session error,
      Fails (selectors.compile (options.remembering false) given) session error
  · obtain ⟨session, error, failed⟩ := failing
    exact .inl ⟨error, fun remembers other => (agree false remembers).fails failed other⟩
  · right
    by_cases started : Nonempty (Session σ)
    · obtain ⟨start⟩ := started
      rcases gives_or_fails (selectors.compile (options.remembering false) given) start with
        ⟨plain, ended, compiled⟩ | ⟨error, failed⟩
      · refine ⟨plain.predicate.passes none, fun remembers session tidy => ?_⟩
        obtain ⟨query, after, given', alike, _⟩ := (agree false remembers).gives compiled session
        obtain ⟨ledger, grows, governed⟩ := grows_compile (options.remembering remembers) builtin
          root (fun _ => bears) (fun _ => unfolded) given' (Nat.le_refl (session.ledger tidy).bound)
        have same : plain.predicate.passes none = query.predicate.passes none :=
          funext (alike.passes none)
        rw [same]
        exact ⟨query, after, given', Query.answers_of_governed grows.keeps grows.within governed⟩
      · exact absurd ⟨start, error, failed⟩ failing
    · exact ⟨fun _ => false, fun _ session => absurd ⟨session⟩ started⟩

theorem answers_whether_remembering_or_not_for_descendant :
    ∃ arena : Arena, Arena.build? [(0, .element "a" []), (1, .element "b" [])] = some arena ∧
      ((∃ error, ∀ remembers (session : Session Unit),
        (compile [[Selector.universal, Selector.descendant, Selector.universal]]
          ((Options.ofTree arena.view).remembering remembers) none).Fails session error) ∨
      ∃ answer, ∀ remembers (session : Session Unit), session.Tidy → ∃ query after,
        (compile [[Selector.universal, Selector.descendant, Selector.universal]]
          ((Options.ofTree arena.view).remembering remembers) none).Gives session query after ∧
          query.Answers after answer) := by
  obtain ⟨arena, built⟩ : ∃ arena,
      Arena.build? [(0, .element "a" []), (1, .element "b" [])] = some arena := ⟨_, rfl⟩
  obtain ⟨appended, sprouted⟩ := Arena.exists_sprouted_of_build built
  have keyed (first second number : Nat) (isFirst : some first = some number)
      (isSecond : some second = some number) : first = second :=
    Option.some.inj (isFirst.trans isSecond.symm)
  exact ⟨arena, built, answers_whether_remembering_or_not sprouted.grown sprouted.ordered.isAcyclic
    some (fun _ => false) (fun _ _ => false) rfl keyed rfl rfl _ (by decide +kernel) none⟩

end SelectorList
end SelectorEngine
