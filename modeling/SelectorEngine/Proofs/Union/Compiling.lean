import SelectorEngine.Proofs.Compile.Foresight
import SelectorEngine.Proofs.Staging

/-! Lists put together. Two lists can be compiled exactly if the list of all their groups can, and what a
list matches is a matter of its groups alone. -/
namespace SelectorEngine

variable {ν σ : Type}

@[simp] theorem Options.ofTree_tree (tree : TreeView ν) :
    (Options.ofTree tree : Options ν σ).tree = tree := rfl

/-- The identity of the predicate, if it has one, was given out before the session. -/
def Predicate.MadeBefore (predicate : Predicate ν σ) (session : Session σ) : Prop :=
  match predicate with
  | .dynamic identity _ => identity < session.supply
  | _ => True

theorem Predicate.exists_madeBefore (predicate : Predicate ν σ) (host : σ) :
    ∃ session : Session σ, session.Tidy ∧ predicate.MadeBefore session := by
  cases predicate with
  | dynamic identity plan =>
    exact ⟨{ host, supply := identity + 1 }, Session.tidy_of_empty _ _ _, Nat.lt_succ_self identity⟩
  | _ => exact ⟨{ host }, Session.tidy_of_empty _ _ _, trivial⟩

namespace SelectorList

open CompileM

/-- Whatever was remembered since the root was made, the list can be compiled and gives these answers from
then on. -/
def Matches (selectors : SelectorList) (options : Options ν σ) (given : Option (MatchContext ν))
    (answer : ν → Bool) : Prop :=
  ∀ session : Session σ, session.Tidy → options.root.MadeBefore session → ∃ query after,
    Gives (selectors.compile options given) session query after ∧ query.Answers after answer

/-- The list matches like this, and asks a search for siblings as told. -/
def CompilesTo (selectors : SelectorList) (options : Options ν σ) (given : Option (MatchContext ν))
    (answer : ν → Bool) (reaches : Bool) : Prop :=
  ∀ session : Session σ, session.Tidy → options.root.MadeBefore session → ∃ query after,
    Gives (selectors.compile options given) session query after ∧ query.Answers after answer ∧
      query.reachesSiblings = reaches

/-- Whatever was remembered, the list can be compiled and matches the elements that have the property. -/
def MatchesWhere (selectors : SelectorList) (options : Options ν σ) (given : Option (MatchContext ν))
    (holds : ν → Prop) : Prop :=
  ∃ answer, selectors.Matches options given answer ∧
    ∀ node, answer node = true ↔ options.tree.isElement node = true ∧ holds node

theorem CompilesTo.matches {selectors : SelectorList} {options : Options ν σ}
    {given : Option (MatchContext ν)} {answer : ν → Bool} {reaches : Bool}
    (compiles : selectors.CompilesTo options given answer reaches) :
    selectors.Matches options given answer := by
  intro session tidy made
  obtain ⟨query, after, compiled, answers, _⟩ := compiles session tidy made
  exact ⟨query, after, compiled, answers⟩

theorem uses_append (isMeant : String → Bool) (first second : SelectorList) :
    (first ++ second).uses isMeant = (first.uses isMeant || second.uses isMeant) := by
  rw [uses, List.any_append, uses, uses]

theorem isRefused_append (options : Options ν σ) (first second : SelectorList) :
    isRefused options (first ++ second) = (isRefused options first || isRefused options second) := by
  simp only [isRefused, refused_surveyGroups, List.any_append]
  grind

section Default

variable {options : Options ν σ} (builtin : options.custom = {}) {selectors : SelectorList}
  {given : Option (MatchContext ν)}
include builtin

/-- What can be compiled once can be compiled always. -/
theorem gives_of_accepted (may : options.root.isAlwaysFalse = false)
    (accepted : isRefused options selectors = false) (session : Session σ) :
    ∃ query after, Gives (selectors.compile options given) session query after := by
  have settled := accepts_compile builtin may selectors given session
  rw [accepted, if_neg Bool.false_ne_true] at settled
  obtain ⟨query, after, compiled, _⟩ := settled
  exact ⟨query, after, compiled⟩

theorem compiles_iff (may : options.root.isAlwaysFalse = false) (session : Session σ) :
    selectors.Compiles options given ↔ isRefused options selectors = false := by
  constructor
  · intro compiles
    obtain ⟨start, query, after, compiled⟩ := compiles
    exact ((accepts_compile builtin may selectors given).of_gives compiled).1
  · intro accepted
    exact ⟨session, gives_of_accepted builtin may accepted session⟩

theorem compiles_iff_of_isRefused (may : options.root.isAlwaysFalse = false) {other : SelectorList}
    (same : isRefused options selectors = isRefused options other) :
    selectors.Compiles options given ↔ other.Compiles options given := by
  have each (session : Session σ) : selectors.Compiles options given ↔ other.Compiles options given := by
    rw [compiles_iff builtin may session, compiles_iff builtin may session, same]
  exact ⟨fun compiles => (each compiles.choose).mp compiles,
    fun compiles => (each compiles.choose).mpr compiles⟩

variable (root : options.root = .alwaysTrue)
include root

theorem compiles_append_iff (first second : SelectorList) :
    Compiles (first ++ second) options given ↔
      Compiles first options given ∧ Compiles second options given := by
  have split (session : Session σ) : Compiles (first ++ second) options given ↔
      Compiles first options given ∧ Compiles second options given := by
    have may : options.root.isAlwaysFalse = false := root ▸ rfl
    rw [compiles_iff builtin may session, compiles_iff builtin may session,
      compiles_iff builtin may session, isRefused_append, Bool.or_eq_false_iff]
  constructor
  · intro compiles
    exact (split compiles.choose).mp compiles
  · intro both
    exact (split both.1.choose).mpr both

/-- What is compiled to something alike once gives the same answers always. -/
theorem compilesTo_of_agree (bears : options.tree.Remembers)
    (unfolded : selectors.uses (· == "icontains") = false) {action : CompileM σ (Query ν σ)}
    (agree : Agree Query.Alike action (selectors.compile options given)) {start last : Session σ}
    {query : Query ν σ} (compiled : Gives action start query last) :
    selectors.CompilesTo options given (query.predicate.passes none) query.reachesSiblings := by
  intro session tidy _
  obtain ⟨counterpart, after, again, alike, reaches⟩ := agree.gives compiled session
  obtain ⟨ledger, grows, governed⟩ := grows_compile options builtin root (fun _ => bears)
    (fun _ => unfolded) again (Nat.le_refl (session.ledger tidy).bound)
  have same : query.predicate.passes none = counterpart.predicate.passes none :=
    funext (alike.passes none)
  rw [same]
  exact ⟨counterpart, after, again, Query.answers_of_governed grows.keeps grows.within governed,
    reaches.symm⟩

theorem compilesTo_of_gives (bears : options.tree.Remembers)
    (unfolded : selectors.uses (· == "icontains") = false) {start last : Session σ} {query : Query ν σ}
    (compiled : Gives (selectors.compile options given) start query last) :
    selectors.CompilesTo options given (query.predicate.passes none) query.reachesSiblings :=
  compilesTo_of_agree builtin root bears unfolded
    (agree_compile options options rfl rfl rfl rfl root root builtin selectors given) compiled

/-- A list that can be compiled matches where it holds, anchored as it is compiled. -/
theorem matchesWhere_of_compiles (relative : options.flags.relativeSelector = true)
    (bears : options.tree.Remembers) (unfolded : selectors.uses (· == "icontains") = false)
    (compiles : Compiles selectors options given) :
    selectors.MatchesWhere options given ((options.core.reading depth).someHolds (options.context.or given)
      (Prepared.anchors options (given.map Scope.fixed)) selectors) := by
  obtain ⟨start, query, last, compiled⟩ := compiles
  exact ⟨query.predicate.passes none, (compilesTo_of_gives builtin root bears unfolded compiled).matches,
    passes_compile builtin root relative compiled none⟩

end Default
end SelectorList
end SelectorEngine
