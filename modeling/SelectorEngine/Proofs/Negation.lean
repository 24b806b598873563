import SelectorEngine.Proofs.Likeness
import SelectorEngine.Proofs.Tree.Growth

/-! Lists denied. A list in `:not()` holds where none of its groups does, and a list in `:is()` where some group
does; so denials go together and undo each other as they do in logic, whatever the lists are and whatever
they are anchored to. -/
namespace SelectorEngine

variable {ν σ : Type}

namespace Selector

variable (isMeant : String → Bool) (groups : SelectorList)

theorem uses_noneOf : (noneOf groups).uses isMeant = (isMeant "not" || groups.uses isMeant) :=
  Token.uses_subselect isMeant "not" groups

theorem uses_anyOf : (anyOf groups).uses isMeant = (isMeant "is" || groups.uses isMeant) :=
  Token.uses_subselect isMeant "is" groups

end Selector

namespace Reading

variable (reading : Reading ν) (context : Option (MatchContext ν)) (groups others : SelectorList) (node : ν)

theorem holds_only_noneOf : reading.Holds context [Selector.noneOf groups] node ↔
    ¬ reading.someHolds context false groups node :=
  (reading.holds_noneOf context [] groups node).trans (and_iff_left trivial)

theorem holds_only_anyOf : reading.Holds context [Selector.anyOf groups] node ↔
    reading.someHolds context false groups node :=
  (reading.holds_anyOf context [] groups node).trans (and_iff_left trivial)

theorem holds_noneOf_noneOf : reading.Holds context [Selector.noneOf groups, Selector.noneOf others] node ↔
    ¬ reading.someHolds context false (groups ++ others) node := by
  rw [someHolds_append, not_or, and_comm, ← reading.holds_only_noneOf context groups]
  exact reading.holds_noneOf context [Selector.noneOf groups] others node

/-- A compound that is denied does not hold. -/
theorem holds_noneOf_compound {group : Group} (compound : ∀ token ∈ group, token.isCombinator = false) :
    reading.Holds context [Selector.noneOf [group]] node ↔ ¬ reading.Holds context group node := by
  rw [holds_only_noneOf, someHolds_compound _ _ compound]

end Reading

namespace SelectorList

section Default

variable {options : Options ν σ} (builtin : options.custom = {}) (root : options.root = .alwaysTrue)
  (bears : options.tree.Remembers) (relative : options.flags.relativeSelector = true)
  {given : Option (MatchContext ν)} {first second : SelectorList}
  (unfolded : first.uses (· == "icontains") = false) (unfolded' : second.uses (· == "icontains") = false)
include builtin root bears relative unfolded

/-- To deny a denial is to ask for the list. -/
theorem matchAlike_noneOf_noneOf
    (compiles : Compiles [[Selector.noneOf [[Selector.noneOf first]]]] options given)
    (compiles' : Compiles [[Selector.anyOf first]] options given) :
    MatchAlike [[Selector.noneOf [[Selector.noneOf first]]]] [[Selector.anyOf first]] options given := by
  refine .of_compounds builtin root bears relative rfl rfl ?_ ?_ ?_ (fun context node => ?_) compiles compiles'
  · simp [uses_group, Selector.uses_noneOf, unfolded]
  · simp [uses_group, Selector.uses_anyOf, unfolded]
  · simp [Token.mentionsScope_eq_uses, uses_group, Selector.uses_noneOf, Selector.uses_anyOf]
  · rw [Reading.holds_noneOf_compound _ _ _ (List.forall_mem_singleton.mpr rfl), Reading.holds_only_noneOf,
      Reading.holds_only_anyOf, not_not]

/-- Where nothing is anchored, to deny a list is to match what it does not. -/
theorem matches_noneOf_opposite (free : options.context = none) (compiles : Compiles first options none)
    (compiles' : Compiles [[Selector.noneOf first]] options none) :
    ∃ answer opposite : ν → Bool, Matches first options none answer ∧
      Matches [[Selector.noneOf first]] options none opposite ∧
      ∀ node, options.tree.isElement node = true → opposite node = !answer node := by
  have unfoldedNone : uses (· == "icontains") [[Selector.noneOf first]] = false := by
    simp [uses_group, Selector.uses_noneOf, unfolded]
  obtain ⟨answer, answers, meant⟩ :=
    matchesWhere_of_compiles builtin root relative bears unfolded compiles
  obtain ⟨opposite, answers', meant'⟩ :=
    matchesWhere_of_compiles builtin root relative bears unfoldedNone compiles'
  refine ⟨answer, opposite, answers, answers', fun node element => ?_⟩
  have holds := (meant node).trans (and_iff_right element)
  have holds' := (meant' node).trans (and_iff_right element)
  rw [Option.map_none, Prepared.anchors_eq_false free] at holds holds'
  rw [Bool.eq_iff_iff, Bool.not_eq_true', ← Bool.not_eq_true, holds, holds',
    Reading.someHolds_compound _ _ (List.forall_mem_singleton.mpr rfl), Reading.holds_only_noneOf]

include unfolded'

theorem matchAlike_noneOf_append
    (compiles : Compiles [[Selector.noneOf first, Selector.noneOf second]] options given)
    (compiles' : Compiles [[Selector.noneOf (first ++ second)]] options given) :
    MatchAlike [[Selector.noneOf first, Selector.noneOf second]] [[Selector.noneOf (first ++ second)]] options
      given := by
  refine .of_compounds builtin root bears relative rfl rfl ?_ ?_ ?_ (fun context node => ?_) compiles compiles'
  · simp [uses_group, Selector.uses_noneOf, unfolded, unfolded']
  · simp [uses_group, Selector.uses_noneOf, uses_append, unfolded, unfolded']
  · simp [Token.mentionsScope_eq_uses, Selector.uses_noneOf, uses_append]
  · rw [Reading.holds_noneOf_noneOf, Reading.holds_only_noneOf]

theorem matchAlike_anyOf_append
    (compiles : Compiles [[Selector.noneOf [[Selector.noneOf first, Selector.noneOf second]]]] options given)
    (compiles' : Compiles [[Selector.anyOf (first ++ second)]] options given) :
    MatchAlike [[Selector.noneOf [[Selector.noneOf first, Selector.noneOf second]]]]
      [[Selector.anyOf (first ++ second)]] options given := by
  have compound : Selector.isRelative [[Selector.noneOf first, Selector.noneOf second]] = false := rfl
  refine .of_compounds builtin root bears relative rfl rfl ?_ ?_ ?_ (fun context node => ?_) compiles compiles'
  · simp [uses_group, Selector.uses_noneOf, unfolded, unfolded']
  · simp [uses_group, Selector.uses_anyOf, uses_append, unfolded, unfolded']
  · simp [Token.mentionsScope_eq_uses, uses_group, Selector.uses_noneOf, Selector.uses_anyOf, uses_append]
  · rw [Reading.holds_noneOf_compound _ _ _ (Selector.compound_of_isRelative compound List.mem_cons_self),
      Reading.holds_noneOf_noneOf, Reading.holds_only_anyOf, not_not]

end Default

/-- Denials of lists are one denial of the lists put together, and a denial denied is the list again. Without
a context, a denied list matches the elements that the list does not. -/
theorem denials_match_alike {appended : List Nat} {arena : Arena} (grown : arena.Grown appended)
    (acyclic : arena.IsAcyclic) {first second : SelectorList}
    (unfolded : first.uses (· == "icontains") = false)
    (unfolded' : second.uses (· == "icontains") = false) (own given : Option (MatchContext Nat)) :
    let plain : Options Nat σ := Options.ofTree arena.view
    let options : Options Nat σ := { plain with context := own }
    let either := first ++ second
    let neither := [[Selector.noneOf first, Selector.noneOf second]]
    let denied := [[Selector.noneOf first]]
    (Compiles neither options given → Compiles [[Selector.noneOf either]] options given →
      MatchAlike neither [[Selector.noneOf either]] options given) ∧
    (Compiles [[Selector.noneOf denied]] options given → Compiles [[Selector.anyOf first]] options given →
      MatchAlike [[Selector.noneOf denied]] [[Selector.anyOf first]] options given) ∧
    (Compiles [[Selector.noneOf neither]] options given → Compiles [[Selector.anyOf either]] options given →
      MatchAlike [[Selector.noneOf neither]] [[Selector.anyOf either]] options given) ∧
    (Compiles first plain none → Compiles denied plain none →
      ∃ answer opposite : Nat → Bool, Matches first plain none answer ∧
        Matches denied plain none opposite ∧
        ∀ node, arena.view.isElement node = true → opposite node = !answer node) := by
  intro plain options either neither denied
  have bears : arena.view.Remembers := grown.view_remembers acyclic
  exact ⟨matchAlike_noneOf_append rfl rfl bears rfl unfolded unfolded',
    matchAlike_noneOf_noneOf rfl rfl bears rfl unfolded,
    matchAlike_anyOf_append rfl rfl bears rfl unfolded unfolded',
    matches_noneOf_opposite rfl rfl bears rfl unfolded rfl⟩

theorem denials_match_alike_for_child :
    let options : Options Nat Unit := Options.ofTree Arena.withCousin.view
    let children := [[Selector.child, Selector.tag "b"]]
    let parents := [[Selector.pseudoOf "has" [[Selector.tag "d"]]]]
    MatchAlike [[Selector.noneOf children, Selector.noneOf parents]]
      [[Selector.noneOf (children ++ parents)]] options (some (.node 1)) ∧
    MatchAlike [[Selector.noneOf [[Selector.noneOf children]]]] [[Selector.anyOf children]] options
      (some (.node 1)) ∧
    MatchAlike [[Selector.noneOf [[Selector.noneOf children, Selector.noneOf parents]]]]
      [[Selector.anyOf (children ++ parents)]] options (some (.node 1)) ∧
    ∃ answer opposite : Nat → Bool, Matches children options none answer ∧
      Matches [[Selector.noneOf children]] options none opposite ∧ opposite 5 = !answer 5 := by
  intro options children parents
  obtain ⟨appended, sprouted⟩ := Arena.exists_sprouted_withCousin
  have unfolded : uses (· == "icontains") children = false := by decide
  have unfolded' : uses (· == "icontains") parents = false := by decide
  obtain ⟨together, twice, back, apart⟩ := denials_match_alike (σ := Unit) sprouted.grown
    sprouted.ordered.isAcyclic unfolded unfolded' none (some (.node 1))
  let fresh : Session Unit := { host := () }
  obtain ⟨answer, opposite, answers, answers', denied⟩ := apart ⟨fresh, _, _, rfl⟩ ⟨fresh, _, _, rfl⟩
  exact ⟨together ⟨fresh, _, _, rfl⟩ ⟨fresh, _, _, rfl⟩, twice ⟨fresh, _, _, rfl⟩ ⟨fresh, _, _, rfl⟩,
    back ⟨fresh, _, _, rfl⟩ ⟨fresh, _, _, rfl⟩, answer, opposite, answers, answers', denied 5 rfl⟩

end SelectorList
end SelectorEngine
