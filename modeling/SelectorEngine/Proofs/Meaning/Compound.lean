import Mathlib.Data.List.Induction
import SelectorEngine.Proofs.Meaning.Context

/-! Compounds: groups without a combinator. All tokens of a compound are about one node, and anchoring only adds
what is to hold of the elements above it; so two compounds that say the same of a node are anchored to the
same, if both or none of them mention `:scope`. -/
namespace SelectorEngine

variable {ν : Type}

namespace Selector

/-- A compound is put below `:scope`, if anything is put in front of it. -/
theorem written_eq_append_of_compound {group : Group}
    (compound : ∀ token ∈ group, token.isCombinator = false) (collection anchored : Bool) :
    written collection anchored group =
      (if anchored && !group.any Token.mentionsScope then
        [scope, .combinator (if collection then .descendantOrSelf else .descendant)]
      else []) ++ group := by
  have absolute := startsRelative_of_compound compound
  have elsewhere : startsBelowScope group = false := by
    rw [startsBelowScope_eq, opening_eq_none compound]
    rfl
  rw [written, front_of_absolute absolute]
  cases anchored && !group.any Token.mentionsScope with
  | true => cases collection <;> rfl
  | false =>
    cases collection with
    | false => rfl
    | true => exact widened_eq_self elsewhere

end Selector

namespace Reading

variable (reading : Reading ν) (context : Option (MatchContext ν))

theorem holds_concat {token : Token} {holds : ν → Prop} (tests : reading.part context token = .test holds)
    (left : Group) (node : ν) :
    reading.Holds context (left ++ [token]) node ↔ holds node ∧ reading.Holds context left node := by
  unfold Holds
  rw [List.map_append, List.reverse_append, List.map_singleton, tests]
  rfl

/-- Of the node, a group says what its last compound says, and what is before it. -/
theorem holds_append_of_compound {group : Group} (compound : ∀ token ∈ group, token.isCombinator = false)
    (left : Group) (node : ν) :
    reading.Holds context (left ++ group) node ↔
      reading.Holds context group node ∧ reading.Holds context left node := by
  induction group using List.reverseRecOn with
  | nil =>
    rw [List.append_nil]
    exact ⟨fun holds => ⟨trivial, holds⟩, And.right⟩
  | append_singleton group token ih =>
    have simple := compound token (List.mem_append_right _ (List.mem_singleton_self token))
    obtain ⟨holds, tests⟩ := reading.part_test_of_simple context simple
    have rest := ih fun token member => compound token (List.mem_append_left _ member)
    rw [← List.append_assoc, reading.holds_concat context tests, reading.holds_concat context tests, rest,
      and_assoc]

theorem someHolds_singleton (anchored : Bool) (group : Group) (node : ν) :
    reading.someHolds context anchored [group] node ↔
      reading.Holds context (Selector.written (context.any MatchContext.isCollection) anchored group)
        node := by
  simp only [someHolds_iff, List.mem_singleton, exists_eq_left]

theorem someHolds_compound {group : Group} (compound : ∀ token ∈ group, token.isCombinator = false)
    (node : ν) :
    reading.someHolds context false [group] node ↔ reading.Holds context group node := by
  rw [someHolds_singleton, Selector.written_eq_append_of_compound compound]
  exact Iff.rfl

section Anchored

variable {reading} {context} {group other : Group} (compound : ∀ token ∈ group, token.isCombinator = false)
  (compound' : ∀ token ∈ other, token.isCombinator = false)
  (mention : group.any Token.mentionsScope = other.any Token.mentionsScope) {node : ν} {anchored : Bool}
include compound compound' mention

/-- What follows of the node from a compound follows where both are anchored. -/
theorem someHolds_of_compounds (implies : reading.Holds context group node → reading.Holds context other node)
    (holds : reading.someHolds context anchored [group] node) :
    reading.someHolds context anchored [other] node := by
  rw [someHolds_singleton, Selector.written_eq_append_of_compound compound,
    holds_append_of_compound _ _ compound, mention] at holds
  rw [someHolds_singleton, Selector.written_eq_append_of_compound compound',
    holds_append_of_compound _ _ compound']
  exact ⟨implies holds.1, holds.2⟩

theorem someHolds_congr_of_compounds
    (same : reading.Holds context group node ↔ reading.Holds context other node) :
    reading.someHolds context anchored [group] node ↔ reading.someHolds context anchored [other] node :=
  ⟨someHolds_of_compounds compound compound' mention same.mp,
    someHolds_of_compounds compound' compound mention.symm same.mpr⟩

end Anchored

theorem holds_noneOf (left : Group) (groups : SelectorList) (node : ν) :
    reading.Holds context (left ++ [Selector.noneOf groups]) node ↔
      ¬ reading.someHolds context false groups node ∧ reading.Holds context left node := by
  have tests : reading.part context (Selector.noneOf groups) =
      .test fun node => ¬ reading.someHolds context false groups node := rfl
  exact reading.holds_concat context tests left node

theorem holds_anyOf (left : Group) (groups : SelectorList) (node : ν) :
    reading.Holds context (left ++ [Selector.anyOf groups]) node ↔
      reading.someHolds context false groups node ∧ reading.Holds context left node := by
  have tests : reading.part context (Selector.anyOf groups) =
      .test (reading.someHolds context false groups) := rfl
  exact reading.holds_concat context tests left node

end Reading
end SelectorEngine
