import SelectorEngine.Proofs.Compile.Fronted
import SelectorEngine.Proofs.Meaning.Stages
import SelectorEngine.Proofs.Tree.Growth
import SelectorEngine.Proofs.Union.Compiling

/-! Selectors that do not start with a combinator, with relative selectors allowed and without. Whether they
compile is the same; but only with relative selectors allowed they are anchored at the context, so without
they may match more. -/
namespace SelectorEngine

variable {ν σ : Type}

namespace Selector

theorem mem_front {front : Front} {token : Token} (member : token ∈ front.tokens) :
    token = scope ∨ token = descendant := by
  cases front with
  | nothing => exact absurd member List.not_mem_nil
  | scope => exact .inl (List.mem_singleton.mp member)
  | scopeDescendant => simpa [Front.tokens] using member

end Selector

namespace Reading

variable {reading : Reading ν} {context : Option (MatchContext ν)} {node : ν}

theorem someHolds_unanchored {selectors : SelectorList}
    (plain : ∀ group ∈ selectors, Selector.startsWithCombinator group = false) {anchored : Bool}
    (holds : reading.someHolds context anchored selectors node) :
    reading.someHolds context false selectors node := by
  rw [someHolds_iff] at holds ⊢
  obtain ⟨group, listed, inGroup⟩ := holds
  refine ⟨group, listed, ?_⟩
  have absolute := Selector.startsRelative_of_plain (plain group listed)
  cases anchored with
  | false => exact inGroup
  | true =>
    cases mentioned : group.any Token.mentionsScope with
    | true => rwa [Selector.written_of_mentioned (plain group listed) mentioned] at inGroup
    | false =>
      rw [Selector.written_anchored absolute mentioned] at inGroup
      rw [Selector.written_of_unmentioned absolute mentioned]
      exact holds_of_holds_cons_cons inGroup

theorem someHolds_of_mentioned {selectors : SelectorList}
    (plain : ∀ group ∈ selectors, Selector.startsWithCombinator group = false)
    (mentioned : ∀ group ∈ selectors, group.any Token.mentionsScope = true) (anchored : Bool) :
    reading.someHolds context anchored selectors node ↔
      reading.someHolds context false selectors node := by
  rw [someHolds_iff, someHolds_iff]
  refine exists_congr fun group => and_congr_right fun listed => ?_
  rw [Selector.written_of_mentioned (plain group listed) (mentioned group listed)]

end Reading

namespace SelectorList

open CompileM

theorem uses_written {isMeant : String → Bool} (other : isMeant "scope" = false)
    {selectors : SelectorList} (unused : selectors.uses isMeant = false) (anchored : Bool) :
    uses isMeant (selectors.map (Selector.written false anchored)) = false := by
  rw [uses, List.any_eq_false]
  intro group listed
  obtain ⟨original, inList, rfl⟩ := List.mem_map.mp listed
  rw [List.any_eq_true]
  intro used
  obtain ⟨token, member, uses⟩ := used
  rcases List.mem_append.mp member with inFront | inGroup
  · rcases Selector.mem_front inFront with rfl | rfl
    · exact Bool.false_ne_true (other.symm.trans uses)
    · cases uses
  · exact Bool.false_ne_true ((uses_of_mem unused inList inGroup).symm.trans uses)

/-- Without relative selectors, selectors that do not start with a combinator fail with the same error as with
them, or compile as well and ask for siblings alike. They match what they match with relative selectors when
every group is written as it is anchored then: put below `:scope`, where the context consists of elements with an
element above them, if it mentions no `:scope`. As they stand they may match more. -/
theorem compiles_withoutRelative {appended : List Nat} {arena : Arena} (grown : arena.Grown appended)
    (acyclic : arena.IsAcyclic) {selectors : SelectorList}
    (unfolded : selectors.uses (· == "icontains") = false)
    (plain : ∀ group ∈ selectors, Selector.startsWithCombinator group = false)
    (own given : Option (MatchContext Nat)) :
    let options : Options Nat σ := { Options.ofTree arena.view with context := own }
    let usable := (own.or given).any (MatchContext.isUsable arena.view)
    (∃ error, ∀ session, Fails (selectors.compile options given) session error ∧
      Fails (selectors.compile options.withoutRelative given) session error) ∨
    ∃ (answer loose : Nat → Bool) (reaches : Bool),
      selectors.CompilesTo options given answer reaches ∧
      selectors.CompilesTo options.withoutRelative given loose reaches ∧
      CompilesTo (selectors.map (Selector.written false usable)) options.withoutRelative given answer
        reaches ∧
      (∀ node, answer node = true → loose node = true) ∧
      (usable = false ∨ (∀ group ∈ selectors, group.any Token.mentionsScope = true) → answer = loose) := by
  intro options usable
  have bears : options.tree.Remembers := grown.view_remembers acyclic
  have custom : options.custom = {} := rfl
  have root : options.root = .alwaysTrue := rfl
  have relative : options.flags.relativeSelector = true := rfl
  have across := agree_withoutRelative custom relative root plain given
  rcases isEmpty_or_nonempty (Session σ) with none | ⟨⟨session⟩⟩
  · exact .inl ⟨.relativeSelector, fun session => none.elim session⟩
  rcases gives_or_fails (selectors.compile options given) session with
    ⟨query, after, compiled⟩ | ⟨error, failed⟩
  · right
    have customOff : options.withoutRelative.custom = {} := rfl
    have rootOff : options.withoutRelative.root = .alwaysTrue := rfl
    have bearsOff : options.withoutRelative.tree.Remembers := bears
    have unanchored := agree_unanchored_withoutRelative custom relative root plain given
    obtain ⟨partner, ended, compiledOff, reaches⟩ := across.gives compiled session
    -- What is compiled without relative selectors is known through what is compiled unanchored.
    obtain ⟨loose, last, compiledLoose⟩ : ∃ loose last,
        Gives (selectors.compile options.unanchored given) session loose last := by
      rcases gives_or_fails (selectors.compile options.unanchored given) session with known | failed
      · exact known
      · obtain ⟨error, failed⟩ := failed
        exact absurd (unanchored.fails failed session) compiledOff.not_fails
    obtain ⟨counterpart, _, again, _, sameReaches⟩ := unanchored.gives compiledLoose session
    obtain rfl := again.unique compiledOff
    have meant := passes_compile custom root relative compiled none
    have meantLoose : ∀ node, loose.predicate.passes none node = true ↔
        options.tree.isElement node = true ∧
          (options.core.reading depth).someHolds (own.or given) false selectors node := by
      have customLoose : options.unanchored.custom = {} := rfl
      have rootLoose : options.unanchored.root = .alwaysTrue := rfl
      exact passes_compile customLoose rootLoose relative compiledLoose none
    have anchors : Prepared.anchors options (given.map Scope.fixed) = usable := Prepared.anchors_eq rfl given
    refine ⟨query.predicate.passes none, loose.predicate.passes none, query.reachesSiblings,
      compilesTo_of_gives custom root bears unfolded compiled, ?_, ?_, fun node passes => ?_,
      fun alike => ?_⟩
    · rw [reaches, ← sameReaches]
      exact compilesTo_of_agree customOff rootOff bearsOff unfolded unanchored compiledLoose
    · have unfoldedWritten := uses_written (by decide : ("scope" == "icontains") = false) unfolded usable
      have written := agree_written_withoutRelative custom relative root plain given
      rw [anchors] at written
      exact compilesTo_of_agree customOff rootOff bearsOff unfoldedWritten written compiled
    · obtain ⟨element, holds⟩ := (meant node).mp passes
      exact (meantLoose node).mpr ⟨element, Reading.someHolds_unanchored plain holds⟩
    · funext node
      rw [Bool.eq_iff_iff, meant, meantLoose, anchors]
      refine and_congr_right fun _ => ?_
      rcases alike with unusable | mentioned
      · rw [unusable]
      · exact Reading.someHolds_of_mentioned plain mentioned usable
  · refine .inl ⟨error, fun other => ⟨?_, across.fails failed other⟩⟩
    exact (agree_compile options options rfl rfl rfl rfl root root custom selectors given).fails failed other

theorem compiles_withoutRelative_for_child : ∃ (answer loose : Nat → Bool) (reaches : Bool),
    CompilesTo [[Selector.tag "b", Selector.child, Selector.tag "c"]]
      (Options.ofTree Arena.withElementsInside.view : Options Nat Unit) (some (.node 2)) answer reaches ∧
    CompilesTo [[Selector.tag "b", Selector.child, Selector.tag "c"]]
      (Options.ofTree Arena.withElementsInside.view : Options Nat Unit).withoutRelative (some (.node 2))
      loose reaches ∧
    CompilesTo [[Selector.scope, Selector.descendant, Selector.tag "b", Selector.child, Selector.tag "c"]]
      (Options.ofTree Arena.withElementsInside.view : Options Nat Unit).withoutRelative (some (.node 2))
      answer reaches ∧
    ∀ node, answer node = true → loose node = true := by
  obtain ⟨appended, sprouted⟩ := Arena.exists_sprouted_withElementsInside
  have plain : ∀ group ∈ [[Selector.tag "b", Selector.child, Selector.tag "c"]],
      Selector.startsWithCombinator group = false := by decide
  obtain ⟨query, after, compiled⟩ : ∃ query after,
      Gives (compile [[Selector.tag "b", Selector.child, Selector.tag "c"]]
        (Options.ofTree Arena.withElementsInside.view : Options Nat Unit) (some (.node 2)))
        { host := () } query after := ⟨_, _, rfl⟩
  rcases compiles_withoutRelative sprouted.grown sprouted.ordered.isAcyclic (by decide) plain none
    (some (.node 2)) with ⟨error, fails⟩ | ⟨answer, loose, reaches, matches', matchesOff, written, less, _⟩
  · exact absurd (fails _).1 compiled.not_fails
  · exact ⟨answer, loose, reaches, matches', matchesOff, written, less⟩

/-- With the inner element as the context, the outer one is matched without relative selectors only. -/
theorem anchoring_overlooks_parent :
    (∃ appended, Arena.withElementsInside.Grown appended) ∧ Arena.withElementsInside.IsAcyclic ∧
      (∃ (query : Query Nat Unit) (after : Session Unit),
        Gives (compile [[Selector.tag "a"]] (Options.ofTree Arena.withElementsInside.view)
          (some (.node 2))) { host := () } query after ∧
        ((query.test 1).run after).1 = false) ∧
      ∃ (query : Query Nat Unit) (after : Session Unit),
        Gives (compile [[Selector.tag "a"]] (Options.ofTree Arena.withElementsInside.view).withoutRelative
          (some (.node 2))) { host := () } query after ∧
        ((query.test 1).run after).1 = true := by
  obtain ⟨appended, sprouted⟩ := Arena.exists_sprouted_withElementsInside
  refine ⟨⟨appended, sprouted.grown⟩, sprouted.ordered.isAcyclic, ?_, ?_⟩
  all_goals exact ⟨_, _, rfl, rfl⟩

end SelectorList
end SelectorEngine
