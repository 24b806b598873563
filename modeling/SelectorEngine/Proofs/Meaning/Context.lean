import SelectorEngine.Proofs.Meaning.Documented
import SelectorEngine.Proofs.Selector.Occurrence

/-! What does not depend on the scope. A token that does not mention `:scope` still depends on it where it
contains a list with a group that starts with a combinator; other tokens mean the same in every
context. -/
namespace SelectorEngine

variable {ν : Type}

namespace Token

mutual

/-- A list inside of the token has a group that starts with a combinator other than the descendant
combinator. Arguments of `:has()` do not count: they have a scope of their own. -/
def nestsRelative : Token → Bool
  | .subselect name groups => !(name == "has") && anyGroupNestsRelative groups
  | _ => false

def anyGroupNestsRelative : List (List Token) → Bool
  | [] => false
  | group :: rest => Selector.startsRelative group || anyNestsRelative group ||
    anyGroupNestsRelative rest

def anyNestsRelative : List Token → Bool
  | [] => false
  | token :: rest => token.nestsRelative || anyNestsRelative rest

end

theorem anyNestsRelative_eq_any (group : Group) :
    anyNestsRelative group = group.any nestsRelative := by
  induction group with
  | nil => rfl
  | cons token rest ih => rw [anyNestsRelative, ih, List.any_cons]

theorem anyGroupNestsRelative_eq_any (groups : SelectorList) : anyGroupNestsRelative groups =
    groups.any fun group => Selector.startsRelative group || group.any nestsRelative := by
  induction groups with
  | nil => rfl
  | cons group rest ih => rw [anyGroupNestsRelative, ih, anyNestsRelative_eq_any, List.any_cons]

def IsScopeless (token : Token) : Prop :=
  token.mentionsScope = false ∧ token.nestsRelative = false

instance (token : Token) : Decidable token.IsScopeless :=
  inferInstanceAs (Decidable (_ ∧ _))

theorem IsScopeless.inner {name : String} {groups : SelectorList} (other : name ≠ "has")
    (scopeless : (Token.subselect name groups).IsScopeless) {group : Group} (listed : group ∈ groups) :
    Selector.startsRelative group = false ∧ ∀ token ∈ group, token.IsScopeless := by
  obtain ⟨unmentioned, rooted⟩ := scopeless
  rw [mentionsScope, Bool.or_eq_false_iff, anyGroupMentionsScope_eq_any] at unmentioned
  rw [nestsRelative, beq_eq_false_iff_ne.mpr other, Bool.not_false, Bool.true_and,
    anyGroupNestsRelative_eq_any] at rooted
  have named := List.any_eq_false.mp unmentioned.2 group listed
  have starts := List.any_eq_false.mp rooted group listed
  rw [Bool.not_eq_true, Bool.or_eq_false_iff] at starts
  refine ⟨starts.1, fun token member => ⟨?_, ?_⟩⟩
  · exact Bool.eq_false_iff.mpr fun mentions =>
      named (List.any_eq_true.mpr ⟨token, member, mentions⟩)
  · exact Bool.eq_false_iff.mpr (List.any_eq_false.mp starts.2 token member)

end Token

namespace Selector

theorem scopeless_abbreviation {name : String} {selectors : SelectorList}
    (stands : abbreviations.lookup name = some selectors) {group : Group} (listed : group ∈ selectors) :
    startsRelative group = false ∧ ∀ token ∈ group, token.IsScopeless := by
  have every : ∀ entry ∈ abbreviations, ∀ group ∈ entry.2,
      startsRelative group = false ∧ ∀ token ∈ group, token.IsScopeless := by
    decide
  exact every _ (mem_abbreviations stands) group listed

theorem compound_of_isRelative {groups : SelectorList} (compounds : isRelative groups = false)
    {group : Group} (listed : group ∈ groups) : ∀ token ∈ group, token.isCombinator = false := by
  intro token member
  have simple := List.any_eq_false.mp compounds group listed
  exact Bool.eq_false_iff.mpr fun isCombinator =>
    simple (List.any_eq_true.mpr ⟨token, member, isCombinator⟩)

theorem startsRelative_of_compound {group : Group}
    (compound : ∀ token ∈ group, token.isCombinator = false) : startsRelative group = false := by
  unfold startsRelative
  split
  · rfl
  · next kind rest _ => cases compound (.combinator kind) List.mem_cons_self
  · rfl

theorem written_of_absolute {group : Group} (absolute : startsRelative group = false) :
    written false false group = group := by
  simp [written, front, absolute, Front.tokens]

theorem written_of_scopeless (collection : Bool) {group : Group} (starts : startsRelative group = false)
    (scopeless : ∀ token ∈ group, token.IsScopeless) : written collection false group = group := by
  have front : front false group = .nothing := by
    rw [Selector.front, starts, Bool.false_and, if_neg Bool.false_ne_true, if_neg Bool.false_ne_true]
  have elsewhere : widened group = group := by
    unfold widened
    split
    · next first second rest =>
      have below : startsBelowScope (first :: second :: rest) = false := by
        unfold startsBelowScope
        split
        · next same =>
          obtain ⟨rfl, _⟩ := List.cons.inj same
          have unmentioned := (scopeless first List.mem_cons_self).1
          cases first with
          | pseudoClass name argument => exact unmentioned
          | subselect name groups =>
            rw [Token.mentionsScope, Bool.or_eq_false_iff] at unmentioned
            exact unmentioned.1
          | _ => rfl
        · rfl
      rw [below, if_neg Bool.false_ne_true]
    · rfl
  unfold written
  dsimp only
  rw [front]
  change (if collection then widened group else group) = group
  rw [elsewhere, ite_self]

end Selector

namespace Reading

theorem someHolds_of_scopeless {reading : Reading ν} {context other : Option (MatchContext ν)}
    {groups : SelectorList}
    (scopeless : ∀ group ∈ groups, Selector.startsRelative group = false ∧
      ∀ token ∈ group, token.IsScopeless)
    (same : ∀ group ∈ groups, ∀ token ∈ group, reading.part context token = reading.part other token) :
    reading.someHolds context false groups = reading.someHolds other false groups := by
  funext node
  rw [eq_iff_iff, someHolds_iff, someHolds_iff]
  apply exists_congr
  intro group
  apply and_congr_right
  intro listed
  obtain ⟨starts, plain⟩ := scopeless group listed
  rw [Selector.written_of_scopeless _ starts plain, Selector.written_of_scopeless _ starts plain,
    holds_congr_of_part (same group listed)]

theorem part_of_scopeless_of_expand {reading : Reading ν} {context other : Option (MatchContext ν)}
    (each : ∀ name selectors, Selector.abbreviations.lookup name = some selectors →
      reading.expand selectors context = reading.expand selectors other)
    (token : Token) (scopeless : token.IsScopeless) :
    reading.part context token = reading.part other token := by
  induction token using Token.induct with
  | pseudoClass name argument =>
    have same : reading.ClassHolds name argument context = reading.ClassHolds name argument other := by
      unfold ClassHolds
      cases found : Selector.abbreviations.lookup name with
      | some selectors => exact each name selectors found
      | none =>
        dsimp only
        cases known : BuiltinFilter.ofName? name with
        | none => rfl
        | some filter =>
          cases filter with
          | scope =>
            have elsewhere : name ≠ "scope" := beq_eq_false_iff_ne.mp scopeless.1
            unfold BuiltinFilter.ofName? at known
            split at known <;> first | exact absurd rfl elsewhere | cases known
          | _ => cases argument <;> rfl
    exact congrArg Part.test same
  | subselect name groups ih =>
    rw [part, part]
    cases named : Subselect.ofName? name with
    | none => rfl
    | some kind =>
      have inside (elsewhere : name ≠ "has") :
          reading.someHolds context false groups = reading.someHolds other false groups :=
        someHolds_of_scopeless (fun _ listed => scopeless.inner elsewhere listed)
          fun group listed token member =>
            ih group listed token member ((scopeless.inner elsewhere listed).2 token member)
      cases kind with
      | has => rfl
      | anyOf =>
        have elsewhere : name ≠ "has" := by
          intro same
          subst same
          cases named
        exact congrArg Part.test (inside elsewhere)
      | noneOf =>
        have elsewhere : name ≠ "has" := by
          intro same
          subst same
          cases named
        dsimp only
        rw [inside elsewhere]
  | _ => rfl

end Reading

/-- A token that does not refer to the scope means the same in every context. -/
theorem Reading.Deepens.part_of_scopeless {levels : Nat → Reading ν} (deepens : Deepens levels) (depth : Nat)
    (context other : Option (MatchContext ν)) (token : Token) (scopeless : token.IsScopeless) :
    (levels depth).part context token = (levels depth).part other token := by
  induction depth generalizing token with
  | zero =>
    refine part_of_scopeless_of_expand (fun name selectors _ => ?_) token scopeless
    rw [deepens.never]
  | succ depth ih =>
    refine part_of_scopeless_of_expand (fun name selectors stands => ?_) token scopeless
    have plain (group : Group) (listed : group ∈ selectors) :=
      Selector.scopeless_abbreviation stands listed
    rw [deepens.deeper]
    exact someHolds_of_scopeless plain
      fun group listed token member => ih token ((plain group listed).2 token member)

theorem Reading.Deepens.map_part_of_scopeless {levels : Nat → Reading ν} (deepens : Deepens levels)
    (depth : Nat) (context other : Option (MatchContext ν)) {group : Group}
    (scopeless : ∀ token ∈ group, token.IsScopeless) :
    group.map ((levels depth).part context) = group.map ((levels depth).part other) :=
  List.map_congr_left fun token member =>
    deepens.part_of_scopeless depth context other token (scopeless token member)

end SelectorEngine
