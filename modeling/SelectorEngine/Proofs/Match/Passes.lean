import SelectorEngine.Match.Predicate

/-! The answer of a plan as a function of the node and the subject alone: nothing is remembered and no
host is asked. Combining predicates combines their answers, whatever numbers are given out on the way. -/
namespace SelectorEngine

variable {ν σ : Type}

/-- The answer of a plan that remembers nothing. What a host would answer counts as no. -/
def Plan.passes : Plan ν σ → (subject : Option ν) → (node : ν) → Bool
  | holds property, _, node => property node
  | asks _, _, _ => false
  | isSubject same, subject, node => subject.any (same · node)
  | both first second, subject, node => first.passes subject node && second.passes subject node
  | either first second, subject, node => first.passes subject node || second.passes subject node
  | negation inner, subject, node => !inner.passes subject node
  | leadsTo reach rest, subject, node => (reach node).any (rest.passes subject)
  | under _ climb isElement rest, subject, node =>
    (climb.above node).any fun above => isElement above && rest.passes subject above
  | inherited _ _ test, subject, node => test.passes subject node
  | asSubject reach inner, _, node => (reach node).any (inner.passes (some node))

namespace Predicate

def passes (predicate : Predicate ν σ) (subject : Option ν) (node : ν) : Bool :=
  predicate.toPlan.passes subject node

variable (session : Session σ) (subject : Option ν) (node : ν)

theorem passes_guard (predicate : Predicate ν σ) (check : Plan ν σ) :
    ((predicate.guard check).run session).1.passes subject node =
      (check.passes subject node && predicate.passes subject node) := by
  cases predicate with
  | alwaysTrue => exact (Bool.and_true _).symm
  | alwaysFalse => exact (Bool.and_false _).symm
  | dynamic _ plan => rfl

theorem passes_andThen (predicate : Predicate ν σ) (check : Plan ν σ) :
    ((predicate.andThen check).run session).1.passes subject node =
      (predicate.passes subject node && check.passes subject node) := by
  cases predicate with
  | alwaysTrue => exact (Bool.true_and _).symm
  | alwaysFalse => exact (Bool.false_and _).symm
  | dynamic _ plan => rfl

theorem passes_and (first second : Predicate ν σ) :
    ((first.and second).run session).1.passes subject node =
      (first.passes subject node && second.passes subject node) := by
  cases first with
  | alwaysTrue => cases second <;> rfl
  | alwaysFalse => cases second <;> rfl
  | dynamic _ plan =>
    cases second with
    | alwaysTrue => exact (Bool.and_true _).symm
    | alwaysFalse => exact (Bool.and_false _).symm
    | dynamic _ other => rfl

theorem passes_or (first second : Predicate ν σ) :
    ((first.or second).run session).1.passes subject node =
      (first.passes subject node || second.passes subject node) := by
  cases first with
  | alwaysTrue => cases second <;> rfl
  | alwaysFalse => cases second <;> rfl
  | dynamic _ plan =>
    cases second with
    | alwaysTrue => exact (Bool.or_true _).symm
    | alwaysFalse => exact (Bool.or_false _).symm
    | dynamic _ other => rfl

theorem passes_negate (predicate : Predicate ν σ) :
    (predicate.negate.run session).1.passes subject node = !predicate.passes subject node := by
  cases predicate <;> rfl

/-- A predicate that starts from the one that always matches loses nothing in a union. -/
theorem passes_union (first second : Predicate ν σ) :
    ((first.union second .alwaysTrue).run session).1.passes subject node =
      (first.passes subject node || second.passes subject node) := by
  have either := passes_or session subject node first second
  cases first <;> cases second <;> exact either

theorem andInherited_eq_andThen (predicate : Predicate ν σ) (climb : Climb ν) (remembers : Bool)
    (check : Plan ν σ) :
    ∃ remembering between, (∀ subject node, Plan.passes remembering subject node =
        check.passes subject node) ∧
      (predicate.andInherited climb remembers check).run session =
        (predicate.andThen remembering).run between := by
  cases remembers with
  | false => exact ⟨check, session, fun _ _ => rfl, rfl⟩
  | true =>
    exact ⟨.inherited session.supply climb check, { session with supply := session.supply + 1 },
      fun _ _ => rfl, rfl⟩

theorem passes_andInherited (predicate : Predicate ν σ) (climb : Climb ν) (remembers : Bool)
    (check : Plan ν σ) :
    ((predicate.andInherited climb remembers check).run session).1.passes subject node =
      (predicate.passes subject node && check.passes subject node) := by
  obtain ⟨remembering, between, same, run⟩ :=
    andInherited_eq_andThen session predicate climb remembers check
  rw [run, passes_andThen, same]

end Predicate
end SelectorEngine
