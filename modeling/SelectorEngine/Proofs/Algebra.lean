import SelectorEngine.Proofs.Match.Calls

/-! The algebra of predicates is sound. A predicate that was put together from checks answers as the
expression that it was put together by, it is known beforehand only where the expression is, and testing it
calls no check that evaluating the expression from left to right would not call, nor in another order. -/
namespace SelectorEngine

variable {ι ν : Type}

/-- How a predicate is put together from checks, which go by names. -/
inductive Expression (ι : Type) where
  | constant (value : Bool)
  | check (name : ι)
  | and (first second : Expression ι)
  | or (first second : Expression ι)
  | negate (inner : Expression ι)
  /-- The check, then what is inside. -/
  | guard (inner : Expression ι) (name : ι)
  /-- What is inside, then the check. -/
  | andThen (inner : Expression ι) (name : ι)
deriving DecidableEq, Repr

namespace Expression

def value (holds : ι → ν → Bool) (node : ν) : Expression ι → Bool
  | constant value => value
  | check name => holds name node
  | and first second => first.value holds node && second.value holds node
  | or first second => first.value holds node || second.value holds node
  | negate inner => !inner.value holds node
  | guard inner name => holds name node && inner.value holds node
  | andThen inner name => inner.value holds node && holds name node

/-- The checks called when the expression is evaluated from left to right, as far as it takes. -/
def calls (holds : ι → ν → Bool) (node : ν) : Expression ι → List ι
  | constant _ => []
  | check name => [name]
  | and first second =>
    first.calls holds node ++ if first.value holds node then second.calls holds node else []
  | or first second =>
    first.calls holds node ++ if first.value holds node then [] else second.calls holds node
  | negate inner => inner.calls holds node
  | guard inner name => [name] ++ if holds name node then inner.calls holds node else []
  | andThen inner name => inner.calls holds node ++ if inner.value holds node then [name] else []

/-- The predicate that is put together, with checks that note when they are called. -/
def build (holds : ι → ν → Bool) : Expression ι → SessionM (List ι) (Predicate ν (List ι))
  | constant value => return .constant value
  | check name => Predicate.ofCheck fun node => noting name (holds name node)
  | and first second => do (← first.build holds).and (← second.build holds)
  | or first second => do (← first.build holds).or (← second.build holds)
  | negate inner => do (← inner.build holds).negate
  | guard inner name => do
    (← inner.build holds).guard (.asks fun node => noting name (holds name node))
  | andThen inner name => do
    (← inner.build holds).andThen (.asks fun node => noting name (holds name node))

/-- The predicate answers for the expression, and calls no more than it has to. -/
structure Implements (holds : ι → ν → Bool) (expression : Expression ι)
    (predicate : Predicate ν (List ι)) : Prop where
  tests : ∀ node, ∃ called, called.Sublist (expression.calls holds node) ∧
    Calls (predicate.test node) (expression.value holds node) called
  always : predicate.isAlwaysTrue = true →
    ∀ (others : ι → ν → Bool) (node : ν), expression.value others node = true
  never : predicate.isAlwaysFalse = true →
    ∀ (others : ι → ν → Bool) (node : ν), expression.value others node = false

section Implements

variable {holds : ι → ν → Bool} {expression first second : Expression ι}
  {predicate other : Predicate ν (List ι)} {plan next : Plan ν (List ι)} {name : ι}

theorem implements_always
    (always : ∀ (others : ι → ν → Bool) (node : ν), expression.value others node = true) :
    Implements holds expression .alwaysTrue where
  tests node := ⟨[], List.nil_sublist _, always holds node ▸ calls_pure true⟩
  always _ := always
  never impossible := nomatch impossible

theorem implements_never
    (never : ∀ (others : ι → ν → Bool) (node : ν), expression.value others node = false) :
    Implements holds expression .alwaysFalse where
  tests node := ⟨[], List.nil_sublist _, never holds node ▸ calls_pure false⟩
  always impossible := nomatch impossible
  never _ := never

theorem implements_ofPlan (session : Session (List ι))
    (tests : ∀ node, ∃ called, called.Sublist (expression.calls holds node) ∧
      Calls (plan.run none node) (expression.value holds node) called) :
    Implements holds expression ((Predicate.ofPlan plan).run session).1 where
  tests := tests
  always impossible := nomatch impossible
  never impossible := nomatch impossible

theorem calls_check (holds : ι → ν → Bool) (name : ι) (node : ν) :
    Calls ((Plan.asks fun node => noting name (holds name node)).run none node) (holds name node) [name] :=
  calls_ask name (holds name node)

namespace Implements

/-- An expression of the same value that calls as much is implemented too. -/
theorem widen (implements : first.Implements holds predicate)
    (values : ∀ (others : ι → ν → Bool) (node : ν), expression.value others node = first.value others node)
    (within : ∀ node, (first.calls holds node).Sublist (expression.calls holds node)) :
    Implements holds expression predicate where
  tests node := by
    obtain ⟨called, fewer, calls⟩ := implements.tests node
    rw [values]
    exact ⟨called, fewer.trans (within node), calls⟩
  always known others node := (values others node).trans (implements.always known others node)
  never known others node := (values others node).trans (implements.never known others node)

theorem and (left : first.Implements holds predicate) (right : second.Implements holds other)
    (session : Session (List ι)) :
    Implements holds (.and first second) ((predicate.and other).run session).1 := by
  cases predicate with
  | alwaysFalse =>
    exact implements_never fun others node => by rw [value, left.never rfl, Bool.false_and]
  | alwaysTrue =>
    have all := left.always rfl
    have whole : Implements holds (.and first second) other := by
      refine right.widen (fun others node => by rw [value, all, Bool.true_and]) fun node => ?_
      rw [calls, all, if_pos rfl]
      exact List.sublist_append_right _ _
    cases other <;> exact whole
  | dynamic identity plan =>
    cases other with
    | alwaysFalse =>
      exact implements_never fun others node => by rw [value, right.never rfl, Bool.and_false]
    | alwaysTrue =>
      refine left.widen (fun others node => ?_) fun node => List.sublist_append_left _ _
      rw [value, right.always rfl, Bool.and_true]
    | dynamic identity' next =>
      refine implements_ofPlan session fun node => ?_
      obtain ⟨called, fewer, start⟩ := left.tests node
      obtain ⟨further, fewer', rest⟩ := right.tests node
      refine ⟨_, fewer.append ?_, Plan.calls_both start rest⟩
      split
      · exact fewer'
      · exact List.nil_sublist _

theorem or (left : first.Implements holds predicate) (right : second.Implements holds other)
    (session : Session (List ι)) :
    Implements holds (.or first second) ((predicate.or other).run session).1 := by
  cases predicate with
  | alwaysTrue =>
    exact implements_always fun others node => by rw [value, left.always rfl, Bool.true_or]
  | alwaysFalse =>
    have none := left.never rfl
    have whole : Implements holds (.or first second) other := by
      refine right.widen (fun others node => by rw [value, none, Bool.false_or]) fun node => ?_
      rw [calls, none, if_neg Bool.false_ne_true]
      exact List.sublist_append_right _ _
    cases other <;> exact whole
  | dynamic identity plan =>
    cases other with
    | alwaysTrue =>
      exact implements_always fun others node => by rw [value, right.always rfl, Bool.or_true]
    | alwaysFalse =>
      refine left.widen (fun others node => ?_) fun node => List.sublist_append_left _ _
      rw [value, right.never rfl, Bool.or_false]
    | dynamic identity' next =>
      refine implements_ofPlan session fun node => ?_
      obtain ⟨called, fewer, start⟩ := left.tests node
      obtain ⟨further, fewer', rest⟩ := right.tests node
      refine ⟨_, fewer.append ?_, Plan.calls_either start rest⟩
      split
      · exact List.nil_sublist _
      · exact fewer'

theorem negate (inner : first.Implements holds predicate) (session : Session (List ι)) :
    Implements holds (.negate first) (predicate.negate.run session).1 := by
  cases predicate with
  | alwaysTrue => exact implements_never fun others node => by rw [value, inner.always rfl, Bool.not_true]
  | alwaysFalse => exact implements_always fun others node => by rw [value, inner.never rfl, Bool.not_false]
  | dynamic identity plan =>
    refine implements_ofPlan session fun node => ?_
    obtain ⟨called, fewer, calls⟩ := inner.tests node
    exact ⟨called, fewer, Plan.calls_negation calls⟩

theorem guard (inner : first.Implements holds predicate) (name : ι) (session : Session (List ι)) :
    Implements holds (.guard first name)
      ((predicate.guard (.asks fun node => noting name (holds name node))).run session).1 := by
  cases predicate with
  | alwaysFalse => exact implements_never fun others node => by rw [value, inner.never rfl, Bool.and_false]
  | alwaysTrue =>
    refine implements_ofPlan session fun node => ⟨[name], List.sublist_append_left _ _, ?_⟩
    rw [value, inner.always rfl, Bool.and_true]
    exact calls_check holds name node
  | dynamic identity plan =>
    refine implements_ofPlan session fun node => ?_
    obtain ⟨called, fewer, rest⟩ := inner.tests node
    refine ⟨_, (List.Sublist.refl [name]).append ?_, Plan.calls_both (calls_check holds name node) rest⟩
    split
    · exact fewer
    · exact List.nil_sublist _

theorem andThen (inner : first.Implements holds predicate) (name : ι) (session : Session (List ι)) :
    Implements holds (.andThen first name)
      ((predicate.andThen (.asks fun node => noting name (holds name node))).run session).1 := by
  cases predicate with
  | alwaysFalse => exact implements_never fun others node => by rw [value, inner.never rfl, Bool.false_and]
  | alwaysTrue =>
    have all := inner.always rfl
    refine implements_ofPlan session fun node => ⟨[name], ?_, ?_⟩
    · rw [calls, all, if_pos rfl]
      exact List.sublist_append_right _ _
    · rw [value, all, Bool.true_and]
      exact calls_check holds name node
  | dynamic identity plan =>
    refine implements_ofPlan session fun node => ?_
    obtain ⟨called, fewer, start⟩ := inner.tests node
    exact ⟨_, fewer.append (.refl _), Plan.calls_both start (calls_check holds name node)⟩

end Implements

theorem implements_build (holds : ι → ν → Bool) (expression : Expression ι) (session : Session (List ι)) :
    Implements holds expression ((expression.build holds).run session).1 := by
  induction expression generalizing session with
  | constant value =>
    cases value with
    | true => exact implements_always fun _ _ => rfl
    | false => exact implements_never fun _ _ => rfl
  | check name =>
    exact implements_ofPlan session fun node => ⟨[name], .refl _, calls_check holds name node⟩
  | and first second left right => exact (left session).and (right _) _
  | or first second left right => exact (left session).or (right _) _
  | negate inner ih => exact (ih session).negate _
  | guard inner name ih => exact (ih session).guard name _
  | andThen inner name ih => exact (ih session).andThen name _

end Implements

/-- Whatever it is put together from, a predicate answers every node with the value of its expression. It is
known beforehand only if the value is the same for all checks and nodes, and the checks that a test calls are
some of those that the expression calls, in the same order. -/
theorem build_sound (holds : ι → ν → Bool) (expression : Expression ι) (session : Session (List ι)) :
    (∀ node, ∃ called, called.Sublist (expression.calls holds node) ∧
      Calls (((expression.build holds).run session).1.test node) (expression.value holds node) called) ∧
    (((expression.build holds).run session).1.isAlwaysTrue = true →
      ∀ (others : ι → ν → Bool) (node : ν), expression.value others node = true) ∧
    (((expression.build holds).run session).1.isAlwaysFalse = true →
      ∀ (others : ι → ν → Bool) (node : ν), expression.value others node = false) :=
  have implements := implements_build holds expression session
  ⟨implements.tests, implements.always, implements.never⟩

/-- A check that is followed by one that never passes is not called. -/
example : ((((Expression.and (.check 1) (.constant false)).build fun _ (_ : Nat) => true).run
    { host := [] }).1.isAlwaysFalse, (Expression.and (.check 1) (.constant false)).calls
      (fun _ (_ : Nat) => true) 0) = (true, [1]) := rfl

end Expression
end SelectorEngine
