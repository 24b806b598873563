import SelectorEngine.Match.Plan

/-! Predicates and their algebra. Two answers are known without a node, and combining predicates keeps
them known: what can never match swallows every further test before any node is visited. Every other
predicate has an identity of its own, taken from the session when it is made. -/
namespace SelectorEngine

inductive Predicate (ν σ : Type) where
  | alwaysTrue
  | alwaysFalse
  | dynamic (identity : Nat) (plan : Plan ν σ)

namespace Predicate

variable {ν σ : Type}

def constant (value : Bool) : Predicate ν σ := if value then .alwaysTrue else .alwaysFalse

/-- A predicate that runs the plan, under a new identity. -/
def ofPlan (plan : Plan ν σ) : SessionM σ (Predicate ν σ) :=
  return .dynamic (← Session.fresh) plan

/-- A predicate that asks the host. -/
def ofCheck (check : ν → StateM σ Bool) : SessionM σ (Predicate ν σ) := ofPlan (.asks check)

def isAlwaysTrue : Predicate ν σ → Bool
  | alwaysTrue => true
  | _ => false

def isAlwaysFalse : Predicate ν σ → Bool
  | alwaysFalse => true
  | _ => false

def isDynamic : Predicate ν σ → Bool
  | dynamic _ _ => true
  | _ => false

/-- The same known answer, or the same identity. -/
def sameAs : Predicate ν σ → Predicate ν σ → Bool
  | alwaysTrue, alwaysTrue => true
  | alwaysFalse, alwaysFalse => true
  | dynamic first _, dynamic second _ => first == second
  | _, _ => false

def test (predicate : Predicate ν σ) (node : ν) : SessionM σ Bool :=
  match predicate with
  | alwaysTrue => return true
  | alwaysFalse => return false
  | dynamic _ plan => plan.run none node

/-- What the predicate does as a plan. -/
def toPlan : Predicate ν σ → Plan ν σ
  | alwaysTrue => .holds fun _ => true
  | alwaysFalse => .holds fun _ => false
  | dynamic _ plan => plan

/-- The check first, then the predicate. -/
def guard (predicate : Predicate ν σ) (check : Plan ν σ) : SessionM σ (Predicate ν σ) :=
  match predicate with
  | alwaysFalse => return alwaysFalse
  | alwaysTrue => ofPlan check
  | dynamic _ next => ofPlan (.both check next)

/-- The predicate first, then the check. -/
def andThen (predicate : Predicate ν σ) (check : Plan ν σ) : SessionM σ (Predicate ν σ) :=
  match predicate with
  | alwaysFalse => return alwaysFalse
  | alwaysTrue => ofPlan check
  | dynamic _ next => ofPlan (.both next check)

def and : Predicate ν σ → Predicate ν σ → SessionM σ (Predicate ν σ)
  | alwaysFalse, _ => return alwaysFalse
  | _, alwaysFalse => return alwaysFalse
  | alwaysTrue, second => return second
  | first, alwaysTrue => return first
  | dynamic _ first, dynamic _ second => ofPlan (.both first second)

def or : Predicate ν σ → Predicate ν σ → SessionM σ (Predicate ν σ)
  | alwaysTrue, _ => return alwaysTrue
  | _, alwaysTrue => return alwaysTrue
  | alwaysFalse, second => return second
  | first, alwaysFalse => return first
  | dynamic _ first, dynamic _ second => ofPlan (.either first second)

def negate : Predicate ν σ → SessionM σ (Predicate ν σ)
  | alwaysTrue => return alwaysFalse
  | alwaysFalse => return alwaysTrue
  | dynamic _ plan => ofPlan (.negation plan)

/-- Either predicate, where one that never matches vanishes and one that is the common start of both
absorbs the other. -/
def union (first second start : Predicate ν σ) : SessionM σ (Predicate ν σ) :=
  if second.isAlwaysFalse || first.sameAs start then return first
  else if first.isAlwaysFalse || second.sameAs start then return second
  else first.or second

/-- The predicate first, then a check that is inherited by descendants when it fails. With `remembers`
off this is `andThen`. -/
def andInherited (predicate : Predicate ν σ) (climb : Climb ν) (remembers : Bool)
    (check : Plan ν σ) : SessionM σ (Predicate ν σ) := do
  if remembers then predicate.andThen (.inherited (← Session.fresh) climb check)
  else predicate.andThen check

end Predicate
end SelectorEngine
