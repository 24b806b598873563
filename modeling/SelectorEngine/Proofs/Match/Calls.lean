import SelectorEngine.Match.Predicate

/-! The calls that a test makes. A host whose state is a list can note in it which of its checks are called,
in order; then what a test calls is what it adds to the list, and the calls of a plan that remembers nothing
are put together from those of its parts as the answers of the parts demand. -/
namespace SelectorEngine

variable {ν κ α : Type}

/-- A check that notes that it is called. -/
def noting (note : κ) (answer : Bool) : StateM (List κ) Bool := do
  modify (· ++ [note])
  return answer

/-- The items through the first one that passes; all of them if none does. -/
def throughFirst (passes : α → Bool) : List α → List α
  | [] => []
  | item :: rest => if passes item then [item] else item :: throughFirst passes rest

theorem flatMap_throughFirst_cons {β : Type} (passes : α → Bool) (item : α) (rest : List α)
    (each : α → List β) : (throughFirst passes (item :: rest)).flatMap each =
      each item ++ if passes item then [] else (throughFirst passes rest).flatMap each := by
  rw [throughFirst]
  split <;> simp

namespace Session

def noted (session : Session (List κ)) (calls : List κ) : Session (List κ) :=
  { session with host := session.host ++ calls }

@[simp] theorem noted_nil (session : Session (List κ)) : session.noted [] = session := by
  simp [noted]

@[simp] theorem noted_noted (session : Session (List κ)) (first second : List κ) :
    (session.noted first).noted second = session.noted (first ++ second) := by
  simp [noted]

end Session

/-- Whatever was remembered and called before, the test gives this answer, makes these calls and does
nothing else. -/
def Calls (test : SessionM (List κ) Bool) (answer : Bool) (calls : List κ) : Prop :=
  ∀ session, test.run session = (answer, session.noted calls)

section Calls

variable {test : SessionM (List κ) Bool} {answer result : Bool} {calls further : List κ}

/-- A test has one answer and one list of calls. -/
theorem Calls.unique (first : Calls test answer calls) (second : Calls test result further) :
    answer = result ∧ calls = further := by
  obtain ⟨same, after⟩ := Prod.mk.inj ((first { host := [] }).symm.trans (second { host := [] }))
  exact ⟨same, congrArg Session.host after⟩

theorem calls_pure (answer : Bool) : Calls (pure answer : SessionM (List κ) Bool) answer [] := by
  intro session
  rw [session.noted_nil]
  rfl

theorem calls_ask (note : κ) (answer : Bool) : Calls (Session.ask (noting note answer)) answer [note] :=
  fun _ => rfl

theorem calls_bind (first : Calls test answer calls) {next : Bool → SessionM (List κ) Bool}
    (rest : Calls (next answer) result further) : Calls (test >>= next) result (calls ++ further) := by
  intro session
  rw [StateT.run_bind, first session, ← session.noted_noted]
  exact rest (session.noted calls)

theorem calls_anyM {test : α → SessionM (List κ) Bool} {answer : α → Bool} {calls : α → List κ}
    {items : List α} (each : ∀ item ∈ items, Calls (test item) (answer item) (calls item)) :
    Calls (items.anyM test) (items.any answer) ((throughFirst answer items).flatMap calls) := by
  induction items with
  | nil => exact calls_pure false
  | cons item rest ih =>
    obtain ⟨head, tail⟩ := List.forall_mem_cons.mp each
    rw [List.anyM, List.any_cons, flatMap_throughFirst_cons]
    cases passes : answer item with
    | true =>
      rw [passes] at head
      exact calls_bind head (calls_pure true)
    | false =>
      rw [passes] at head
      exact calls_bind head (ih tail)

end Calls

namespace Plan

variable {first second : Plan ν (List κ)} {subject : Option ν} {node : ν} {answer result : Bool}
  {calls further : List κ}

theorem calls_both (start : Calls (first.run subject node) answer calls)
    (rest : Calls (second.run subject node) result further) :
    Calls ((both first second).run subject node) (answer && result)
      (calls ++ if answer then further else []) := by
  rw [run]
  cases answer with
  | true => exact calls_bind start rest
  | false => exact calls_bind start (calls_pure false)

theorem calls_either (start : Calls (first.run subject node) answer calls)
    (rest : Calls (second.run subject node) result further) :
    Calls ((either first second).run subject node) (answer || result)
      (calls ++ if answer then [] else further) := by
  rw [run]
  cases answer with
  | true => exact calls_bind start (calls_pure true)
  | false => exact calls_bind start rest

theorem calls_negation (inner : Calls (first.run subject node) answer calls) :
    Calls ((negation first).run subject node) (!answer) calls := by
  rw [run, ← calls.append_nil]
  exact calls_bind inner (calls_pure (!answer))

end Plan

namespace Predicate

variable {united predicate : Predicate ν (List κ)} {passed : ν → Bool} {called : ν → List κ}

/-- What is united with another predicate is asked first, and the other one only where it does not pass. -/
theorem calls_union (start : ∀ node, Calls (united.test node) (passed node) (called node))
    {plan : Plan ν (List κ)} {answer : ν → Bool} {calls : ν → List κ}
    (next : ∀ node, Calls (plan.run none node) (answer node) (calls node)) (identity : Nat)
    (session : Session (List κ)) (node : ν) :
    Calls (((united.union (.dynamic identity plan) .alwaysTrue).run session).1.test node)
      (passed node || answer node) (called node ++ if passed node then [] else calls node) := by
  cases united with
  | alwaysTrue =>
    obtain ⟨passes, nothing⟩ := (start node).unique (calls_pure true)
    rw [passes, nothing, Bool.true_or, if_pos rfl]
    exact calls_pure true
  | alwaysFalse =>
    obtain ⟨fails, nothing⟩ := (start node).unique (calls_pure false)
    rw [fails, nothing, Bool.false_or, if_neg Bool.false_ne_true]
    exact next node
  | dynamic other before => exact Plan.calls_either (start node) (next node)

/-- A property of the node that is asked first spares all calls where it fails. -/
theorem calls_guard (tests : ∀ node, Calls (predicate.test node) (passed node) (called node))
    (property : ν → Bool) (session : Session (List κ)) (node : ν) :
    Calls (((predicate.guard (.holds property)).run session).1.test node) (property node && passed node)
      (if property node then called node else []) := by
  cases predicate with
  | alwaysTrue =>
    obtain ⟨passes, nothing⟩ := (tests node).unique (calls_pure true)
    rw [passes, nothing, Bool.and_true, ite_self]
    exact calls_pure (property node)
  | alwaysFalse =>
    obtain ⟨fails, nothing⟩ := (tests node).unique (calls_pure false)
    rw [fails, nothing, Bool.and_false, ite_self]
    exact calls_pure false
  | dynamic identity plan =>
    have first : Calls ((Plan.holds property : Plan ν (List κ)).run none node) (property node) [] :=
      calls_pure _
    exact Plan.calls_both first (tests node)

end Predicate

end SelectorEngine
