import SelectorEngine.Match.Session

/-! Plans: what a test does, as data. A plan is built when a selector is compiled and run on every
candidate node. Running it asks its parts from left to right and stops as soon as the answer is known.
Two parts remember results from one run to the next, each in a table of its own.

The subject of a run is the node that the innermost relative `:has()` is being asked about. -/
namespace SelectorEngine

/-- How remembering parts climb a tree: the nodes above a node, nearest first, and their keys. -/
structure Climb (ν : Type) where
  above : ν → List ν
  key : ν → Option Nat

inductive Plan (ν σ : Type) where
  /-- A property of the node alone. -/
  | holds (property : ν → Bool)
  /-- A check of the host's, which may act on the host's state. -/
  | asks (check : ν → StateM σ Bool)
  /-- The node is the subject. -/
  | isSubject (same : ν → ν → Bool)
  | both (first second : Plan ν σ)
  | either (first second : Plan ν σ)
  | negation (inner : Plan ν σ)
  /-- Some node that the given one leads to passes. -/
  | leadsTo (reach : ν → List ν) (rest : Plan ν σ)
  /-- Some element above passes; the nodes above that did not are remembered. -/
  | under (table : Nat) (climb : Climb ν) (isElement : ν → Bool) (rest : Plan ν σ)
  /-- A test that fails for a node when it fails for an element above. Results are remembered, and a
  remembered failure above answers without running the test. -/
  | inherited (table : Nat) (climb : Climb ν) (test : Plan ν σ)
  /-- Some node that the given one leads to passes, with the given one as the subject. -/
  | asSubject (reach : ν → List ν) (inner : Plan ν σ)

namespace Plan

variable {ν σ : Type}

def unkeyed : Warning where
  component := "select"
  message := "adapter provides no node cache keys; descendant results are not cached"

/-- Some node of the chain passes. Nodes remembered to fail are passed over, and failures are
remembered; a node without a key is tested every time. -/
def anyRemembering (table : Nat) (key : ν → Option Nat) (test : ν → SessionM σ Bool) :
    List ν → SessionM σ Bool
  | [] => pure false
  | node :: rest => do
    match key node with
    | none =>
      Session.warn unkeyed
      if ← test node then return true
      anyRemembering table key test rest
    | some number =>
      if (← Session.recorded table number).isSome then
        anyRemembering table key test rest
      else if ← test node then
        return true
      else
        Session.remember table number false
        anyRemembering table key test rest

/-- The remembered result of the first node of the chain that has one. -/
def nearestRemembered (table : Nat) (key : ν → Option Nat) : List ν → SessionM σ (Option Bool)
  | [] => pure none
  | node :: rest => do
    match key node with
    | none => nearestRemembered table key rest
    | some number =>
      match ← Session.recorded table number with
      | some result => return some result
      | none => nearestRemembered table key rest

/-- Answers from what is remembered about the node or about a failure above it; otherwise runs the
test and remembers its result. -/
def testRemembering (table : Nat) (climb : Climb ν) (test : ν → SessionM σ Bool) (node : ν) :
    SessionM σ Bool := do
  match climb.key node with
  | none => test node
  | some number =>
    match ← Session.recorded table number with
    | some result => return result
    | none =>
      if (← nearestRemembered table climb.key (climb.above node)) = some false then
        return false
      let result ← test node
      Session.remember table number result
      return result

def run : Plan ν σ → (subject : Option ν) → (node : ν) → SessionM σ Bool
  | holds property, _, node => return property node
  | asks check, _, node => Session.ask (check node)
  | isSubject same, subject, node => return subject.any (same · node)
  | both first second, subject, node => do
    if ← first.run subject node then second.run subject node else return false
  | either first second, subject, node => do
    if ← first.run subject node then return true else second.run subject node
  | negation inner, subject, node => return !(← inner.run subject node)
  | leadsTo reach rest, subject, node => (reach node).anyM (rest.run subject)
  | under table climb isElement rest, subject, node =>
    anyRemembering table climb.key
      (fun above => if isElement above then rest.run subject above else return false)
      (climb.above node)
  | inherited table climb test, subject, node =>
    testRemembering table climb (test.run subject) node
  | asSubject reach inner, _, node => (reach node).anyM (inner.run (some node))

end Plan
end SelectorEngine
