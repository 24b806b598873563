import SelectorEngine.Proofs.Compile.Remembering
import SelectorEngine.Proofs.Match.Calls
import SelectorEngine.Proofs.Tree.Growth

/-! Checks that are inherited when they fail. The predicate in front of such a check is asked first. Then a
recorded result answers, that of the node itself or a failure above it, and only where there is none the
check is called. The table of results grows with every call, in whatever order nodes are tested. -/
namespace SelectorEngine

variable {κ ν : Type}

/-- What is called when a node is tested: what the predicate in front calls, or the check. -/
inductive Asked (κ ν : Type) where
  | front (call : κ)
  | check (node : ν)
deriving DecidableEq, Repr

/-- The calls of the predicate in front. -/
def Asked.fronts (ν : Type) (calls : List κ) : List (Asked κ ν) :=
  calls.map .front

theorem Asked.check_notMem_fronts (node : ν) (calls : List κ) : check node ∉ fronts ν calls := by
  simp [fronts]

namespace TreeView

/-- On the way up from a node through elements, the first one with a recorded result has this result. -/
inductive NearestAbove (tree : TreeView ν) (recorded : ν → Bool → Prop) : ν → Bool → Prop
  | here {node above : ν} {result : Bool} : tree.elementParent node = some above →
      recorded above result → NearestAbove tree recorded node result
  | further {node above : ν} {result : Bool} : tree.elementParent node = some above →
      (∀ other, ¬ recorded above other) → NearestAbove tree recorded above result →
        NearestAbove tree recorded node result

/-- The check was called on the node, which has a key, and gave this result. -/
def Recorded (tree : TreeView ν) (holds : ν → Bool) (events : List (Asked κ ν)) (node : ν) (result : Bool) :
    Prop :=
  (tree.key node).isSome = true ∧ .check node ∈ events ∧ holds node = result

section Above

variable {tree : TreeView ν} {depth : ν → Nat}
  (grows : ∀ node parent, tree.parent node = some parent → depth parent < depth node)
  (bounded : ∀ node, depth node < tree.bound)
include grows bounded

theorem elementAncestors_of_bounded (node : ν) : tree.elementAncestors node =
    match tree.elementParent node with
    | none => []
    | some above => above :: tree.elementAncestors above := by
  rw [elementAncestors, elementParent]
  cases climbs : tree.parent node with
  | none =>
    have root : tree.ancestors node = [] := by
      rw [ancestors]
      cases tree.bound <;> simp [climb, climbs]
    rw [root]
    rfl
  | some parent =>
    rw [ancestors_of_bounded grows bounded climbs, Option.filter_some]
    cases element : tree.isElement parent <;> simp [element, elementAncestors]

theorem findSome_elementAncestors_iff (record : ν → Option Bool) (node : ν) (result : Bool) :
    (tree.elementAncestors node).findSome? record = some result ↔
      tree.NearestAbove (fun above other => record above = some other) node result := by
  induction deep : depth node using Nat.strongRecOn generalizing node with
  | ind size ih =>
    rw [elementAncestors_of_bounded grows bounded]
    cases climbs : tree.elementParent node with
    | none =>
      refine iff_of_false nofun fun nearest => ?_
      cases nearest with
      | here other _ => cases climbs.symm.trans other
      | further other _ _ => cases climbs.symm.trans other
    | some above =>
      have nearer : depth above < size := deep ▸ grows node above (Option.eq_some_of_filter_eq_some climbs)
      rw [List.findSome?_cons]
      cases found : record above with
      | some known =>
        constructor
        · intro same
          exact .here climbs (found.trans same)
        · intro nearest
          cases nearest with
          | here other recorded =>
            cases climbs.symm.trans other
            exact found.symm.trans recorded
          | further other unrecorded _ =>
            cases climbs.symm.trans other
            exact absurd found (unrecorded known)
      | none =>
        refine (ih _ nearer above rfl).trans ⟨fun nearest => ?_, fun nearest => ?_⟩
        · exact .further climbs (fun other recorded => nomatch found.symm.trans recorded) nearest
        · cases nearest with
          | here other recorded =>
            cases climbs.symm.trans other
            cases found.symm.trans recorded
          | further other _ nearest =>
            cases climbs.symm.trans other
            exact nearest

end Above

end TreeView

namespace Inheriting

section Stage

variable (tree : TreeView ν) (calls : ν → List κ) (passes holds : ν → Bool)

/-- After these events the check may be called on the node: what is in front has just passed it, and if the
node has a key, the check was not called on it before and is not known to fail above it. -/
structure IsDue (earlier : List (Asked κ ν)) (node : ν) : Prop where
  passed : passes node = true
  afterFront : Asked.fronts ν (calls node) <:+ earlier
  uncalled : (tree.key node).isSome = true → .check node ∉ earlier
  unfailed : (tree.key node).isSome = true → ¬ tree.NearestAbove (tree.Recorded holds earlier) node false

/-- The host has noted the events, every call of the check was due, and the table holds what was recorded. -/
structure Stage (table : Nat) (start : List (Asked κ ν)) (session : Session (List (Asked κ ν)))
    (events : List (Asked κ ν)) : Prop where
  host : session.host = start ++ events
  records : ∀ node number result, tree.key node = some number →
    (session.memo.find? table number = some result ↔ .check node ∈ events ∧ holds node = result)
  due : ∀ earlier node later, events = earlier ++ .check node :: later →
    IsDue tree calls passes holds earlier node

variable (κ) in
/-- The test of the check, with its results in the table. -/
def checkTest (table : Nat) : ν → SessionM (List (Asked κ ν)) Bool :=
  Plan.testRemembering table tree.elementClimb fun node => Session.ask (noting (.check node) (holds node))

end Stage

namespace Stage

variable {tree : TreeView ν} {calls : ν → List κ} {passes holds : ν → Bool} {table : Nat}
  {start events : List (Asked κ ν)} {session : Session (List (Asked κ ν))} {node : ν}

theorem initial (tidy : session.Tidy) {made : Session (List (Asked κ ν))} (host : made.host = session.host)
    (memo : made.memo = session.memo) :
    Stage tree calls passes holds session.supply session.host made [] where
  host := by rw [host, List.append_nil]
  records node number result _ := by
    rw [memo]
    exact iff_of_false (fun recorded => Nat.lt_irrefl _ (tidy _ _ _ recorded)) fun called => nomatch called.1
  due earlier node later split := by simp at split

/-- A call of the check among more events is among the earlier ones or among the added ones. -/
private theorem due_append (stage : Stage tree calls passes holds table start session events)
    {more : List (Asked κ ν)} (added : ∀ earlier node later, more = earlier ++ .check node :: later →
      IsDue tree calls passes holds (events ++ earlier) node) :
    ∀ earlier node later, events ++ more = earlier ++ .check node :: later →
      IsDue tree calls passes holds earlier node := by
  intro earlier node later split
  rcases List.append_eq_append_iff.mp split with ⟨between, rfl, same⟩ | ⟨between, same, rest⟩
  · exact added between node later same
  · cases between with
    | nil =>
      rw [List.append_nil] at same
      have due := added [] node later rest.symm
      rw [List.append_nil, same] at due
      exact due
    | cons event between =>
      obtain ⟨rfl, _⟩ := List.cons.inj rest
      exact stage.due earlier node between same

theorem asked (stage : Stage tree calls passes holds table start session events) (node : ν) :
    Stage tree calls passes holds table start (session.noted (Asked.fronts ν (calls node)))
      (events ++ Asked.fronts ν (calls node)) where
  host := by rw [Session.noted, stage.host, List.append_assoc]
  records other number result has := by
    rw [List.mem_append, or_iff_left (Asked.check_notMem_fronts other (calls node))]
    exact stage.records other number result has
  due := stage.due_append fun earlier other later split =>
    absurd (split ▸ List.mem_append_cons_self) (Asked.check_notMem_fronts other (calls node))

/-- A due call of the check leads on, if its result is recorded where the node has a key. -/
theorem called (stage : Stage tree calls passes holds table start session events)
    (due : IsDue tree calls passes holds events node) (memo : Memo)
    (records : ∀ other number result, tree.key other = some number →
      (memo.find? table number = some result ↔
        (.check other ∈ events ∨ other = node) ∧ holds other = result)) :
    Stage tree calls passes holds table start { session.noted [.check node] with memo }
      (events ++ [.check node]) where
  host := by rw [Session.noted, stage.host, List.append_assoc]
  records other number result has := by
    rw [List.mem_append, List.mem_singleton, Asked.check.injEq]
    exact records other number result has
  due := stage.due_append fun earlier other later split => by
    obtain ⟨rfl, same⟩ | ⟨_, isNone⟩ := List.singleton_eq_append_iff.mp split
    · cases same
      rwa [List.append_nil]
    · cases isNone

theorem called_keyless (stage : Stage tree calls passes holds table start session events)
    (due : IsDue tree calls passes holds events node) (keyless : tree.key node = none) :
    Stage tree calls passes holds table start (session.noted [.check node]) (events ++ [.check node]) := by
  refine stage.called due session.memo fun other number result has => ?_
  have apart : other ≠ node := by
    rintro rfl
    cases keyless.symm.trans has
  rw [or_iff_left apart]
  exact stage.records other number result has

/-- No two nodes have one key, so what is recorded is the result of this node alone. -/
theorem called_keyed (keyed : tree.elementClimb.IsKeyed)
    (stage : Stage tree calls passes holds table start session events)
    (due : IsDue tree calls passes holds events node) {number : Nat} (has : tree.key node = some number) :
    Stage tree calls passes holds table start
      { session.noted [.check node] with memo := session.memo.insert table number (holds node) }
      (events ++ [.check node]) := by
  refine stage.called due _ fun other key result hasOther => ?_
  rw [Memo.find_insert]
  by_cases isNode : other = node
  · subst isNode
    cases has.symm.trans hasOther
    simp
  · have differs : number ≠ key := by
      rintro rfl
      exact isNode (keyed other node number hasOther has)
    rw [if_neg fun both => differs both.2, or_iff_left isNode]
    exact stage.records other key result hasOther

theorem recorded_iff (stage : Stage tree calls passes holds table start session events) (node : ν)
    (result : Bool) : (tree.key node).bind (session.memo.find? table) = some result ↔
      tree.Recorded holds events node result := by
  rw [TreeView.Recorded]
  cases has : tree.key node with
  | none => simp
  | some number => simp [stage.records node number result has]

/-- A node fails where the nearest recorded result above it is a failure. -/
theorem fails_of_nearestAbove
    (inherits : ∀ node above, tree.elementParent node = some above → holds above = false →
      holds node = false)
    {result : Bool} (nearest : tree.NearestAbove (tree.Recorded holds events) node result)
    (failed : result = false) : holds node = false := by
  induction nearest with
  | here climbs recorded => exact inherits _ _ climbs (recorded.2.2.trans failed)
  | further climbs _ _ ih => exact inherits _ _ climbs (ih failed)

variable {depth : ν → Nat}
  (grows : ∀ node parent, tree.parent node = some parent → depth parent < depth node)
  (bounded : ∀ node, depth node < tree.bound)
include grows bounded

theorem nearest_iff (stage : Stage tree calls passes holds table start session events) (node : ν)
    (result : Bool) : ((tree.elementAncestors node).findSome? fun above =>
      (tree.key above).bind (session.memo.find? table)) = some result ↔
        tree.NearestAbove (tree.Recorded holds events) node result := by
  have same : (fun above other => (tree.key above).bind (session.memo.find? table) = some other) =
      tree.Recorded holds events := funext₂ fun above other => propext (stage.recorded_iff above other)
  rw [← same]
  exact TreeView.findSome_elementAncestors_iff grows bounded _ node result

variable (keyed : tree.elementClimb.IsKeyed)
  (inherits : ∀ node above, tree.elementParent node = some above → holds above = false →
    holds node = false)
include keyed inherits

/-- Where what is in front has passed the node, the test that remembers answers as the check does. -/
theorem tested (stage : Stage tree calls passes holds table start session events)
    (passed : passes node = true) (afterFront : Asked.fronts ν (calls node) <:+ events) :
    ∃ after further, (checkTest κ tree holds table node).run session = (holds node, after) ∧
      Stage tree calls passes holds table start after further := by
  unfold checkTest
  cases has : tree.key node with
  | none =>
    have keyless : ¬ (tree.key node).isSome = true := by simp [has]
    have due : IsDue tree calls passes holds events node :=
      ⟨passed, afterFront, fun isKeyed => absurd isKeyed keyless, fun isKeyed => absurd isKeyed keyless⟩
    refine ⟨_, _, ?_, stage.called_keyless due has⟩
    rw [Plan.testRemembering_of_keyless table tree.elementClimb _ has]
    rfl
  | some number =>
    cases found : session.memo.find? table number with
    | some result =>
      obtain ⟨_, rfl⟩ := (stage.records node number result has).mp found
      exact ⟨session, events, Plan.testRemembering_of_recorded table tree.elementClimb _ node has found, stage⟩
    | none =>
      have uncalled : .check node ∉ events := by
        intro called
        cases found.symm.trans ((stage.records node number _ has).mpr ⟨called, rfl⟩)
      have nearest := stage.nearest_iff grows bounded node false
      rw [Plan.testRemembering_eq table tree.elementClimb _ node has session found]
      split
      · next failed =>
        have fails := fails_of_nearestAbove inherits (nearest.mp failed) rfl
        exact ⟨session, events, by rw [fails], stage⟩
      · next unfailed =>
        have due : IsDue tree calls passes holds events node :=
          ⟨passed, afterFront, fun _ => uncalled, fun _ => mt nearest.mpr unfailed⟩
        exact ⟨_, _, rfl, stage.called_keyed keyed due has⟩

variable {test : ν → SessionM (List (Asked κ ν)) Bool}
  (run : ∀ node session, (test node).run session =
    if passes node then (checkTest κ tree holds table node).run (session.noted (Asked.fronts ν (calls node)))
    else (false, session.noted (Asked.fronts ν (calls node))))
include run

/-- One test of the whole predicate leads from stage to stage. -/
theorem step (stage : Stage tree calls passes holds table start session events) (node : ν) :
    ∃ after further, (test node).run session = (passes node && holds node, after) ∧
      Stage tree calls passes holds table start after further := by
  have asked := stage.asked node
  rw [run]
  cases passed : passes node with
  | false => exact ⟨_, _, rfl, asked⟩
  | true =>
    rw [if_pos rfl, Bool.true_and]
    exact asked.tested grows bounded keyed inherits passed (List.suffix_append _ _)

theorem steps (stage : Stage tree calls passes holds table start session events) (nodes : List ν) :
    ∃ after further, (nodes.mapM test).run session =
        (nodes.map fun node => passes node && holds node, after) ∧
      Stage tree calls passes holds table start after further := by
  induction nodes generalizing session events with
  | nil => exact ⟨session, events, rfl, stage⟩
  | cons node rest ih =>
    obtain ⟨between, called, tests, stageBetween⟩ := stage.step grows bounded keyed inherits run node
    obtain ⟨after, further, others, stageAfter⟩ := ih stageBetween
    refine ⟨after, further, ?_, stageAfter⟩
    rw [List.mapM_cons, StateT.run_bind, tests]
    change StateT.run (rest.mapM test >>= _) between = _
    rw [StateT.run_bind, others]
    rfl

end Stage
end Inheriting

namespace Predicate

open Inheriting

/-- What the predicate in front calls comes first; then the check is tested, if need be. -/
theorem run_andInherited {tree : TreeView ν} {next : Predicate ν (List (Asked κ ν))} {passes : ν → Bool}
    {calls : ν → List κ} (noted : ∀ node, Calls (next.test node) (passes node) (Asked.fronts ν (calls node)))
    (holds : ν → Bool) (before : Session (List (Asked κ ν))) (node : ν) (session : Session (List (Asked κ ν))) :
    ((((next.andInherited tree.elementClimb true (.asks fun node =>
        noting (.check node) (holds node))).run before).1).test node).run session =
      if passes node then
        (checkTest κ tree holds before.supply node).run (session.noted (Asked.fronts ν (calls node)))
      else (false, session.noted (Asked.fronts ν (calls node))) := by
  have first := noted node session
  cases next with
  | alwaysFalse =>
    obtain ⟨fails, _⟩ := Prod.mk.inj first
    rw [← fails] at first ⊢
    exact first
  | alwaysTrue =>
    obtain ⟨passed, same⟩ := Prod.mk.inj first
    rw [← passed, if_pos rfl, ← same]
    rfl
  | dynamic identity plan =>
    change StateT.run (plan.run none node >>= fun passed => if passed then _ else pure false) session = _
    rw [StateT.run_bind, show (plan.run none node).run session = _ from first]
    cases passes node <;> rfl

/-- Whatever nodes it is tested on and in whatever order, a predicate followed by a check that is inherited
when it fails answers for both, though results are remembered. The check is called only on nodes that the
predicate has passed, right after its own calls; on a node with a key, it is called once at most, and never
where the nearest recorded result above is a failure. What is recorded at the end are the results of these
calls. -/
theorem andInherited_transparent {tree : TreeView ν}
    (acyclic : ∃ depth : ν → Nat,
      (∀ node parent, tree.parent node = some parent → depth parent < depth node) ∧
        ∀ node, depth node < tree.bound)
    (keyed : tree.elementClimb.IsKeyed) {next : Predicate ν (List (Asked κ ν))} {passes holds : ν → Bool}
    {calls : ν → List κ} (noted : ∀ node, Calls (next.test node) (passes node) (Asked.fronts ν (calls node)))
    (inherits : ∀ node above, tree.elementParent node = some above → holds above = false →
      holds node = false)
    {session : Session (List (Asked κ ν))} (tidy : session.Tidy) :
    ∃ predicate made, (next.andInherited tree.elementClimb true (.asks fun node =>
        noting (.check node) (holds node))).run session = (predicate, made) ∧
      ∀ nodes : List ν, ∃ events after, (nodes.mapM predicate.test).run made =
          (nodes.map fun node => passes node && holds node, after) ∧
        after.host = session.host ++ events ∧
        (∀ earlier node later, events = earlier ++ .check node :: later →
          passes node = true ∧ Asked.fronts ν (calls node) <:+ earlier ∧
            ((tree.key node).isSome = true → .check node ∉ earlier ∧
              ¬ tree.NearestAbove (tree.Recorded holds earlier) node false)) ∧
        ∀ node number result, tree.key node = some number →
          (after.memo.find? session.supply number = some result ↔
            .check node ∈ events ∧ holds node = result) := by
  obtain ⟨depth, grows, bounded⟩ := acyclic
  refine ⟨_, _, rfl, fun nodes => ?_⟩
  have begun : Stage tree calls passes holds session.supply session.host
      ((next.andInherited tree.elementClimb true (.asks fun node =>
        noting (.check node) (holds node))).run session).2 [] := by
    cases next <;> exact Stage.initial tidy rfl rfl
  obtain ⟨after, events, tests, stage⟩ :=
    begun.steps grows bounded keyed inherits (run_andInherited noted holds session) nodes
  refine ⟨events, after, tests, stage.host, fun earlier node later split => ?_, stage.records⟩
  have due := stage.due earlier node later split
  exact ⟨due.passed, due.afterFront, fun isKeyed => ⟨due.uncalled isKeyed, due.unfailed isKeyed⟩⟩

theorem andInherited_transparent_for_inner_first :
    ∃ predicate made, ((dynamic 0 (.asks fun node => noting (.front node) (node != 0))).andInherited
        Arena.withElementsInside.view.elementClimb true
          (.asks fun node => noting (.check node) (decide (node ≤ 1)))).run
            { host := ([] : List (Asked Nat Nat)), supply := 1 } = (predicate, made) ∧
      ∃ after, ([3, 2, 1, 0, 3].mapM predicate.test).run made = ([false, false, true, false, false], after) := by
  obtain ⟨appended, sprouted⟩ := Arena.exists_sprouted_withElementsInside
  have forest := sprouted.grown.view_isForest sprouted.once sprouted.ordered.isAcyclic
  have keyed : Arena.withElementsInside.view.elementClimb.IsKeyed := fun _ _ _ isFirst isSecond =>
    Option.some.inj (isFirst.trans isSecond.symm)
  let next : Predicate Nat (List (Asked Nat Nat)) :=
    dynamic 0 (.asks fun node => noting (.front node) (node != 0))
  have noted (node : Nat) : Calls (next.test node) (node != 0) (Asked.fronts Nat [node]) :=
    calls_ask (Asked.front node) (node != 0)
  have inherits (node above : Nat) (climbs : Arena.withElementsInside.view.elementParent node = some above)
      (fails : decide (above ≤ 1) = false) : decide (node ≤ 1) = false := by
    have isChild := sprouted.grown.mem_children (Option.eq_some_of_filter_eq_some climbs)
    have later := sprouted.ordered above node isChild
    rw [decide_eq_false_iff_not] at fails ⊢
    omega
  obtain ⟨predicate, made, run, answers⟩ := andInherited_transparent forest.exists_depth keyed noted inherits
    (Session.tidy_of_empty [] 1 {})
  obtain ⟨events, after, tests, _⟩ := answers [3, 2, 1, 0, 3]
  exact ⟨predicate, made, run, after, tests⟩

end Predicate
end SelectorEngine
