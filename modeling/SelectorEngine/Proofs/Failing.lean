import Mathlib.Data.Set.Card
import SelectorEngine.Proofs.Compile.Remembering
import SelectorEngine.Proofs.Match.Calls
import SelectorEngine.Proofs.Tree.Growth

/-! Failures of nodes above. A descendant combinator climbs until what is compiled already passes, and remembers
the nodes at which it did not. Along every sequence of tests, in whatever order walks meet, no node that failed
is tried again, so there are no more failures than nodes the walks have come to. -/
namespace SelectorEngine

variable {ν : Type}

theorem length_le_ncard {items : List ν} (nodup : items.Nodup) {held : Set ν} (finite : held.Finite)
    (within : ∀ item ∈ items, item ∈ held) : items.length ≤ held.ncard := by
  classical
  have inside : (items.toFinset : Set ν) ⊆ held := fun item member =>
    within item (List.mem_toFinset.mp (Finset.mem_coe.mp member))
  calc items.length = items.toFinset.card := (List.toFinset_card_of_nodup nodup).symm
    _ = (items.toFinset : Set ν).ncard := (Set.ncard_coe_finset _).symm
    _ ≤ held.ncard := Set.ncard_le_ncard inside finite

namespace TreeView

/-- Climbing from the first node comes to the second: to its parent, and from a node at which the climb does not
stop to what is above. -/
inductive Climbs (tree : TreeView ν) (stops : ν → Bool) : ν → ν → Prop
  | parent {node above : ν} : tree.parent node = some above → Climbs tree stops node above
  | further {node above other : ν} : tree.parent node = some above → stops above = false →
      Climbs tree stops above other → Climbs tree stops node other

theorem mem_throughFirst_ancestors_iff {tree : TreeView ν} {depth : ν → Nat}
    (grows : ∀ node parent, tree.parent node = some parent → depth parent < depth node)
    (bounded : ∀ node, depth node < tree.bound) (stops : ν → Bool) (node above : ν) :
    above ∈ throughFirst stops (tree.ancestors node) ↔ tree.Climbs stops node above := by
  induction deep : depth node using Nat.strongRecOn generalizing node with
  | ind size ih =>
    cases climbs : tree.parent node with
    | none =>
      have root : tree.ancestors node = [] := by
        rw [ancestors]
        cases tree.bound <;> simp [climb, climbs]
      rw [root]
      refine iff_of_false List.not_mem_nil fun climbing => ?_
      cases climbing with
      | parent other => cases climbs.symm.trans other
      | further other _ _ => cases climbs.symm.trans other
    | some parent =>
      have nearer : depth parent < size := deep ▸ grows node parent climbs
      rw [ancestors_of_bounded grows bounded climbs, throughFirst]
      cases stopped : stops parent with
      | true =>
        rw [if_pos rfl, List.mem_singleton]
        constructor
        · rintro rfl
          exact .parent climbs
        · intro climbing
          cases climbing with
          | parent other => exact Option.some.inj (other.symm.trans climbs)
          | further other goesOn _ =>
            cases climbs.symm.trans other
            cases stopped.symm.trans goesOn
      | false =>
        rw [if_neg Bool.false_ne_true, List.mem_cons, ih _ nearer parent rfl]
        constructor
        · rintro (rfl | further)
          · exact .parent climbs
          · exact .further climbs stopped further
        · intro climbing
          cases climbing with
          | parent other => exact .inl (Option.some.inj (other.symm.trans climbs))
          | further other _ further =>
            cases climbs.symm.trans other
            exact .inr further

end TreeView

namespace Failing

section Stage

variable (tree : TreeView ν) (passes : ν → Bool)

def stops (node : ν) : Bool := tree.isElement node && passes node

/-- The host has noted the nodes that were tried. What is recorded are failures, those of all nodes that were
tried in vain among them, and none of these was tried in vain twice. -/
structure Stage (table : Nat) (start : List ν) (session : Session (List ν)) (tried : List ν) : Prop where
  host : session.host = start ++ tried
  records : ∀ number result, session.memo.find? table number = some result →
    ∃ node, tree.key node = some number ∧ stops tree passes node = false
  recorded : ∀ node ∈ tried, passes node = false →
    ∃ number, tree.key node = some number ∧ (session.memo.find? table number).isSome = true
  once : (tried.filter (!passes ·)).Nodup

/-- Only elements are tested. -/
def elementTest (test : ν → SessionM (List ν) Bool) (node : ν) : SessionM (List ν) Bool :=
  if tree.isElement node then test node else return false

end Stage

namespace Stage

variable {tree : TreeView ν} {passes : ν → Bool} {table : Nat} {start tried : List ν}
  {session : Session (List ν)}

theorem initial (tidy : session.Tidy) {made : Session (List ν)} (host : made.host = session.host)
    (memo : made.memo = session.memo) : Stage tree passes session.supply session.host made [] where
  host := by rw [host, List.append_nil]
  records number result found := by
    rw [memo] at found
    exact absurd (tidy _ _ _ found) (Nat.lt_irrefl _)
  recorded node member := absurd member List.not_mem_nil
  once := List.nodup_nil

theorem passed (stage : Stage tree passes table start session tried) {node : ν} (passes' : passes node = true) :
    Stage tree passes table start (session.noted [node]) (tried ++ [node]) where
  host := by rw [Session.noted, stage.host, List.append_assoc]
  records := stage.records
  recorded other member fails := by
    rcases List.mem_append.mp member with earlier | now
    · exact stage.recorded other earlier fails
    · rw [List.mem_singleton.mp now, passes'] at fails
      cases fails
  once := by
    rw [List.filter_append, List.filter_singleton, passes', Bool.not_true, cond_false, List.append_nil]
    exact stage.once

/-- Recording a failure keeps what was recorded before. -/
private theorem isSome_find_insert {memo : Memo} {number key : Nat}
    (found : (memo.find? table key).isSome = true) :
    ((memo.insert table number false).find? table key).isSome = true := by
  rw [Memo.find_insert]
  split
  · rfl
  · exact found

theorem remembered (stage : Stage tree passes table start session tried) {node : ν} {number : Nat}
    (has : tree.key node = some number) (fails : stops tree passes node = false) :
    Stage tree passes table start { session with memo := session.memo.insert table number false } tried where
  host := stage.host
  records key result found := by
    rw [Memo.find_insert] at found
    split at found
    · next same => exact ⟨node, same.2 ▸ has, fails⟩
    · exact stage.records key result found
  recorded other member failed := by
    obtain ⟨key, hasKey, isRecorded⟩ := stage.recorded other member failed
    exact ⟨key, hasKey, isSome_find_insert isRecorded⟩
  once := stage.once

/-- A node about which nothing was recorded was not tried in vain before. -/
theorem failed (stage : Stage tree passes table start session tried) {node : ν} {number : Nat}
    (has : tree.key node = some number) (unrecorded : session.memo.find? table number = none)
    (fails : passes node = false) :
    Stage tree passes table start
      { session.noted [node] with memo := session.memo.insert table number false } (tried ++ [node]) where
  host := by rw [Session.noted, stage.host, List.append_assoc]
  records key result found := by
    refine (stage.remembered has ?_).records key result found
    rw [stops, fails, Bool.and_false]
  recorded other member failed := by
    rcases List.mem_append.mp member with earlier | now
    · obtain ⟨key, hasKey, isRecorded⟩ := stage.recorded other earlier failed
      exact ⟨key, hasKey, isSome_find_insert isRecorded⟩
    · obtain rfl := List.mem_singleton.mp now
      exact ⟨number, has, by simp [Memo.find_insert]⟩
  once := by
    have untried : node ∉ tried.filter (!passes ·) := by
      intro member
      obtain ⟨key, hasKey, isRecorded⟩ := stage.recorded node (List.mem_filter.mp member).1 fails
      cases has.symm.trans hasKey
      rw [unrecorded] at isRecorded
      cases isRecorded
    rw [List.filter_append, List.filter_singleton, fails, Bool.not_false, cond_true]
    exact stage.once.append (List.nodup_singleton node) (List.disjoint_singleton.mpr untried)

variable (keyed : ∀ first second number, tree.key first = some number → tree.key second = some number →
    first = second)
  (total : ∀ node, (tree.key node).isSome = true)
  {test : ν → SessionM (List ν) Bool} (noted : ∀ node, Calls (test node) (passes node) [node])
include keyed total noted

/-- A walk tries elements that it comes to, and answers whether it stops at one. -/
theorem walk (stage : Stage tree passes table start session tried) (chain : List ν) :
    ∃ after more, (Plan.anyRemembering table tree.key (elementTest tree test) chain).run session =
        (chain.any (stops tree passes), after) ∧
      Stage tree passes table start after (tried ++ more) ∧
      ∀ node ∈ more, tree.isElement node = true ∧ node ∈ throughFirst (stops tree passes) chain := by
  induction chain generalizing session tried with
  | nil => exact ⟨session, [], rfl, by rwa [List.append_nil], fun _ member => absurd member List.not_mem_nil⟩
  | cons node rest ih =>
    obtain ⟨number, has⟩ := Option.isSome_iff_exists.mp (total node)
    have recorded : (Session.recorded table number).run session =
        (session.memo.find? table number, session) := rfl
    -- Where the walk does not stop at the node it goes on with the rest of the chain.
    have further {between : Session (List ν)} {called : List ν} (fails : stops tree passes node = false)
        (staged : Stage tree passes table start between (tried ++ called))
        (inside : ∀ other ∈ called, tree.isElement other = true ∧ other = node) :
        ∃ after more, (Plan.anyRemembering table tree.key (elementTest tree test) rest).run between =
            ((node :: rest).any (stops tree passes), after) ∧
          Stage tree passes table start after (tried ++ more) ∧
          ∀ other ∈ more, tree.isElement other = true ∧
            other ∈ throughFirst (stops tree passes) (node :: rest) := by
      obtain ⟨after, more, run, stageAfter, within⟩ := ih staged
      rw [List.any_cons, fails, Bool.false_or, throughFirst, fails, if_neg Bool.false_ne_true]
      refine ⟨after, called ++ more, run, by rwa [← List.append_assoc], fun other member => ?_⟩
      rcases List.mem_append.mp member with now | later
      · exact ⟨(inside other now).1, List.mem_cons.mpr (.inl (inside other now).2)⟩
      · exact ⟨(within other later).1, List.mem_cons_of_mem node (within other later).2⟩
    have untried : ∀ other ∈ ([] : List ν), tree.isElement other = true ∧ other = node :=
      fun _ member => absurd member List.not_mem_nil
    rw [Plan.anyRemembering, has]
    dsimp only
    rw [StateT.run_bind, recorded]
    cases found : session.memo.find? table number with
    | some result =>
      obtain ⟨other, hasOther, fails⟩ := stage.records number result found
      rw [keyed other node number hasOther has] at fails
      exact further fails (by rwa [List.append_nil]) untried
    | none =>
      cases element : tree.isElement node with
      | false =>
        have fails : stops tree passes node = false := by rw [stops, element, Bool.false_and]
        have missed : (elementTest tree test node).run session = (false, session) := by
          rw [elementTest, element, if_neg Bool.false_ne_true]
          rfl
        have staged : Stage tree passes table start
            { session with memo := session.memo.insert table number false } (tried ++ []) := by
          rw [List.append_nil]
          exact stage.remembered has fails
        have remembers := further fails staged untried
        change ∃ after more, StateT.run (elementTest tree test node >>= _) session = _ ∧ _
        rw [StateT.run_bind, missed]
        exact remembers
      | true =>
        have tries : (elementTest tree test node).run session = (passes node, session.noted [node]) := by
          rw [elementTest, element, if_pos rfl]
          exact noted node session
        have isStop : stops tree passes node = passes node := by rw [stops, element, Bool.true_and]
        change ∃ after more, StateT.run (elementTest tree test node >>= _) session = _ ∧ _
        rw [StateT.run_bind, tries]
        cases answer : passes node with
        | true =>
          refine ⟨session.noted [node], [node], ?_, stage.passed answer, fun other member => ?_⟩
          · rw [List.any_cons, isStop, answer, Bool.true_or]
            rfl
          · obtain rfl := List.mem_singleton.mp member
            rw [throughFirst, isStop, answer, if_pos rfl]
            exact ⟨element, List.mem_singleton_self _⟩
        | false =>
          exact further (isStop.trans answer) (stage.failed has found answer)
            fun other member => by
              obtain rfl := List.mem_singleton.mp member
              exact ⟨element, rfl⟩

theorem walks (stage : Stage tree passes table start session tried) {asked : ν → SessionM (List ν) Bool}
    (runs : ∀ node, asked node =
      Plan.anyRemembering table tree.key (elementTest tree test) (tree.ancestors node)) (nodes : List ν) :
    ∃ after more, (nodes.mapM asked).run session =
        (nodes.map fun node => (tree.ancestors node).any (stops tree passes), after) ∧
      Stage tree passes table start after (tried ++ more) ∧
      ∀ above ∈ more, tree.isElement above = true ∧
        ∃ node ∈ nodes, above ∈ throughFirst (stops tree passes) (tree.ancestors node) := by
  induction nodes generalizing session tried with
  | nil => exact ⟨session, [], rfl, by rwa [List.append_nil], fun _ member => absurd member List.not_mem_nil⟩
  | cons node rest ih =>
    obtain ⟨between, called, first, stageBetween, visited⟩ :=
      stage.walk keyed total noted (tree.ancestors node)
    obtain ⟨after, more, others, stageAfter, visitedLater⟩ := ih stageBetween
    refine ⟨after, called ++ more, ?_, by rwa [← List.append_assoc], fun above member => ?_⟩
    · rw [List.mapM_cons, StateT.run_bind, runs, first]
      change StateT.run (rest.mapM asked >>= _) between = _
      rw [StateT.run_bind, others]
      rfl
    · rcases List.mem_append.mp member with now | later
      · exact ⟨(visited above now).1, node, List.mem_cons_self, (visited above now).2⟩
      · obtain ⟨element, other, listed, through⟩ := visitedLater above later
        exact ⟨element, other, List.mem_cons_of_mem node listed, through⟩

end Stage

/-- A descendant combinator that remembers walks up with a table of its own. -/
theorem gives_walk {options : Options ν (List ν)} (remembers : options.flags.cacheResults = true)
    {next : Predicate ν (List ν)} {passes : ν → Bool}
    (noted : ∀ node, Calls (next.test node) (passes node) [node]) (scope : Option (Scope ν))
    (session : Session (List ν)) :
    ∃ predicate made, CompileM.Gives (combinatorStep .descendant options scope next) session predicate made ∧
      made.host = session.host ∧ made.memo = session.memo ∧
      ∀ node, predicate.test node = Plan.anyRemembering session.supply options.tree.key
        (elementTest options.tree next.test) (options.tree.ancestors node) := by
  have walking (isKnown : next.isAlwaysFalse = false) :
      CompileM.Gives (combinatorStep .descendant options scope next) session
        (.dynamic (session.supply + 1)
          (.under session.supply options.climb options.tree.isElement next.toPlan))
        { session with supply := session.supply + 2 } := by
    rw [combinatorStep_eq, if_neg (by decide), isKnown, if_neg Bool.false_ne_true, combinatorWalk,
      if_pos ⟨rfl, remembers⟩]
    rfl
  cases next with
  | alwaysFalse =>
    refine ⟨_, _, rfl, rfl, rfl, fun node => ?_⟩
    exact absurd ((noted node).unique (calls_pure false)).2 (List.cons_ne_nil node [])
  | alwaysTrue => exact ⟨_, _, walking rfl, rfl, rfl, fun _ => rfl⟩
  | dynamic identity plan => exact ⟨_, _, walking rfl, rfl, rfl, fun _ => rfl⟩

end Failing

open Failing

/-- Whatever nodes it is tested on and in whatever order, a descendant combinator that remembers tries what is
compiled already on no node twice with a failure. What is recorded are nodes that are no elements or fail, and
there are no more failures than nodes that the walks up have come to. -/
theorem Combinator.descendant_retries_no_failure {options : Options ν (List ν)}
    (acyclic : ∃ depth : ν → Nat,
      (∀ node parent, options.tree.parent node = some parent → depth parent < depth node) ∧
        ∀ node, depth node < options.tree.bound)
    (keyed : ∀ first second number, options.tree.key first = some number →
      options.tree.key second = some number → first = second)
    (total : ∀ node, (options.tree.key node).isSome = true)
    (remembers : options.flags.cacheResults = true) {next : Predicate ν (List ν)} {passes : ν → Bool}
    (noted : ∀ node, Calls (next.test node) (passes node) [node]) (scope : Option (Scope ν))
    {session : Session (List ν)} (tidy : session.Tidy) :
    ∃ predicate made, CompileM.Gives (combinatorStep .descendant options scope next) session predicate made ∧
      ∀ nodes : List ν, ∃ tried after, (nodes.mapM predicate.test).run made =
          (nodes.map fun node => (options.tree.ancestors node).any (stops options.tree passes), after) ∧
        after.host = session.host ++ tried ∧
        (∀ number result, after.memo.find? session.supply number = some result →
          ∃ node, options.tree.key node = some number ∧
            (options.tree.isElement node = false ∨ passes node = false)) ∧
        (∀ above ∈ tried, options.tree.isElement above = true ∧
          ∃ node ∈ nodes, options.tree.Climbs (stops options.tree passes) node above) ∧
        (tried.filter (!passes ·)).Nodup ∧
        (tried.filter (!passes ·)).length ≤
          {above | ∃ node ∈ nodes, options.tree.Climbs (stops options.tree passes) node above}.ncard := by
  obtain ⟨depth, grows, bounded⟩ := acyclic
  obtain ⟨predicate, made, gives, host, memo, runs⟩ := gives_walk remembers noted scope session
  refine ⟨predicate, made, gives, fun nodes => ?_⟩
  have begun : Stage options.tree passes session.supply session.host made [] := Stage.initial tidy host memo
  obtain ⟨after, tried, tests, stage, visited⟩ := begun.walks keyed total noted runs nodes
  have climbs (above : ν) (member : above ∈ tried) : options.tree.isElement above = true ∧
      ∃ node ∈ nodes, options.tree.Climbs (stops options.tree passes) node above := by
    obtain ⟨element, node, listed, through⟩ := visited above member
    exact ⟨element, node, listed,
      (TreeView.mem_throughFirst_ancestors_iff grows bounded _ node above).mp through⟩
  refine ⟨tried, after, tests, stage.host, fun number result found => ?_, climbs, stage.once, ?_⟩
  · obtain ⟨node, has, fails⟩ := stage.records number result found
    exact ⟨node, has, Bool.and_eq_false_iff.mp fails⟩
  · have visitable : {above | ∃ node ∈ nodes, options.tree.Climbs (stops options.tree passes) node above} =
        {above | above ∈ nodes.flatMap fun node =>
          throughFirst (stops options.tree passes) (options.tree.ancestors node)} := by
      ext above
      simp only [Set.mem_ofPred_eq, List.mem_flatMap,
        TreeView.mem_throughFirst_ancestors_iff grows bounded]
    refine length_le_ncard stage.once (visitable ▸ List.finite_toSet _) fun above member => ?_
    exact (climbs above (List.mem_filter.mp member).1).2

theorem Combinator.descendant_retries_no_failure_for_inner_first :
    let options : Options Nat (List Nat) := Options.ofTree Arena.withElementsInside.view
    let next : Predicate Nat (List Nat) := .dynamic 0 (.asks fun node => noting node (node == 1))
    ∃ predicate made, CompileM.Gives (combinatorStep .descendant options none next) { host := [], supply := 1 }
        predicate made ∧
      ∃ tried after, ([3, 1, 2, 3].mapM predicate.test).run made = ([true, false, true, true], after) ∧
        after.host = tried ∧ (tried.filter (!· == 1)).Nodup := by
  intro options next
  obtain ⟨appended, sprouted⟩ := Arena.exists_sprouted_withElementsInside
  have forest := sprouted.grown.view_isForest sprouted.once sprouted.ordered.isAcyclic
  have keyed (first second number : Nat) (isFirst : some first = some number)
      (isSecond : some second = some number) : first = second :=
    Option.some.inj (isFirst.trans isSecond.symm)
  have noted (node : Nat) : Calls (next.test node) (node == 1) [node] := calls_ask node (node == 1)
  have acyclic : ∃ depth : Nat → Nat,
      (∀ node parent, options.tree.parent node = some parent → depth parent < depth node) ∧
        ∀ node, depth node < options.tree.bound := forest.exists_depth
  have remembers : options.flags.cacheResults = true := rfl
  obtain ⟨predicate, made, gives, answers⟩ := descendant_retries_no_failure acyclic keyed (fun _ => rfl)
    remembers noted none (Session.tidy_of_empty [] 1 {})
  obtain ⟨tried, after, tests, host, _, _, once, _⟩ := answers [3, 1, 2, 3]
  exact ⟨predicate, made, gives, tried, after, tests, host, once⟩

end SelectorEngine
