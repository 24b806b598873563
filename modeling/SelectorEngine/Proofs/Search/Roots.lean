import Mathlib.Data.List.Pairwise
import SelectorEngine.Proofs.Match.Remembering
import SelectorEngine.Proofs.Search.Order
import SelectorEngine.Search

/-! What searches with tests find. A search gives what the tests say of the elements it goes through;
leaving out the nodes that stand below others, or come again, leaves a search with the same elements. -/
namespace SelectorEngine

variable {ν σ : Type}

namespace Ledger

variable {ledger : Ledger}

private theorem ensures_collect {visit : ν → SessionM σ (List ν)} {seen : ν → List ν}
    (visits : ∀ node, ledger.Ensures (visit node) (· = seen node)) (nodes : List ν) :
    ledger.Ensures (TreeView.collect visit nodes) (· = nodes.flatMap seen) := by
  induction nodes with
  | nil => exact ensures_pure rfl
  | cons node rest ih =>
    refine ensures_bind (visits node) fun here same => ensures_bind ih fun further same' => ?_
    subst same same'
    exact ensures_pure rfl

theorem ensures_findAll (tree : TreeView ν) {test : ν → SessionM σ Bool} {answer : ν → Bool}
    (tests : ∀ node, ledger.Ensures (test node) (· = answer node)) (nodes : List ν) :
    ledger.Ensures (tree.findAll nodes test) (· = (tree.elementsFrom nodes).filter answer) := by
  unfold TreeView.findAll TreeView.elementsFrom
  generalize tree.bound = depth
  induction depth generalizing nodes with
  | zero => exact ensures_pure rfl
  | succ depth ih =>
    have spread : (tree.elementsOnto (depth + 1) nodes []).filter answer =
        nodes.flatMap fun node => if tree.isElement node then
          (node :: tree.elementsOnto depth (tree.children node) []).filter answer else [] := by
      rw [TreeView.elementsOnto_succ_eq_flatMap, List.filter_flatMap]
      refine List.flatMap_congr fun node _ => ?_
      split <;> rfl
    rw [spread, TreeView.findAllWithin]
    refine ensures_collect (fun node => ?_) nodes
    split
    · refine ensures_bind (tests node) fun passes same =>
        ensures_bind (ih (tree.children node)) fun below same' => ensures_pure ?_
      subst same same'
      rw [List.filter_cons]
    · exact ensures_pure rfl

end Ledger

namespace TreeView

variable {tree : TreeView ν} {same : ν → ν → Bool}
  (identity : ∀ first second, same first second = true ↔ first = second)

theorem topmostAfter_sublist (tree : TreeView ν) (same : ν → ν → Bool) (all before nodes : List ν) :
    (tree.topmostAfter same all before nodes).Sublist nodes := by
  induction nodes generalizing before with
  | nil => exact .slnil
  | cons node rest ih =>
    rw [topmostAfter]
    split
    · exact (ih _).cons node
    · exact (ih _).cons_cons node

theorem removeSubsets_sublist (tree : TreeView ν) (same : ν → ν → Bool) (nodes : List ν) :
    (tree.removeSubsets same nodes).Sublist nodes :=
  tree.topmostAfter_sublist same nodes [] nodes

theorem topmostAfter_append (tree : TreeView ν) (same : ν → ν → Bool) (all before nodes further : List ν) :
    tree.topmostAfter same all before (nodes ++ further) =
      tree.topmostAfter same all before nodes ++
        tree.topmostAfter same all (before ++ nodes) further := by
  induction nodes generalizing before with
  | nil => simp [topmostAfter]
  | cons node rest ih =>
    rw [List.cons_append, topmostAfter, topmostAfter, ih]
    split <;> simp

theorem nextSiblings_sublist (tree : TreeView ν) (same : ν → ν → Bool) (node : ν) :
    (tree.nextSiblings same node).Sublist (tree.siblings node) :=
  List.filter_sublist.trans ((List.drop_sublist 1 _).trans (List.dropWhile_sublist _))

instance : Std.Symm tree.Apart := ⟨fun _ _ => And.symm⟩

section Roots

variable (forest : tree.IsForest)
include identity forest

private theorem covered_iff (all before : List ν) (node : ν) :
    (before.any (same · node) || (tree.ancestors node).any fun above => all.any (same · above)) = true ↔
      node ∈ before ∨ ∃ above ∈ all, tree.Below above node := by
  have known (nodes : List ν) (node : ν) : nodes.any (same · node) = true ↔ node ∈ nodes := by
    simp only [List.any_eq_true, identity, exists_eq_right]
  rw [Bool.or_eq_true, known, List.any_eq_true]
  refine or_congr_right (exists_congr fun above => ?_)
  rw [known, forest.mem_ancestors, and_comm]

private theorem mem_topmostAfter (all before nodes : List ν) (node : ν) :
    node ∈ tree.topmostAfter same all before nodes ↔ node ∈ nodes ∧ node ∉ before ∧
      ∀ above ∈ all, ¬ tree.Below above node := by
  induction nodes generalizing before with
  | nil => simp [topmostAfter]
  | cons first rest ih =>
    have covered := covered_iff identity forest all before first
    have fresh : node ∉ before ++ [first] ↔ node ∉ before ∧ node ≠ first := by
      rw [List.mem_append, List.mem_singleton, not_or]
    rw [topmostAfter]
    split
    · next isCovered =>
      have stands := covered.mp isCovered
      rw [ih, fresh]
      constructor
      · intro known
        obtain ⟨member, ⟨new, _⟩, top⟩ := known
        exact ⟨List.mem_cons_of_mem _ member, new, top⟩
      · intro known
        obtain ⟨member, new, top⟩ := known
        have other : node ≠ first := by
          intro same
          subst same
          rcases stands with old | ⟨above, listed, isBelow⟩
          · exact new old
          · exact top above listed isBelow
        exact ⟨(List.mem_cons.mp member).resolve_left other, ⟨new, other⟩, top⟩
    · next isFree =>
      have stands := mt covered.mpr isFree
      rw [not_or] at stands
      rw [List.mem_cons, ih, fresh]
      constructor
      · intro either
        rcases either with rfl | ⟨member, ⟨new, _⟩, top⟩
        · exact ⟨List.mem_cons_self, stands.1, fun above listed isBelow =>
            stands.2 ⟨above, listed, isBelow⟩⟩
        · exact ⟨List.mem_cons_of_mem _ member, new, top⟩
      · intro known
        obtain ⟨member, new, top⟩ := known
        rcases List.mem_cons.mp member with same | further
        · exact .inl same
        · by_cases same : node = first
          · exact .inl same
          · exact .inr ⟨further, ⟨new, same⟩, top⟩

theorem mem_removeSubsets (nodes : List ν) (node : ν) :
    node ∈ tree.removeSubsets same nodes ↔ node ∈ nodes ∧ ∀ above ∈ nodes, ¬ tree.Below above node := by
  rw [removeSubsets, mem_topmostAfter identity forest]
  exact and_congr_right fun _ => and_iff_right List.not_mem_nil

private theorem topmostAfter_nodup (all before nodes : List ν) :
    (tree.topmostAfter same all before nodes).Nodup := by
  induction nodes generalizing before with
  | nil => exact List.nodup_nil
  | cons first rest ih =>
    rw [topmostAfter]
    split
    · exact ih _
    · refine List.nodup_cons.mpr ⟨fun member => ?_, ih _⟩
      have new := ((mem_topmostAfter identity forest all (before ++ [first]) rest first).mp member).2.1
      exact new (by simp)

private theorem topmostAfter_idxOf_pairwise [DecidableEq ν] (all before nodes : List ν) :
    (tree.topmostAfter same all before nodes).Pairwise fun earlier later =>
      (before ++ nodes).idxOf earlier < (before ++ nodes).idxOf later := by
  induction nodes generalizing before with
  | nil => exact .nil
  | cons first rest ih =>
    have further := ih (before ++ [first])
    rw [← List.append_cons] at further
    rw [topmostAfter]
    split
    · exact further
    · next isFree =>
      have new : first ∉ before := fun old =>
        isFree ((covered_iff identity forest all before first).mpr (.inl old))
      refine List.pairwise_cons.mpr ⟨fun other kept => ?_, further⟩
      have later := ((mem_topmostAfter identity forest all (before ++ [first]) rest other).mp kept).2.1
      have here : (before ++ first :: rest).idxOf first = before.length := by
        rw [List.idxOf_append_of_notMem new, List.idxOf_cons_self, Nat.add_zero]
      have there : (before ++ first :: rest).idxOf other = before.length + 1 + rest.idxOf other := by
        rw [List.append_cons, List.idxOf_append_of_notMem later, List.length_append, List.length_singleton]
      omega

/-- Every node that is kept is kept at its first place. -/
theorem removeSubsets_idxOf_pairwise [DecidableEq ν] (nodes : List ν) :
    (tree.removeSubsets same nodes).Pairwise fun earlier later => nodes.idxOf earlier < nodes.idxOf later :=
  topmostAfter_idxOf_pairwise identity forest nodes [] nodes

theorem removeSubsets_nodup (nodes : List ν) : (tree.removeSubsets same nodes).Nodup :=
  topmostAfter_nodup identity forest nodes [] nodes

theorem removeSubsets_apart (nodes : List ν) :
    (tree.removeSubsets same nodes).Pairwise tree.Apart := by
  refine (removeSubsets_nodup identity forest nodes).imp_of_mem fun {first second} isFirst isSecond differ => ?_
  obtain ⟨first_mem, firstTop⟩ := (mem_removeSubsets identity forest nodes first).mp isFirst
  obtain ⟨second_mem, secondTop⟩ := (mem_removeSubsets identity forest nodes second).mp isSecond
  constructor
  · intro either
    rcases either with same | isBelow
    · exact differ same.symm
    · exact secondTop first first_mem isBelow
  · intro either
    rcases either with same | isBelow
    · exact differ same
    · exact firstTop second second_mem isBelow

theorem exists_root (nodes : List ν) {node : ν} (member : node ∈ nodes) :
    ∃ root ∈ tree.removeSubsets same nodes, tree.AtOrBelow root node := by
  obtain ⟨depth, grows, _⟩ := forest.exists_depth
  induction size : depth node using Nat.strongRecOn generalizing node with
  | ind size ih =>
    by_cases top : ∀ above ∈ nodes, ¬ tree.Below above node
    · exact ⟨node, (mem_removeSubsets identity forest nodes node).mpr ⟨member, top⟩, .inl rfl⟩
    · simp only [not_forall, not_not] at top
      obtain ⟨above, listed, isBelow⟩ := top
      have higher := depth_lt_of_below grows isBelow
      obtain ⟨root, isRoot, inRoot⟩ := ih (depth above) (size ▸ higher) listed rfl
      refine ⟨root, isRoot, .inr ?_⟩
      rcases inRoot with rfl | further
      · exact isBelow
      · exact further.trans isBelow

theorem existsUnique_root (nodes : List ν) {node : ν} (member : node ∈ nodes) :
    ∃! root, root ∈ tree.removeSubsets same nodes ∧ tree.AtOrBelow root node := by
  obtain ⟨root, isRoot, inRoot⟩ := exists_root identity forest nodes member
  refine ⟨root, ⟨isRoot, inRoot⟩, fun other known => ?_⟩
  obtain ⟨isOther, inOther⟩ := known
  by_contra differ
  exact ((removeSubsets_apart identity forest nodes).forall isOther isRoot differ).ne
    inOther inRoot rfl

/-- From nodes that are apart nothing is removed. -/
theorem removeSubsets_of_apart {nodes : List ν} (apart : nodes.Pairwise tree.Apart) :
    tree.removeSubsets same nodes = nodes := by
  have distinct : nodes.Nodup := apart.imp fun {first second} apart => apart.ne (.inl rfl) (.inl rfl)
  have kept (node : ν) : node ∈ tree.removeSubsets same nodes ↔ node ∈ nodes := by
    rw [mem_removeSubsets identity forest]
    refine and_iff_left_of_imp fun member above listed isBelow => ?_
    have differ : above ≠ node := fun same => forest.not_below_self node (same ▸ isBelow)
    exact (apart.forall listed member differ).1 (.inr isBelow)
  have permuted := (List.perm_ext_iff_of_nodup (removeSubsets_nodup identity forest nodes) distinct).mpr kept
  exact (removeSubsets_sublist tree same nodes).eq_of_length permuted.length_eq

/-- Below a given node that is no element nothing is found, even if it is below another one too. -/
theorem mem_elementsFrom_removeSubsets_iff (solid : tree.HasSolidInside) (nodes : List ν) (found : ν) :
    found ∈ tree.elementsFrom (tree.removeSubsets same nodes) ↔ tree.isElement found = true ∧
      (∃ node ∈ nodes, tree.AtOrBelow node found) ∧
        ∀ node ∈ nodes, tree.AtOrBelow node found → tree.isElement node = true := by
  rw [forest.mem_elementsFrom]
  constructor
  · intro known
    obtain ⟨start, isStart, element, way⟩ := known
    obtain ⟨listed, top⟩ := (mem_removeSubsets identity forest nodes start).mp isStart
    have inStart : tree.AtOrBelow start found := forest.below_of_way way
    have found_element := isElement_of_way element way
    refine ⟨found_element, ⟨start, listed, inStart⟩, fun node isNode inNode => ?_⟩
    rcases inNode with rfl | isBelow
    · exact found_element
    · rcases inStart with rfl | alsoBelow
      · exact absurd isBelow (top node isNode)
      · rcases below_or_below isBelow alsoBelow with rfl | further | further
        · exact element
        · exact absurd further (top node isNode)
        · obtain ⟨parent, climbs⟩ := exists_parent_of_below further
          obtain ⟨child, isChild⟩ := exists_child_of_below isBelow
          exact solid node parent child climbs isChild
  · intro known
    obtain ⟨element, ⟨node, listed, inNode⟩, elements⟩ := known
    obtain ⟨root, isRoot, above⟩ := exists_root identity forest nodes listed
    have inRoot := above.trans inNode
    have rootElement := elements root ((removeSubsets_sublist tree same nodes).subset isRoot) inRoot
    refine ⟨root, isRoot, rootElement, ?_⟩
    rcases inRoot with rfl | isBelow
    · exact .refl
    · exact forest.way_of_below solid element isBelow

theorem mem_elementsFrom_removeSubsets (solid : tree.HasSolidInside) {nodes : List ν}
    (elements : ∀ node ∈ nodes, tree.isElement node = true) (found : ν) :
    found ∈ tree.elementsFrom (tree.removeSubsets same nodes) ↔
      tree.isElement found = true ∧ ∃ node ∈ nodes, tree.AtOrBelow node found := by
  rw [mem_elementsFrom_removeSubsets_iff identity forest solid]
  exact and_congr_right fun _ => and_iff_left fun node listed _ => elements node listed

theorem topmostAfter_given_before {nodes : List ν}
    (ordered : nodes.Pairwise fun first second => first = second ∨ tree.Precedes first second)
    (further : List ν) :
    (tree.topmostAfter same (nodes ++ further) [] nodes).Pairwise tree.Before := by
  have apart := removeSubsets_apart identity forest (nodes ++ further)
  rw [removeSubsets, topmostAfter_append, List.pairwise_append] at apart
  refine (apart.1.and (ordered.sublist (topmostAfter_sublist tree same _ [] nodes))).imp ?_
  intro first second known
  obtain ⟨apart, rfl | isBelow | before⟩ := known
  · exact absurd (.inl rfl) apart.1
  · exact absurd (.inr isBelow) apart.1
  · exact before

/-- Later siblings of two nodes in document order are in document order, unless the second node leads to
what the first one leads to as well. -/
private theorem before_of_mem_nextSiblings (solid : tree.HasSolidInside) {node other first second : ν}
    (ordered : node = other ∨ tree.Precedes node other)
    (isNext : first ∈ tree.nextSiblings same node) (alsoNext : second ∈ tree.nextSiblings same other)
    (new : second ∉ tree.nextSiblings same node)
    (top : ∀ above ∈ node :: tree.nextSiblings same node, ¬ tree.Below above second) :
    tree.Before first second := by
  obtain ⟨_, earlier⟩ := (mem_nextSiblings forest identity node first).mp isNext
  obtain ⟨element, later⟩ := (mem_nextSiblings forest identity other second).mp alsoNext
  have shared (above : ν) : tree.Below above other ↔ tree.Below above second :=
    below_congr (forest.parent_eq_of_sibling later) above
  rcases ordered with rfl | isBelow | ⟨left, right, apart, inLeft, inRight⟩
  · exact absurd alsoNext new
  · exact absurd ((shared node).mp isBelow) (top node List.mem_cons_self)
  rcases inRight with rfl | underRight
  · have further := forest.sibling_trans later apart
    rcases inLeft with rfl | underLeft
    · exact absurd ((mem_nextSiblings forest identity node second).mpr ⟨element, further⟩) new
    · have inLeft := (below_congr (forest.parent_eq_of_sibling earlier) left).mp underLeft
      exact ⟨left, second, further, .inr inLeft, .inl rfl⟩
  · have inRight := (shared right).mp underRight
    rcases inLeft with rfl | underLeft
    · -- A sibling with something below it is an element, so that the first node leads to it.
      obtain ⟨parent, climbs⟩ := forest.exists_parent_of_earlier apart
      obtain ⟨child, isChild⟩ := exists_child_of_below inRight
      have isNext := (mem_nextSiblings forest identity node right).mpr
        ⟨solid right parent child climbs isChild, apart⟩
      exact absurd inRight (top right (List.mem_cons_of_mem _ isNext))
    · have inLeft := (below_congr (forest.parent_eq_of_sibling earlier) left).mp underLeft
      exact ⟨left, right, apart, .inr inLeft, .inr inRight⟩

theorem topmostAfter_nextSiblings_before (solid : tree.HasSolidInside) {all nodes : List ν}
    (ordered : nodes.Pairwise fun first second => first = second ∨ tree.Precedes first second)
    (given : ∀ node ∈ nodes, ∀ start ∈ node :: tree.nextSiblings same node, start ∈ all)
    (before : List ν) :
    (tree.topmostAfter same all before (nodes.flatMap (tree.nextSiblings same))).Pairwise
      tree.Before := by
  induction nodes generalizing before with
  | nil => exact .nil
  | cons node rest ih =>
    obtain ⟨follows, ordered⟩ := List.pairwise_cons.mp ordered
    obtain ⟨here, given⟩ := List.forall_mem_cons.mp given
    rw [List.flatMap_cons, topmostAfter_append, List.pairwise_append]
    refine ⟨?_, ih ordered given _, fun first isFirst second isSecond => ?_⟩
    · have siblings := (topmostAfter_sublist tree same all before _).trans
        (tree.nextSiblings_sublist same node)
      exact ((forest.siblings_pairwise node).sublist siblings).imp before_of_earlier
    · have isNext := (topmostAfter_sublist tree same all before _).subset isFirst
      obtain ⟨listed, new, top⟩ :=
        (mem_topmostAfter identity forest all (before ++ _) _ second).mp isSecond
      obtain ⟨other, isOther, alsoNext⟩ := List.mem_flatMap.mp listed
      exact before_of_mem_nextSiblings identity forest solid (follows other isOther) isNext alsoNext
        (fun member => new (List.mem_append_right before member))
        fun above member => top above (here above member)

end Roots
end TreeView
end SelectorEngine
