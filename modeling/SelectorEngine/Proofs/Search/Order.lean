import SelectorEngine.Proofs.Meaning.Region

/-! Document order. A node comes before what is below it and, with all that is below it, before its later
siblings. Searches go through elements in this order, and from roots that are apart they meet no element
twice. -/
namespace SelectorEngine.TreeView

variable {ν : Type} {tree : TreeView ν}

def AtOrBelow (tree : TreeView ν) (above node : ν) : Prop := node = above ∨ tree.Below above node

def Earlier (tree : TreeView ν) (first second : ν) : Prop :=
  Combinator.sibling.Relates tree second first

/-- The first node comes before the second in document order. -/
def Precedes (tree : TreeView ν) (first second : ν) : Prop :=
  tree.Below first second ∨ ∃ left right, tree.Earlier left right ∧
    tree.AtOrBelow left first ∧ tree.AtOrBelow right second

/-- The first node, with all that is below it, comes before the second and all that is below that. -/
def Before (tree : TreeView ν) (first second : ν) : Prop :=
  ∃ left right, tree.Earlier left right ∧ tree.AtOrBelow left first ∧ tree.AtOrBelow right second

/-- The node is at or below an element that stands behind one of the given nodes. -/
def Beside (tree : TreeView ν) (given : List ν) (node : ν) : Prop :=
  ∃ start ∈ given, ∃ sibling, tree.isElement sibling = true ∧ tree.Earlier start sibling ∧
    tree.AtOrBelow sibling node

def Apart (tree : TreeView ν) (first second : ν) : Prop :=
  ¬ tree.AtOrBelow first second ∧ ¬ tree.AtOrBelow second first

theorem AtOrBelow.trans {above node other : ν} (inAbove : tree.AtOrBelow above node)
    (inNode : tree.AtOrBelow node other) : tree.AtOrBelow above other := by
  rcases inNode with rfl | isBelow
  · exact inAbove
  · rcases inAbove with rfl | further
    · exact .inr isBelow
    · exact .inr (further.trans isBelow)

theorem before_of_earlier {first second : ν} (earlier : tree.Earlier first second) :
    tree.Before first second :=
  ⟨first, second, earlier, .inl rfl, .inl rfl⟩

theorem Before.below {first second : ν} (before : tree.Before first second) {node other : ν}
    (inFirst : tree.AtOrBelow first node) (inSecond : tree.AtOrBelow second other) :
    tree.Before node other := by
  obtain ⟨left, right, earlier, inLeft, inRight⟩ := before
  exact ⟨left, right, earlier, inLeft.trans inFirst, inRight.trans inSecond⟩

theorem below_or_below {first second node : ν} (isBelow : tree.Below first node)
    (alsoBelow : tree.Below second node) :
    first = second ∨ tree.Below first second ∨ tree.Below second first := by
  induction isBelow with
  | single climbs =>
    rcases (below_step climbs).mp alsoBelow with rfl | further
    · exact .inl rfl
    · exact .inr (.inr further)
  | tail isBelow climbs ih =>
    rcases (below_step climbs).mp alsoBelow with rfl | further
    · exact .inr (.inl isBelow)
    · exact ih further

theorem Apart.ne {first second : ν} (apart : tree.Apart first second) {node other : ν}
    (inFirst : tree.AtOrBelow first node) (inSecond : tree.AtOrBelow second other) : node ≠ other := by
  intro same
  subst same
  rcases inFirst with rfl | isBelow
  · exact apart.2 inSecond
  · rcases inSecond with rfl | alsoBelow
    · exact apart.1 (.inr isBelow)
    · rcases below_or_below isBelow alsoBelow with rfl | further | further
      · exact apart.1 (.inl rfl)
      · exact apart.1 (.inr further)
      · exact apart.2 (.inr further)

private theorem pairwise_split (items : List ν) : items.Pairwise fun first second =>
    ∃ before between after, items = before ++ first :: between ++ second :: after := by
  rw [List.pairwise_iff_forall_sublist]
  intro first second sublist
  obtain ⟨front, back, rfl, inFront, inBack⟩ := List.cons_sublist_iff.mp sublist
  obtain ⟨before, between, rfl⟩ := List.append_of_mem inFront
  obtain ⟨middle, after, rfl⟩ := List.append_of_mem (List.singleton_sublist.mp inBack)
  exact ⟨before, between ++ middle, after, by simp⟩

namespace IsForest

variable (forest : tree.IsForest)
include forest

theorem siblings_pairwise (node : ν) : (tree.siblings node).Pairwise tree.Earlier := by
  refine (pairwise_split (tree.siblings node)).imp_of_mem fun {first second} _ listed split => ?_
  obtain ⟨before, between, after, split⟩ := split
  exact ⟨before, between, after, by rw [forest.siblings_eq_of_mem listed, split]⟩

theorem children_pairwise (node : ν) : (tree.children node).Pairwise tree.Earlier := by
  refine (pairwise_split (tree.children node)).imp_of_mem fun {first second} _ listed split => ?_
  obtain ⟨before, between, after, split⟩ := split
  have climbs := (forest.mem_children node second).mp listed
  have siblings : tree.siblings second = tree.children node := by
    rw [forest.siblings_eq, climbs]
  exact ⟨before, between, after, by rw [siblings, split]⟩

theorem ne_of_earlier {first second : ν} (earlier : tree.Earlier first second) : first ≠ second := by
  intro same
  subst same
  obtain ⟨before, between, after, split⟩ := earlier
  have nodup := forest.siblings_nodup first
  rw [split, List.append_assoc, List.cons_append, List.perm_middle.nodup_iff, List.nodup_cons] at nodup
  exact nodup.1 (by simp)

theorem exists_parent_of_earlier {first second : ν} (earlier : tree.Earlier first second) :
    ∃ parent, tree.parent second = some parent := by
  obtain ⟨before, between, after, split⟩ := earlier
  cases climbs : tree.parent second with
  | some parent => exact ⟨parent, rfl⟩
  | none =>
    have alone := congrArg List.length (forest.siblings_eq second)
    simp [climbs, split] at alone
    omega

theorem apart_of_earlier {first second : ν} (earlier : tree.Earlier first second) :
    tree.Apart first second := by
  have differ := forest.ne_of_earlier earlier
  have parents := forest.parent_eq_of_sibling earlier
  constructor
  · intro either
    rcases either with same | isBelow
    · exact differ same.symm
    · exact forest.not_below_self first ((below_congr parents first).mpr isBelow)
  · intro either
    rcases either with same | isBelow
    · exact differ same
    · exact forest.not_below_self second ((below_congr parents second).mp isBelow)

/-- No two nodes are each before the other in document order. -/
theorem precedes_asymm {first second : ν} (before : tree.Precedes first second) :
    ¬ tree.Precedes second first := by
  have inside {above node other : ν} (inAbove : tree.AtOrBelow above node)
      (isBelow : tree.Below node other) : tree.AtOrBelow above other := by
    rcases inAbove with rfl | further
    · exact .inr isBelow
    · exact .inr (further.trans isBelow)
  have under {above node other : ν} (isBelow : tree.Below above node)
      (inNode : tree.AtOrBelow node other) : tree.AtOrBelow above other := by
    rcases inNode with rfl | further
    · exact .inr isBelow
    · exact .inr (isBelow.trans further)
  intro after
  rcases before with isBelow | ⟨left, right, earlier, inLeft, inRight⟩
  · rcases after with isAbove | ⟨left, right, earlier, inLeft, inRight⟩
    · exact forest.not_below_self first (isBelow.trans isAbove)
    · exact (forest.apart_of_earlier earlier).ne inLeft (inside inRight isBelow) rfl
  · have apart := forest.apart_of_earlier earlier
    rcases after with isAbove | ⟨left', right', earlier', inLeft', inRight'⟩
    · exact apart.ne inLeft (inside inRight isAbove) rfl
    · have apart' := forest.apart_of_earlier earlier'
      -- Either the two pairs of siblings are of one family, or one pair stands below the other.
      by_cases shared : tree.Apart left right'
      · exact shared.ne inLeft inRight' rfl
      · rcases not_and_or.mp shared with notApart | notApart
        · rcases not_not.mp notApart with rfl | isBelow
          · have apart'' := forest.apart_of_earlier (forest.sibling_trans earlier earlier')
            exact apart''.ne inLeft' inRight rfl
          · have isBelow' := (below_congr (forest.parent_eq_of_sibling earlier') left).mpr isBelow
            exact apart.ne (under isBelow' inLeft') inRight rfl
        · rcases not_not.mp notApart with rfl | isBelow
          · have apart'' := forest.apart_of_earlier (forest.sibling_trans earlier earlier')
            exact apart''.ne inLeft' inRight rfl
          · have isBelow' := (below_congr (forest.parent_eq_of_sibling earlier) right').mp isBelow
            exact apart'.ne inLeft' (under isBelow' inRight) rfl

/-- Two lists of the same nodes, both in document order, are one list. -/
theorem eq_of_precedes {first second : List ν} (ordered : first.Pairwise tree.Precedes)
    (alsoOrdered : second.Pairwise tree.Precedes) (same : ∀ node, node ∈ first ↔ node ∈ second) :
    first = second := by
  have nodup {nodes : List ν} (ordered : nodes.Pairwise tree.Precedes) : nodes.Nodup := by
    refine ordered.imp fun before same => ?_
    subst same
    exact forest.precedes_asymm before before
  have asymm (node other : ν) (_ : node ∈ first) (_ : other ∈ second) (before : tree.Precedes node other)
      (after : tree.Precedes other node) : node = other :=
    absurd after (forest.precedes_asymm before)
  exact ((List.perm_ext_iff_of_nodup (nodup ordered) (nodup alsoOrdered)).mpr same).eq_of_pairwise asymm ordered
    alsoOrdered

theorem atOrBelow_of_mem_elementsOnto {fuel : Nat} {nodes : List ν} {found : ν}
    (member : found ∈ tree.elementsOnto fuel nodes []) : ∃ start ∈ nodes, tree.AtOrBelow start found := by
  obtain ⟨start, listed, _, way⟩ := way_of_mem_elementsOnto member
  exact ⟨start, listed, forest.below_of_way way⟩

private theorem below_of_mem_elementsOnto_children {fuel : Nat} {root found : ν}
    (member : found ∈ tree.elementsOnto fuel (tree.children root) []) : tree.Below root found := by
  obtain ⟨child, isChild, inChild⟩ := forest.atOrBelow_of_mem_elementsOnto member
  have climbs := (forest.mem_children root child).mp isChild
  rcases inChild with rfl | isBelow
  · exact .single climbs
  · exact .head climbs isBelow

private theorem atOrBelow_of_mem_cons {fuel : Nat} {root found : ν}
    (member : found ∈ root :: tree.elementsOnto fuel (tree.children root) []) :
    found = root ∨ tree.Below root found := by
  rcases List.mem_cons.mp member with rfl | further
  · exact .inl rfl
  · exact .inr (forest.below_of_mem_elementsOnto_children further)

/-- A relation that holds between a node and what is below it, and between what is at or below roots in
their order, holds between what a search reaches in its order. -/
private theorem pairwise_elementsOnto {related : ν → ν → Prop} {ordered : ν → ν → Prop}
    (down : ∀ node below, tree.Below node below → related node below)
    (across : ∀ left right, ordered left right → ∀ node other, tree.AtOrBelow left node →
      tree.AtOrBelow right other → related node other)
    (children : ∀ node, (tree.children node).Pairwise ordered) (fuel : Nat) {roots : List ν}
    (start : roots.Pairwise ordered) : (tree.elementsOnto fuel roots []).Pairwise related := by
  induction fuel generalizing roots with
  | zero => exact .nil
  | succ fuel ih =>
    rw [elementsOnto_succ, List.pairwise_flatMap]
    refine ⟨fun root _ => List.pairwise_cons.mpr ⟨fun below member => ?_, ih (children root)⟩,
      (start.filter _).imp fun {left right} before node inLeft other inRight => ?_⟩
    · exact down root below (forest.below_of_mem_elementsOnto_children member)
    · exact across left right before node other (forest.atOrBelow_of_mem_cons inLeft)
        (forest.atOrBelow_of_mem_cons inRight)

theorem elementsOnto_precedes_of_before (fuel : Nat) {roots : List ν}
    (before : roots.Pairwise tree.Before) : (tree.elementsOnto fuel roots []).Pairwise tree.Precedes :=
  forest.pairwise_elementsOnto (fun _ _ isBelow => .inl isBelow)
    (fun _ _ before _ _ inLeft inRight => .inr (before.below inLeft inRight))
    (fun node => (forest.children_pairwise node).imp before_of_earlier) fuel before

theorem elementsOnto_precedes (fuel : Nat) {roots : List ν} (siblings : roots.Pairwise tree.Earlier) :
    (tree.elementsOnto fuel roots []).Pairwise tree.Precedes :=
  forest.elementsOnto_precedes_of_before fuel (siblings.imp before_of_earlier)

theorem elementsOnto_nodup (fuel : Nat) {roots : List ν} (apart : roots.Pairwise tree.Apart) :
    (tree.elementsOnto fuel roots []).Nodup := by
  refine forest.pairwise_elementsOnto (fun node below isBelow => ?_)
    (fun left right apart node other inLeft inRight => apart.ne inLeft inRight)
    (fun node => (forest.children_pairwise node).imp forest.apart_of_earlier) fuel apart
  intro same
  subst same
  exact forest.not_below_self node isBelow

end IsForest
end SelectorEngine.TreeView
