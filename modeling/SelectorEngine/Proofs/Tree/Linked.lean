import SelectorEngine.Proofs.Tree.Growth

/-! Links between siblings. A child is linked to the node that was the last child of its parent before it.
While only nodes without a parent are appended, and none to a node below it, the links agree with the order
of children. -/
namespace SelectorEngine.Arena

theorem next_eq (arena : Arena) (id : Nat) : arena.next id = (arena.get? id).bind Node.next := rfl

theorem previous_eq (arena : Arena) (id : Nat) : arena.previous id = (arena.get? id).bind Node.previous := rfl

section Update

variable {change : Node → Node}

private theorem bind_update_neutral (field : Node → Option Nat)
    (neutral : ∀ node, field (change node) = field node) (arena : Arena) (id other : Nat) :
    ((arena.update id change).get? other).bind field = (arena.get? other).bind field := by
  rw [get?_update]
  split
  · cases arena.get? other with
    | none => rfl
    | some node => exact neutral node
  · rfl

private theorem bind_update_assigned (field : Node → Option Nat) (value : Option Nat) {arena : Arena} {id : Nat}
    (bound : id < arena.nodes.size) (assigned : ∀ node, field (change node) = value) (other : Nat) :
    ((arena.update id change).get? other).bind field =
      if other = id then value else (arena.get? other).bind field := by
  rw [get?_update]
  by_cases same : other = id
  · obtain rfl := same
    have found : arena.get? other = some arena.nodes[other] := Array.getElem?_eq_getElem bound
    rw [if_pos rfl, if_pos rfl, found]
    exact assigned _
  · rw [if_neg (Ne.symm same), if_neg same]

private theorem size_update (arena : Arena) (id : Nat) (change : Node → Node) :
    (arena.update id change).nodes.size = arena.nodes.size :=
  Array.size_modify

end Update

/-- The last child so far and the new one are linked to each other, and no other link changes. -/
theorem links_of_appendChild_of_bounded {arena linked : Arena} {parent child : Nat}
    (append : arena.appendChild? parent child = some linked)
    (bounded : ∀ last ∈ arena.children parent, last < arena.nodes.size) (id : Nat) :
    linked.next id = (if (arena.children parent).getLast? = some id then some child else arena.next id) ∧
      linked.previous id =
        if id = child then (arena.children parent).getLast?.or (arena.previous id) else arena.previous id := by
  have childBound := (appends_of_appendChild append).child_lt
  obtain ⟨above, foundParent, append⟩ := Option.bind_eq_some_iff.mp append
  obtain ⟨below, foundChild, append⟩ := Option.bind_eq_some_iff.mp append
  have children : arena.children parent = above.children := by
    rw [children_eq, foundParent]
    rfl
  rw [children] at bounded ⊢
  dsimp only at append
  split at append
  · next empty =>
    obtain rfl := Option.some.inj append
    rw [empty, Option.none_or, ite_self]
    constructor
    · rw [next_eq, bind_update_neutral Node.next, bind_update_neutral Node.next, if_neg nofun, next_eq] <;>
        exact fun _ => rfl
    · rw [previous_eq, bind_update_neutral Node.previous, bind_update_neutral Node.previous, previous_eq] <;>
        exact fun _ => rfl
  · next last isLast =>
    have lastBound := bounded last (List.mem_of_getLast? isLast)
    obtain rfl := Option.some.inj append
    rw [isLast, Option.some_or]
    constructor
    · rw [next_eq, bind_update_neutral Node.next, bind_update_assigned Node.next (some child),
        bind_update_neutral Node.next, bind_update_neutral Node.next, next_eq]
      case bound => simpa only [size_update] using lastBound
      case neutral | neutral | neutral | assigned => exact fun _ => rfl
      simp only [Option.some.injEq, eq_comm]
    · rw [previous_eq, bind_update_assigned Node.previous (some last), bind_update_neutral Node.previous,
        bind_update_neutral Node.previous, bind_update_neutral Node.previous, previous_eq]
      case bound => simpa only [size_update] using childBound
      all_goals exact fun _ => rfl

theorem links_of_alloc (arena : Arena) (content : Content) (id : Nat) :
    (arena.alloc content).1.next id = arena.next id ∧ (arena.alloc content).1.previous id = arena.previous id := by
  have pushed : (arena.alloc content).1.get? id =
      if id = arena.nodes.size then some { content } else arena.get? id :=
    Array.getElem?_push
  have beyond : arena.get? arena.nodes.size = none := Array.getElem?_eq_none (Nat.le_refl _)
  simp only [next_eq, previous_eq, pushed]
  split
  · next new =>
    rw [new, beyond]
    exact ⟨rfl, rfl⟩
  · exact ⟨rfl, rfl⟩

theorem links_of_empty (id : Nat) : ({} : Arena).next id = none ∧ ({} : Arena).previous id = none := by
  cases id <;> exact ⟨rfl, rfl⟩

private theorem getLast?_eq_some_iff_of_nodup {ids before after : List Nat} {id : Nat} (nodup : ids.Nodup)
    (split : ids = before ++ id :: after) : ids.getLast? = some id ↔ after = [] := by
  subst split
  rw [List.getLast?_append_cons]
  cases after with
  | nil => simp
  | cons following rest =>
    refine iff_of_false (fun isLast => ?_) (List.cons_ne_nil _ _)
    rw [List.getLast?_cons_cons] at isLast
    exact (List.nodup_cons.mp (List.nodup_append'.mp nodup).2.1).1 (List.mem_of_getLast? isLast)

/-- Every node was appended at most once, no node is below itself, and siblings are linked in the order in
which their parent lists them. -/
structure Linked (arena : Arena) (appended : List Nat) : Prop where
  grown : Grown appended arena
  once : appended.Nodup
  parented : ∀ id ∈ appended, ∃ parent, arena.parent id = some parent
  acyclic : ∀ id, ¬ arena.view.Below id id
  links : ∀ parent before child after, arena.children parent = before ++ child :: after →
    arena.previous child = before.getLast? ∧ arena.next child = after.head?
  unlinked : ∀ id, arena.parent id = none → arena.previous id = none ∧ arena.next id = none

namespace Linked

theorem empty : ({} : Arena).Linked [] where
  grown := .empty
  once := List.nodup_nil
  parented _ member := absurd member List.not_mem_nil
  acyclic id := TreeView.not_below_root (empty_eq id).2
  links parent before child after split := by
    rw [(empty_eq parent).1] at split
    cases before <;> cases split
  unlinked id _ := (links_of_empty id).symm

variable {arena linked : Arena} {appended : List Nat}

theorem alloc (isLinked : arena.Linked appended) (content : Content) :
    (arena.alloc content).1.Linked appended := by
  obtain ⟨-, children, parents⟩ := arena.alloc_eq content
  have parent_eq : (arena.alloc content).1.view.parent = arena.view.parent := funext parents
  refine ⟨isLinked.grown.alloc content, isLinked.once, fun id member => ?_, fun id => ?_,
    fun parent before child after split => ?_, fun id alone => ?_⟩
  · rw [parents]
    exact isLinked.parented id member
  · rw [TreeView.Below, parent_eq]
    exact isLinked.acyclic id
  · rw [children] at split
    rw [(links_of_alloc arena content child).1, (links_of_alloc arena content child).2]
    exact isLinked.links parent before child after split
  · rw [parents] at alone
    rw [(links_of_alloc arena content id).1, (links_of_alloc arena content id).2]
    exact isLinked.unlinked id alone

theorem parent_of_mem (isLinked : arena.Linked appended) {parent child : Nat}
    (member : child ∈ arena.children parent) : arena.parent child = some parent :=
  (isLinked.grown.parent_of_mem isLinked.once).2 child member

theorem links_of_appendChild (isLinked : arena.Linked appended) {parent child : Nat}
    (append : arena.appendChild? parent child = some linked) (id : Nat) :
    linked.next id = (if (arena.children parent).getLast? = some id then some child else arena.next id) ∧
      linked.previous id =
        if id = child then (arena.children parent).getLast?.or (arena.previous id) else arena.previous id :=
  links_of_appendChild_of_bounded append (fun _ member => (isLinked.grown.appended_of_mem member).2.2) id

section Append

variable {parent child : Nat}

/-- A new link brings only what is at or below the child below what the parent is at or below. -/
theorem below_of_appends (appends : arena.Appends parent child linked) {above below : Nat}
    (isBelow : linked.view.Below above below) : arena.view.Below above below ∨
      (parent = above ∨ arena.view.Below above parent) ∧ (below = child ∨ arena.view.Below child below) := by
  have edge {above below : Nat} (climbs : linked.view.parent below = some above) :
      arena.view.parent below = some above ∨ above = parent ∧ below = child := by
    have climbs : linked.parent below = some above := climbs
    rw [appends.parent_eq] at climbs
    split at climbs
    · next new => exact .inr ⟨(Option.some.inj climbs).symm, new⟩
    · exact .inl climbs
  induction isBelow with
  | single climbs =>
    rcases edge climbs with old | ⟨rfl, rfl⟩
    · exact .inl (.single old)
    · exact .inr ⟨.inl rfl, .inl rfl⟩
  | tail _ climbs ih =>
    rcases edge climbs with old | ⟨rfl, rfl⟩
    · rcases ih with further | ⟨reaches, rfl | further⟩
      · exact .inl (further.tail old)
      · exact .inr ⟨reaches, .inr (.single old)⟩
      · exact .inr ⟨reaches, .inr (further.tail old)⟩
    · rcases ih with further | ⟨reaches, _⟩
      · exact .inr ⟨.inr further, .inl rfl⟩
      · exact .inr ⟨reaches, .inl rfl⟩

variable (isLinked : arena.Linked appended) (append : arena.appendChild? parent child = some linked)
  (alone : arena.parent child = none)
include isLinked append alone

private theorem links_of_append {above : Nat} {before : List Nat} {id : Nat} {after : List Nat}
    (split : linked.children above = before ++ id :: after) :
    linked.previous id = before.getLast? ∧ linked.next id = after.head? := by
  have appends := appends_of_appendChild append
  obtain ⟨next, previous⟩ := isLinked.links_of_appendChild append id
  have other {above id : Nat} (member : id ∈ arena.children above) : id ≠ child := by
    rintro rfl
    cases alone.symm.trans (isLinked.parent_of_mem member)
  rw [next, previous]
  rw [appends.children] at split
  split at split
  · next same =>
    subst same
    -- The node is the new child, or one that was listed before and has the new child at the end behind it.
    rcases List.eq_nil_or_concat' after with rfl | ⟨after, last, rfl⟩
    · obtain ⟨rfl, new⟩ := List.append_inj' split rfl
      obtain rfl := List.head_eq_of_cons_eq new
      have notLast : (arena.children above).getLast? ≠ some child := fun isLast =>
        other (List.mem_of_getLast? isLast) rfl
      obtain ⟨noPrevious, noNext⟩ := isLinked.unlinked child alone
      rw [if_neg notLast, if_pos rfl, noPrevious, noNext, Option.or_none]
      exact ⟨rfl, rfl⟩
    · rw [← List.cons_append, ← List.append_assoc] at split
      obtain ⟨within, new⟩ := List.append_inj' split rfl
      obtain rfl := List.head_eq_of_cons_eq new
      obtain ⟨wasPrevious, wasNext⟩ := isLinked.links above before id after within
      have member : id ∈ arena.children above := within ▸ by simp
      have nodup : (arena.children above).Nodup := (isLinked.grown.parent_of_mem isLinked.once).1
      rw [if_neg (other member), wasPrevious]
      refine ⟨rfl, ?_⟩
      cases after with
      | nil => rw [if_pos ((getLast?_eq_some_iff_of_nodup nodup within).mpr rfl), List.nil_append, List.head?_cons]
      | cons following rest =>
        have notLast := mt (getLast?_eq_some_iff_of_nodup nodup within).mp (List.cons_ne_nil following rest)
        rw [if_neg notLast, wasNext, List.cons_append, List.head?_cons, List.head?_cons]
  · next differs =>
    have member : id ∈ arena.children above := split ▸ by simp
    have notLast : (arena.children parent).getLast? ≠ some id := fun isLast =>
      differs (Option.some.inj ((isLinked.parent_of_mem member).symm.trans
        (isLinked.parent_of_mem (List.mem_of_getLast? isLast))))
    rw [if_neg notLast, if_neg (other member)]
    exact isLinked.links above before id after split

theorem append_child (apart : child ≠ parent) (above : ¬ arena.view.Below child parent) :
    linked.Linked (child :: appended) := by
  have appends := appends_of_appendChild append
  have fresh : child ∉ appended := by
    intro member
    obtain ⟨parent, climbs⟩ := isLinked.parented child member
    cases alone.symm.trans climbs
  refine ⟨isLinked.grown.append append, List.nodup_cons.mpr ⟨fresh, isLinked.once⟩, fun id member => ?_,
    fun id cycle => ?_, fun _ _ _ _ => links_of_append isLinked append alone, fun id orphan => ?_⟩
  · rw [appends.parent_eq]
    split
    · exact ⟨parent, rfl⟩
    · next other => exact isLinked.parented id ((List.mem_cons.mp member).resolve_left other)
  · rcases below_of_appends appends cycle with old | ⟨rfl | reaches, rfl | isBelow⟩
    · exact isLinked.acyclic id old
    · exact apart rfl
    · exact above isBelow
    · exact above reaches
    · exact above (isBelow.trans reaches)
  · rw [appends.parent_eq] at orphan
    split at orphan
    · cases orphan
    · next other =>
      obtain ⟨next, previous⟩ := isLinked.links_of_appendChild append id
      have notLast : (arena.children parent).getLast? ≠ some id := by
        intro isLast
        cases orphan.symm.trans (isLinked.parent_of_mem (List.mem_of_getLast? isLast))
      rw [next, previous, if_neg notLast, if_neg other]
      exact isLinked.unlinked id orphan

end Append
end Linked
end SelectorEngine.Arena
