import SelectorEngine.Proofs.Meaning.SimpleSelector
import SelectorEngine.Proofs.Tree.Descent

/-! The text of a tree. Where only documents and elements have children, the text of a node is the data of
the text nodes at it and below it, in document order; so text is inherited by everything above it. -/
namespace SelectorEngine.Arena

/-- The data of a text node. -/
def textData? (arena : Arena) (id : Nat) : Option String :=
  match arena.content? id with
  | some (.text data) => some data
  | _ => none

theorem textData_of_container {arena : Arena} {id : Nat} (container : arena.IsContainer id) :
    arena.textData? id = none := by
  unfold textData?
  rcases container with isDocument | isElement
  · rw [isDocument]
  · obtain ⟨name, attributes, content⟩ := content_of_isElement isElement
    rw [content]

private theorem join_flatMap {α : Type} (items : List α) (pieces : α → List String) :
    String.join (items.flatMap pieces) = String.join (items.map fun item => String.join (pieces item)) := by
  rw [← String.toList_inj, String.toList_join, String.toList_join, List.flatMap_assoc, List.flatMap_map]
  exact List.flatMap_congr fun item _ => String.toList_join.symm

variable {arena : Arena} {appended : List Nat}

section Depth

variable {depth : Nat → Nat}
  (grows : ∀ parent, ∀ child ∈ arena.children parent, depth parent < depth child)
  (bounded : ∀ id, depth id < arena.nodes.size)
include grows bounded

theorem textContent_of_leaf {id : Nat} (leaf : arena.children id = []) :
    arena.textContent id = (arena.textData? id).getD "" := by
  rw [textContent_eq grows bounded, leaf, textData?]
  cases arena.content? id with
  | none => rfl
  | some content => cases content <;> rfl

private theorem textContent_eq_within
    (containers : ∀ parent, ∀ child ∈ arena.children parent, arena.IsContainer parent)
    (fuel id : Nat) (enough : arena.nodes.size ≤ fuel + depth id) :
    arena.textContent id =
      String.join ((id :: arena.descendantsWithin fuel id).filterMap arena.textData?) := by
  induction fuel generalizing id with
  | zero => exact absurd (bounded id) (by omega)
  | succ fuel ih =>
    rw [descendantsWithin]
    cases children : arena.children id with
    | nil =>
      rw [textContent_of_leaf grows bounded children, List.flatMap_nil, List.filterMap_cons]
      cases arena.textData? id <;> simp
    | cons first rest =>
      have container := containers id first (children ▸ List.mem_cons_self)
      rw [textContent_of_container grows bounded container, ← children,
        List.filterMap_cons_none (textData_of_container container), List.filterMap_flatMap]
      have inside : (arena.children id).map arena.textContent = (arena.children id).map fun child =>
          String.join ((child :: arena.descendantsWithin fuel child).filterMap arena.textData?) := by
        refine List.map_congr_left fun child member => ih child ?_
        have deeper := grows id child member
        omega
      rw [inside, join_flatMap]

end Depth

namespace Grown

variable (grown : Grown appended arena) (acyclic : arena.IsAcyclic)
  (containers : ∀ parent, ∀ child ∈ arena.children parent, arena.IsContainer parent)
include grown acyclic containers

theorem textContent_eq_join (id : Nat) : arena.textContent id =
    String.join ((id :: arena.descendants id).filterMap arena.textData?) := by
  obtain ⟨depth, grows, bounded⟩ := grown.exists_depth acyclic
  exact textContent_eq_within grows bounded containers arena.nodes.size id (Nat.le_add_right _ _)

theorem text_infix_of_below {above below : Nat} (isBelow : arena.view.Below above below) :
    (arena.textContent below).toList <:+: (arena.textContent above).toList := by
  obtain ⟨depth, grows, bounded⟩ := grown.exists_depth acyclic
  have step {parent child : Nat} (climbs : arena.view.parent child = some parent) :
      (arena.textContent child).toList <:+: (arena.textContent parent).toList :=
    have member := grown.mem_children climbs
    text_infix_of_child grows bounded (containers parent child member) member
  induction isBelow with
  | single climbs => exact step climbs
  | tail _ climbs ih => exact (step climbs).trans ih

/-- Visiting what is below a node ends, and its text is the data of the text nodes among the node and what
was visited. So what is below it adds its own text as one piece, and all that a text contains is contained in
the texts above it. -/
theorem textContent_inherited (once : appended.Nodup) :
    (∀ id, arena.Visits (arena.children id) (arena.descendants id) ∧
      arena.textContent id = String.join ((id :: arena.descendants id).filterMap arena.textData?)) ∧
    (∀ above, ∀ below ∈ arena.descendants above,
      (arena.textContent below).toList <:+: (arena.textContent above).toList) ∧
    ∀ node, ∀ above ∈ arena.view.ancestors node, ∀ piece,
      Text.contains piece (arena.textContent node) = true →
        Text.contains piece (arena.textContent above) = true := by
  refine ⟨fun id => ⟨grown.visits_descendants acyclic id, ?_⟩, fun above below listed => ?_, ?_⟩
  · exact grown.textContent_eq_join acyclic containers id
  · exact grown.text_infix_of_below acyclic containers
      ((grown.mem_descendants once acyclic above below).mp listed)
  · intro node above listed piece contains
    rw [Text.contains_iff] at contains ⊢
    have isBelow := (grown.mem_ancestors acyclic node above).mp listed
    exact contains.trans (grown.text_infix_of_below acyclic containers isBelow)

end Grown

/-- An element with a text, a comment, and an element with a text of its own. -/
def withTexts : Arena where
  nodes := #[
    { content := .document, children := [1] },
    { content := .element "p" [], parent := some 0, children := [2, 3, 4] },
    { content := .text "one ", parent := some 1, next := some 3 },
    { content := .comment "two ", parent := some 1, next := some 4, previous := some 2 },
    { content := .element "b" [], parent := some 1, children := [5], previous := some 3 },
    { content := .text "three", parent := some 4 }]

theorem containers_withTexts (parent : Nat) :
    ∀ child ∈ withTexts.children parent, withTexts.IsContainer parent := by
  intro child member
  rcases parent with _ | _ | _ | _ | _ | _ | parent
  · exact .inl rfl
  · exact .inr rfl
  · exact absurd member List.not_mem_nil
  · exact absurd member List.not_mem_nil
  · exact .inr rfl
  · exact absurd member List.not_mem_nil
  · exact absurd member List.not_mem_nil

theorem textContent_inherited_withTexts :
    withTexts.textContent 1 = "one three" ∧ Text.contains "three" (withTexts.textContent 0) = true := by
  have built : build? [(0, .element "p" []), (1, .text "one "), (1, .comment "two "), (1, .element "b" []),
      (4, .text "three")] = some withTexts := rfl
  obtain ⟨appended, sprouted⟩ := exists_sprouted_of_build built
  obtain ⟨text, _, inherited⟩ := sprouted.grown.textContent_inherited sprouted.ordered.isAcyclic
    containers_withTexts sprouted.once
  have listed : 0 ∈ withTexts.view.ancestors 4 := by decide
  exact ⟨(text 1).2.trans rfl, inherited 4 0 listed "three" (by decide)⟩

end SelectorEngine.Arena
