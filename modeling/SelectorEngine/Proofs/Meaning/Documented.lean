import SelectorEngine.Proofs.Meaning.Chain
import SelectorEngine.Proofs.Selector.Occurrence
import SelectorEngine.Proofs.Tree.Forest

/-! The reading that the documentation gives: combinators lead to elements that are related to the node
in the tree, and `:has()` looks at the elements below the node and, where its argument may be found
there, at and below the siblings after it. -/
namespace SelectorEngine

variable {ν : Type}

namespace Combinator

/-- How the combinator relates the node to another one, of whatever kind. -/
def Relates (tree : TreeView ν) : Combinator → ν → ν → Prop
  | descendant, node, other => tree.Below other node
  | descendantOrSelf, node, other => other = node ∨ tree.Below other node
  | child, node, other => tree.parent node = some other
  | parent, node, other => other ∈ tree.children node
  | sibling, node, other => ∃ before between after,
    tree.siblings node = before ++ other :: between ++ node :: after
  | adjacent, node, other => ∃ before between after,
    tree.siblings node = before ++ other :: between ++ node :: after ∧
      ∀ inner ∈ between, tree.isElement inner = false
  | column, _, _ => False

private theorem getLast?_filter_eq_some_iff (passes : ν → Bool) (items : List ν) (item : ν) :
    (items.filter passes).getLast? = some item ↔ passes item = true ∧
      ∃ before after, items = before ++ item :: after ∧ ∀ inner ∈ after, passes inner = false := by
  rw [List.getLast?_filter, List.find?_eq_some_iff_append]
  refine and_congr_right' ⟨?_, ?_⟩
  · intro known
    obtain ⟨after, before, split, fails⟩ := known
    refine ⟨before.reverse, after.reverse, ?_, fun inner member => ?_⟩
    · rw [← List.reverse_reverse items, split]
      simp
    · simpa using fails inner (List.mem_reverse.mp member)
  · intro known
    obtain ⟨before, after, rfl, fails⟩ := known
    refine ⟨after.reverse, before.reverse, by simp, fun inner member => ?_⟩
    simpa using fails inner (List.mem_reverse.mp member)

variable {basis : Basis ν}

theorem mem_reach (forest : basis.tree.IsForest)
    (identity : ∀ first second, basis.same first second = true ↔ first = second) (kind : Combinator)
    (node other : ν) :
    other ∈ kind.reach basis node ↔
      basis.tree.isElement other = true ∧ kind.Relates basis.tree node other := by
  cases kind with
  | descendant => rw [reach, List.mem_filter, forest.mem_ancestors, and_comm, Relates]
  | descendantOrSelf =>
    rw [reach, List.mem_filter, List.mem_cons, forest.mem_ancestors, and_comm, Relates]
  | child =>
    rw [reach, Option.mem_toList, Relates, TreeView.elementParent, Option.filter_eq_some_iff, and_comm]
  | parent => rw [reach, List.mem_filter, and_comm, Relates]
  | sibling =>
    obtain ⟨before, after, split, fresh, rest⟩ := forest.siblings_split node
    rw [reach, basis.tree.siblingsBefore_eq identity fresh split, List.mem_filter, and_comm, Relates,
      split]
    refine and_congr_right' ⟨fun member => ?_, fun ⟨first, between, last, same⟩ => ?_⟩
    · obtain ⟨first, between, rfl⟩ := List.append_of_mem member
      exact ⟨first, between, after, by simp⟩
    · rw [List.append_cons_inj_of_notMem fresh rest] at same
      rw [same.1]
      simp
  | adjacent =>
    obtain ⟨before, after, split, fresh, rest⟩ := forest.siblings_split node
    rw [reach, basis.tree.siblingsBefore_eq identity fresh split, Option.mem_toList,
      getLast?_filter_eq_some_iff, Relates, split]
    refine and_congr_right' ⟨fun ⟨first, between, same, others⟩ => ?_,
      fun ⟨first, between, last, same, others⟩ => ?_⟩
    · exact ⟨first, between, after, by rw [same], others⟩
    · rw [List.append_cons_inj_of_notMem fresh rest] at same
      exact ⟨first, between, same.1, others⟩
  | column => simp [reach, Relates]

end Combinator

theorem TreeView.mem_nextSiblings {tree : TreeView ν} (forest : tree.IsForest)
    {same : ν → ν → Bool} (identity : ∀ first second, same first second = true ↔ first = second)
    (node other : ν) : other ∈ tree.nextSiblings same node ↔
      tree.isElement other = true ∧ Combinator.sibling.Relates tree other node := by
  obtain ⟨before, after, split, fresh, rest⟩ := forest.siblings_split node
  rw [tree.nextSiblings_eq identity fresh split, List.mem_filter, and_comm, Combinator.Relates]
  refine and_congr_right' ⟨fun member => ?_, fun ⟨first, between, last, same⟩ => ?_⟩
  · have listed : other ∈ tree.siblings node := by
      rw [split]
      exact List.mem_append_right _ (List.mem_cons_of_mem _ member)
    obtain ⟨between, last, rfl⟩ := List.append_of_mem member
    exact ⟨before, between, last, by rw [forest.siblings_eq_of_mem listed, split]; simp⟩
  · have listed : node ∈ tree.siblings other := by
      rw [same]
      simp
    rw [← forest.siblings_eq_of_mem listed, split, List.append_assoc, List.cons_append,
      List.append_cons_inj_of_notMem fresh rest] at same
    rw [same.2.2]
    simp

/-- Where `:has()` looks: below the node and, with siblings, at and below the elements after it. -/
def TreeView.InArea (tree : TreeView ν) (siblings : Bool) (node found : ν) : Prop :=
  tree.Below node found ∨ siblings = true ∧ ∃ sibling, tree.isElement sibling = true ∧
    Combinator.sibling.Relates tree sibling node ∧ (found = sibling ∨ tree.Below sibling found)

namespace Basis

def documentedWith (basis : Basis ν)
    (expand : SelectorList → Option (MatchContext ν) → ν → Prop) : Reading ν where
  basis := basis
  leads kind node other := basis.tree.isElement other = true ∧ kind.Relates basis.tree node other
  relative := Selector.isRelative
  searched groups node found := basis.tree.isElement found = true ∧
    basis.tree.InArea (Selector.reachesSiblings groups) node found
  expand := expand

/-- The documented reading. Abbreviations in abbreviations are expanded to a limited depth, which
`documented_expand` shows to be enough. -/
def documented (basis : Basis ν) : Nat → Reading ν
  | 0 => basis.documentedWith fun _ _ _ => False
  | depth + 1 => basis.documentedWith fun selectors context =>
    (basis.documented depth).someHolds context false selectors

end Basis

namespace Part

/-- Two parts say the same of elements, and moves lead to elements only. -/
inductive Alike (isElement : ν → Bool) : Part ν → Part ν → Prop
  | test {holds other : ν → Prop}
      (same : ∀ node, isElement node = true → (holds node ↔ other node)) :
      Alike isElement (.test holds) (.test other)
  | move {leads other : ν → ν → Prop} (same : ∀ node next, leads node next ↔ other node next)
      (toElements : ∀ node next, leads node next → isElement next = true) :
      Alike isElement (.move leads) (.move other)

theorem chain_iff_of_alike {α : Type} {isElement : ν → Bool} {part other : α → Part ν}
    (items : List α) (alike : ∀ item ∈ items, (part item).Alike isElement (other item)) {node : ν}
    (element : isElement node = true) : chain (items.map part) node ↔ chain (items.map other) node := by
  induction items generalizing node with
  | nil => exact Iff.rfl
  | cons item rest ih =>
    obtain ⟨head, tail⟩ := List.forall_mem_cons.mp alike
    rw [List.map_cons, List.map_cons, chain_cons, chain_cons]
    generalize part item = first at head
    generalize other item = second at head
    cases head with
    | test same => exact and_congr (same node element) (ih tail element)
    | move same toElements =>
      apply exists_congr
      intro next
      rw [← same]
      exact and_congr_right fun leads => ih tail (toElements node next leads)

end Part

namespace Selector

theorem mem_written {collection anchored : Bool} {group : Group} {token : Token}
    (member : token ∈ written collection anchored group) :
    token ∈ group ∨ token = scope ∨ ∃ kind, token = .combinator kind := by
  have ofFront {front : Front} (inside : token ∈ front.tokens ++ group) :
      token ∈ group ∨ token = scope ∨ ∃ kind, token = .combinator kind := by
    rcases List.mem_append.mp inside with front' | own
    · cases front with
      | nothing => exact absurd front' List.not_mem_nil
      | scope => exact .inr (.inl (List.mem_singleton.mp front'))
      | scopeDescendant =>
        rcases List.mem_cons.mp front' with rfl | last
        · exact .inr (.inl rfl)
        · exact .inr (.inr ⟨_, List.mem_singleton.mp last⟩)
    · exact .inl own
  unfold written at member
  dsimp only at member
  split at member
  · unfold widened at member
    split at member
    · next first second rest split =>
      split at member
      · rcases List.mem_cons.mp member with rfl | later
        · exact ofFront (split ▸ List.mem_cons_self)
        · rcases List.mem_cons.mp later with rfl | further
          · exact .inr (.inr ⟨_, rfl⟩)
          · exact ofFront (split ▸ List.mem_cons_of_mem _ (List.mem_cons_of_mem _ further))
      · exact ofFront member
    · exact ofFront member
  · exact ofFront member

end Selector

theorem Reading.holds_written_iff {first second : Reading ν} {isElement : ν → Bool}
    {context : Option (MatchContext ν)} (collection anchored : Bool) {group : Group}
    (scope : (first.part context Selector.scope).Alike isElement
      (second.part context Selector.scope))
    (combinators : ∀ kind, (first.part context (.combinator kind)).Alike isElement
      (second.part context (.combinator kind)))
    (own : ∀ token ∈ group, (first.part context token).Alike isElement (second.part context token))
    {node : ν} (element : isElement node = true) :
    first.Holds context (Selector.written collection anchored group) node ↔
      second.Holds context (Selector.written collection anchored group) node := by
  unfold Reading.Holds
  rw [← List.map_reverse, ← List.map_reverse]
  refine Part.chain_iff_of_alike _ (fun token member => ?_) element
  rcases Selector.mem_written (List.mem_reverse.mp member) with inside | rfl | ⟨kind, rfl⟩
  · exact own token inside
  · exact scope
  · exact combinators kind

/-- What tests see of a basis: neither whether selectors may be relative nor whether results are
remembered. -/
def Basis.core (basis : Basis ν) : Basis ν :=
  { basis with flags := { basis.flags with relativeSelector := true, cacheResults := false } }

theorem Basis.eq_of_core {α : Type} {first second : Basis ν} (same : first.core = second.core)
    (view : Basis ν → α) (blind : ∀ basis, view basis = view basis.core) : view first = view second := by
  rw [blind, same, ← blind]

/-- The readings agree on everything but abbreviations and on where `:has()` looks, and combinators lead to
elements. -/
structure Reading.Matches (isElement : ν → Bool) (first second : Reading ν) : Prop where
  basis : first.basis.core = second.basis.core
  leads : ∀ kind node next, first.leads kind node next ↔ second.leads kind node next
  toElements : ∀ kind node next, first.leads kind node next → isElement next = true
  relative : first.relative = second.relative

namespace Reading.Matches

variable {first second : Reading ν} {isElement : ν → Bool} (pair : Matches isElement first second)
include pair

theorem filterHolds_iff (filter : BuiltinFilter) (argument : Option String)
    (context : Option (MatchContext ν)) (node : ν) :
    first.FilterHolds filter argument context node ↔ second.FilterHolds filter argument context node :=
  iff_of_eq (Basis.eq_of_core pair.basis
    (fun basis => FilterHolds { first with basis } filter argument context node) fun _ => rfl)

theorem scope_alike (context : Option (MatchContext ν)) {token : Token} (isScope : token.isScope = true) :
    (first.part context token).Alike isElement (second.part context token) := by
  cases token with
  | pseudoClass name argument =>
    obtain rfl : name = "scope" := beq_iff_eq.mp isScope
    exact .test fun node _ => pair.filterHolds_iff .scope argument context node
  | subselect name groups =>
    obtain rfl : name = "scope" := beq_iff_eq.mp isScope
    exact .test fun _ _ => Iff.rfl
  | _ => cases isScope

theorem combinator_alike (context : Option (MatchContext ν)) (kind : Combinator) :
    (first.part context (.combinator kind)).Alike isElement (second.part context (.combinator kind)) :=
  .move (pair.leads kind) (pair.toElements kind)

theorem someHolds_iff {context : Option (MatchContext ν)} {groups : SelectorList} (anchored : Bool)
    (alike : ∀ group ∈ groups, ∀ token ∈ group,
      (first.part context token).Alike isElement (second.part context token))
    {node : ν} (element : isElement node = true) :
    first.someHolds context anchored groups node ↔ second.someHolds context anchored groups node := by
  rw [Reading.someHolds_iff, Reading.someHolds_iff]
  apply exists_congr
  intro group
  apply and_congr_right
  intro listed
  exact holds_written_iff _ _ (pair.scope_alike context rfl) (pair.combinator_alike context)
    (alike group listed) element

/-- Tokens mean the same of elements if, for tokens of their kind, abbreviations do and `:has()` looks at the
same elements. -/
theorem part_alike {isOfKind : Token → Prop}
    (inner : ∀ name groups, isOfKind (.subselect name groups) →
      ∀ group ∈ groups, ∀ token ∈ group, isOfKind token)
    (searched : ∀ name groups, isOfKind (.subselect name groups) → Subselect.ofName? name = some .has →
      ∀ node found, (first.searched groups node found ↔ second.searched groups node found) ∧
        (second.searched groups node found → isElement found = true))
    (expand : ∀ name argument selectors, Selector.abbreviations.lookup name = some selectors →
      isOfKind (.pseudoClass name argument) → ∀ context node, isElement node = true →
        (first.expand selectors context node ↔ second.expand selectors context node))
    (token : Token) (ofKind : isOfKind token) (context : Option (MatchContext ν)) :
    (first.part context token).Alike isElement (second.part context token) := by
  induction token using Token.induct generalizing context with
  | tag name space =>
    exact .test fun node _ => iff_of_eq (Basis.eq_of_core pair.basis (fun basis => basis.tree.name node =
      if basis.flags.foldsTags then Text.lower name else name) fun _ => rfl)
  | universal space => exact .test fun _ _ => Iff.rfl
  | attr selector =>
    exact .test fun node _ => iff_of_eq (Basis.eq_of_core pair.basis
      (fun basis => selector.Holds basis node) fun _ => rfl)
  | pseudoElement name argument => exact .test fun _ _ => Iff.rfl
  | combinator kind => exact pair.combinator_alike context kind
  | pseudoClass name argument =>
    refine .test fun node element => ?_
    unfold ClassHolds
    cases found : Selector.abbreviations.lookup name with
    | some selectors => exact expand name argument selectors found ofKind context node element
    | none =>
      dsimp only
      cases BuiltinFilter.ofName? name with
      | some filter => exact pair.filterHolds_iff filter argument context node
      | none =>
        exact iff_of_eq (Basis.eq_of_core pair.basis (fun basis => ∃ structural,
          StructuralClass.ofName? name = some structural ∧ structural.holds basis node = true) fun _ => rfl)
  | subselect name groups ih =>
    have holds (other : Option (MatchContext ν)) (anchored : Bool) (node : ν)
        (element : isElement node = true) :=
      pair.someHolds_iff anchored (fun group listed token member =>
        ih group listed token member (inner name groups ofKind group listed token member) other) element
    simp only [part]
    cases named : Subselect.ofName? name with
    | none => exact .test fun _ _ => Iff.rfl
    | some kind =>
      cases kind with
      | anyOf => exact .test fun node element => holds context false node element
      | noneOf => exact .test fun node element => not_congr (holds context false node element)
      | has =>
        refine .test fun node element => exists_congr fun found => ?_
        obtain ⟨same, toElement⟩ := searched name groups ofKind named node found
        rw [same, pair.relative]
        exact and_congr_right fun searched => holds _ _ found (toElement searched)

end Reading.Matches

/-- Readings that expand abbreviations ever deeper. -/
structure Reading.Deepens (levels : Nat → Reading ν) : Prop where
  never : (levels 0).expand = fun _ _ _ => False
  deeper : ∀ depth, (levels (depth + 1)).expand =
    fun selectors context => (levels depth).someHolds context false selectors

theorem Basis.documented_deepens (basis : Basis ν) : Reading.Deepens basis.documented where
  never := rfl
  deeper _ := rfl

/-- At every depth tokens mean the same of elements, if what they search does. -/
theorem Reading.Deepens.part_alike {first second : Nat → Reading ν} (deepens : Deepens first)
    (deepens' : Deepens second) {isElement : ν → Bool}
    (pair : ∀ depth, Matches isElement (first depth) (second depth)) {isOfKind : Nat → Token → Prop}
    (inner : ∀ depth name groups, isOfKind depth (.subselect name groups) →
      ∀ group ∈ groups, ∀ token ∈ group, isOfKind depth token)
    (abbreviated : ∀ depth name argument selectors, Selector.abbreviations.lookup name = some selectors →
      isOfKind (depth + 1) (.pseudoClass name argument) →
        ∀ group ∈ selectors, ∀ token ∈ group, isOfKind depth token)
    (searched : ∀ depth name groups, isOfKind depth (.subselect name groups) →
      Subselect.ofName? name = some .has → ∀ node found,
        ((first depth).searched groups node found ↔ (second depth).searched groups node found) ∧
          ((second depth).searched groups node found → isElement found = true))
    (depth : Nat) (token : Token) (ofKind : isOfKind depth token) (context : Option (MatchContext ν)) :
    ((first depth).part context token).Alike isElement ((second depth).part context token) := by
  induction depth generalizing token context with
  | zero =>
    refine (pair 0).part_alike (inner 0) (searched 0) ?_ token ofKind context
    intro name argument selectors _ _ context node _
    rw [deepens.never, deepens'.never]
  | succ depth ih =>
    refine (pair (depth + 1)).part_alike (inner _) (searched _) ?_ token ofKind context
    intro name argument selectors stands ofKind context node element
    rw [deepens.deeper, deepens'.deeper]
    have inside := abbreviated depth name argument selectors stands ofKind
    exact (pair depth).someHolds_iff false
      (fun group listed token member => ih token (inside group listed token member) context) element

end SelectorEngine
