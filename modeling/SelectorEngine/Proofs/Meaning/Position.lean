import Mathlib.Data.List.Basic
import SelectorEngine.Proofs.Meaning.Reading
import SelectorEngine.Proofs.Tree.Forest

/-! Where an element stands among its siblings. The positional pseudo-classes count what stands before the
element or after it; the ones without an argument and the sibling combinators say whether that is nothing. -/
namespace SelectorEngine

variable {ν : Type}

namespace TreeView

variable {tree : TreeView ν} {same : ν → ν → Bool}
  (identity : ∀ first second, same first second = true ↔ first = second) {node : ν} {before after : List ν}
include identity

/-- Seen from the end, the siblings after a node stand before it. -/
theorem siblingsAfter_eq (rest : node ∉ after) (split : tree.siblings node = before ++ node :: after) :
    tree.siblingsAfter same node = after.reverse := by
  let mirrored : TreeView ν := { tree with siblings := fun node => (tree.siblings node).reverse }
  have fresh : node ∉ after.reverse := mt List.mem_reverse.mp rest
  have mirroredSplit : mirrored.siblings node = after.reverse ++ node :: before.reverse := by
    simp [mirrored, split]
  exact mirrored.siblingsBefore_eq identity fresh mirroredSplit

/-- An item that passes is the first one to pass if, and only if, none passes before it. -/
theorem any_find?_iff {passes : ν → Bool} (own : passes node = true) (fresh : node ∉ before) :
    ((before ++ node :: after).find? passes).any (same node) = true ↔ before.countP passes = 0 := by
  rw [List.find?_append, List.find?_cons_of_pos own, List.countP_eq_zero]
  cases found : before.find? passes with
  | none => exact iff_of_true ((identity node node).mpr rfl) (List.find?_eq_none.mp found)
  | some first =>
    have member := List.mem_of_find?_eq_some found
    refine iff_of_false (fun isFirst => fresh ?_) fun none => none first member (List.find?_some found)
    rw [(identity node first).mp isFirst]
    exact member

end TreeView

namespace StructuralClass

def name : StructuralClass → String
  | empty => "empty"
  | firstChild => "first-child"
  | lastChild => "last-child"
  | firstOfType => "first-of-type"
  | lastOfType => "last-of-type"
  | onlyOfType => "only-of-type"
  | onlyChild => "only-child"

theorem named (kind : StructuralClass) : Selector.abbreviations.lookup kind.name = none ∧
    BuiltinFilter.ofName? kind.name = none ∧ StructuralClass.ofName? kind.name = some kind := by
  cases kind <;> exact ⟨rfl, rfl, rfl⟩

end StructuralClass

namespace Counting

def name : Counting → String
  | ⟨false, false⟩ => "nth-child"
  | ⟨true, false⟩ => "nth-last-child"
  | ⟨false, true⟩ => "nth-of-type"
  | ⟨true, true⟩ => "nth-last-of-type"

theorem named (counting : Counting) : Selector.abbreviations.lookup counting.name = none ∧
    BuiltinFilter.ofName? counting.name = some (.counting counting) := by
  rcases counting with ⟨_ | _, _ | _⟩ <;> exact ⟨rfl, rfl⟩

/-- The sibling counts when the position of the node is asked for. -/
def counts (counting : Counting) (tree : TreeView ν) (node sibling : ν) : Bool :=
  tree.isElement sibling && (!counting.sameName || tree.name sibling == tree.name node)

/-- The class of the nodes at the first position. -/
def first : Counting → StructuralClass
  | ⟨false, false⟩ => .firstChild
  | ⟨true, false⟩ => .lastChild
  | ⟨false, true⟩ => .firstOfType
  | ⟨true, true⟩ => .lastOfType

/-- The class of the nodes that are at the first position from either end. -/
def only (sameName : Bool) : StructuralClass := if sameName then .onlyOfType else .onlyChild

theorem counts_self (counting : Counting) {tree : TreeView ν} {node : ν}
    (element : tree.isElement node = true) : counting.counts tree node node = true := by
  rw [counts, element, BEq.rfl, Bool.or_true, Bool.true_and]

variable {basis : Basis ν} {node : ν}
  (identity : ∀ first second, basis.same first second = true ↔ first = second)

section Split

variable {before after : List ν} (fresh : node ∉ before) (rest : node ∉ after)
  (split : basis.tree.siblings node = before ++ node :: after)
include identity fresh rest split

/-- The position is the number of siblings that count on the one side of the node. -/
theorem position_eq (counting : Counting) : counting.position basis node =
    (if counting.fromEnd then after else before).countP (counting.counts basis.tree node) := by
  rw [position, basis.tree.siblingsBefore_eq identity fresh split,
    basis.tree.siblingsAfter_eq identity rest split]
  cases counting.fromEnd with
  | false => rfl
  | true => exact List.countP_reverse

end Split

/-- The first of the siblings that count, seen from the chosen end, is the node itself. -/
private theorem first_holds_eq (counting : Counting) : counting.first.holds basis node =
    ((if counting.fromEnd then (basis.tree.siblings node).reverse else basis.tree.siblings node).find?
      (counting.counts basis.tree node)).any (basis.same node) := by
  have counted : counting.counts basis.tree node = fun sibling => basis.tree.isElement sibling &&
      (!counting.sameName || basis.tree.name sibling == basis.tree.name node) := rfl
  rcases counting with ⟨_ | _, _ | _⟩ <;> simp [first, StructuralClass.holds, counted]

section Forest

variable (forest : basis.tree.IsForest)
include identity forest

theorem first_holds_iff (counting : Counting) (element : basis.tree.isElement node = true) :
    counting.first.holds basis node = true ↔ counting.position basis node = 0 := by
  obtain ⟨before, after, split, fresh, rest⟩ := forest.siblings_split node
  have own := counting.counts_self element
  rw [first_holds_eq, counting.position_eq identity fresh rest split, split]
  cases counting.fromEnd with
  | false => exact TreeView.any_find?_iff identity own fresh
  | true =>
    have mirrored : (before ++ node :: after).reverse = after.reverse ++ node :: before.reverse := by simp
    rw [if_pos rfl, if_pos rfl, mirrored, ← List.countP_reverse]
    exact TreeView.any_find?_iff identity own (mt List.mem_reverse.mp rest)

theorem only_holds_iff (sameName : Bool) : (only sameName).holds basis node = true ↔
    ∀ fromEnd, Counting.position { fromEnd, sameName } basis node = 0 := by
  obtain ⟨before, after, split, fresh, rest⟩ := forest.siblings_split node
  have others (counting : Counting) : ((basis.tree.siblings node).all fun sibling =>
      basis.same node sibling || !counting.counts basis.tree node sibling) = true ↔
        before.countP (counting.counts basis.tree node) = 0 ∧
          after.countP (counting.counts basis.tree node) = 0 := by
    have apart (side : List ν) (absent : node ∉ side) : (∀ sibling ∈ side,
        (basis.same node sibling || !counting.counts basis.tree node sibling) = true) ↔
          side.countP (counting.counts basis.tree node) = 0 := by
      rw [List.countP_eq_zero]
      refine forall₂_congr fun sibling member => ?_
      have differs : basis.same node sibling = false :=
        Bool.eq_false_iff.mpr fun same => absent ((identity node sibling).mp same ▸ member)
      rw [differs, Bool.false_or, Bool.not_eq_true', Bool.not_eq_true]
    have own : (basis.same node node || !counting.counts basis.tree node node) = true := by
      rw [(identity node node).mpr rfl, Bool.true_or]
    rw [List.all_eq_true, split, List.forall_mem_append, List.forall_mem_cons, apart before fresh,
      apart after rest]
    exact and_congr_right fun _ => and_iff_right own
  rw [Bool.forall_bool, position_eq identity fresh rest split, position_eq identity fresh rest split]
  cases sameName with
  | false => simpa [only, StructuralClass.holds, counts] using others ⟨false, false⟩
  | true => simpa [only, StructuralClass.holds, counts] using others ⟨false, true⟩

end Forest

section Sibling

variable (basis) (node)

/-- The elements that the sibling combinator leads to are those before the node. -/
theorem exists_sibling_iff : (∃ next, next ∈ Combinator.sibling.reach basis node) ↔
    Counting.position { fromEnd := false, sameName := false } basis node ≠ 0 := by
  simp [Combinator.reach, position, List.countP_eq_zero]

theorem exists_sibling_of_name_iff : (∃ next ∈ Combinator.sibling.reach basis node,
      basis.tree.name next = basis.tree.name node) ↔
    Counting.position { fromEnd := false, sameName := true } basis node ≠ 0 := by
  simp [Combinator.reach, position, List.countP_eq_zero, and_assoc]

/-- Some element is nearest before the node if there is any. -/
theorem exists_adjacent_iff : (∃ next, next ∈ Combinator.adjacent.reach basis node) ↔
    ∃ next, next ∈ Combinator.sibling.reach basis node := by
  simp only [Combinator.reach, Option.mem_toList]
  constructor
  · intro known
    obtain ⟨next, last⟩ := known
    exact ⟨next, List.mem_of_getLast? last⟩
  · intro known
    obtain ⟨next, member⟩ := known
    exact ⟨_, List.getLast?_eq_some_getLast (List.ne_nil_of_mem member)⟩

end Sibling

section Holds

variable {formula : Formula} {text : String} (reads : Formula.read? text = some formula)
include reads

theorem holds_iff_of_reads (counting : Counting) : counting.Holds basis text node ↔
    if formula.step = 1 ∧ formula.offset ≤ 0 then (basis.tree.elementParent node).isSome = true
    else formula.Selects (counting.position basis node) := by
  simp only [Holds, reads, Option.some.injEq, exists_eq_left']

/-- With an element above the node only the position matters. -/
theorem holds_iff_selects (counting : Counting) (inside : (basis.tree.elementParent node).isSome = true) :
    counting.Holds basis text node ↔ formula.Selects (counting.position basis node) := by
  rw [counting.holds_iff_of_reads reads]
  split
  · next all => exact iff_of_true inside (Formula.selects_of_all all _)
  · exact Iff.rfl

end Holds

/-- The formula `1` wants the first position. -/
theorem holds_one_iff (counting : Counting) :
    counting.Holds basis "1" node ↔ counting.position basis node = 0 := by
  have reads : Formula.read? "1" = some ⟨0, 1⟩ := by decide
  rw [counting.holds_iff_of_reads reads, if_neg (by simp), Formula.Selects]
  simp only [Int.zero_mul, Int.zero_add, exists_const]
  omega

end Counting

namespace Reading

variable (reading : Reading ν) (context : Option (MatchContext ν)) (node : ν)

theorem classHolds_counting (counting : Counting) (formula : String) :
    reading.ClassHolds counting.name (some formula) context node ↔
      counting.Holds reading.basis formula node := by
  obtain ⟨noAlias, named⟩ := counting.named
  rw [ClassHolds, noAlias]
  simp [named, FilterHolds]

theorem classHolds_structural (kind : StructuralClass) :
    reading.ClassHolds kind.name none context node ↔ kind.holds reading.basis node = true := by
  obtain ⟨noAlias, noFilter, named⟩ := kind.named
  rw [ClassHolds, noAlias]
  simp [noFilter, named]

end Reading
end SelectorEngine
