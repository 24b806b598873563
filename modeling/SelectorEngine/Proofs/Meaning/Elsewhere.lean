import SelectorEngine.Proofs.Meaning.Context
import SelectorEngine.Proofs.Meaning.Region

/-! Nodes that are not at the scope. As long as no combinator leads from such a node to where the scope is
asked for, it makes no difference which scope it is that the node is not at. -/
namespace SelectorEngine

variable {ν : Type}

namespace Selector

/-- The group mentions `:scope`, or is read from it. -/
def refersToScope (group : Group) : Bool :=
  startsRelative group || group.any fun token => token.mentionsScope || token.nestsRelative

theorem scopeless_of_refersToScope {group : Group} (unscoped : refersToScope group = false) :
    startsRelative group = false ∧ ∀ token ∈ group, token.IsScopeless := by
  rw [refersToScope, Bool.or_eq_false_iff, List.any_eq_false] at unscoped
  refine ⟨unscoped.1, fun token member => ?_⟩
  have neither := unscoped.2 token member
  rw [Bool.not_eq_true, Bool.or_eq_false_iff] at neither
  exact neither

end Selector

namespace Token

mutual

/-- A list inside of the token has a group with a combinator that refers to the scope. Arguments of `:has()`
do not count: they have a scope of their own. -/
def asksAfar : Token → Bool
  | .subselect name groups => !(name == "has") && anyGroupAsksAfar groups
  | _ => false

def anyGroupAsksAfar : List (List Token) → Bool
  | [] => false
  | group :: rest => group.any isCombinator && Selector.refersToScope group || anyAsksAfar group ||
    anyGroupAsksAfar rest

def anyAsksAfar : List Token → Bool
  | [] => false
  | token :: rest => token.asksAfar || anyAsksAfar rest

end

theorem anyAsksAfar_eq_any (group : Group) : anyAsksAfar group = group.any asksAfar := by
  induction group with
  | nil => rfl
  | cons token rest ih => rw [anyAsksAfar, ih, List.any_cons]

theorem anyGroupAsksAfar_eq_any (groups : SelectorList) : anyGroupAsksAfar groups =
    groups.any fun group =>
      group.any isCombinator && Selector.refersToScope group || group.any asksAfar := by
  induction groups with
  | nil => rfl
  | cons group rest ih => rw [anyGroupAsksAfar, ih, anyAsksAfar_eq_any, List.any_cons]

theorem inner_of_asksAfar {name : String} {groups : SelectorList} (other : name ≠ "has")
    (near : (Token.subselect name groups).asksAfar = false) {group : Group} (listed : group ∈ groups) :
    ((∀ token ∈ group, token.isCombinator = false) ∨ Selector.refersToScope group = false) ∧
      ∀ token ∈ group, token.asksAfar = false := by
  rw [asksAfar, beq_eq_false_iff_ne.mpr other, Bool.not_false, Bool.true_and,
    anyGroupAsksAfar_eq_any] at near
  have inGroup := List.any_eq_false.mp near group listed
  rw [Bool.not_eq_true, Bool.or_eq_false_iff, Bool.and_eq_false_iff] at inGroup
  refine ⟨inGroup.1.imp_left fun compound token member => ?_, fun token member => ?_⟩
  · exact Bool.eq_false_iff.mpr (List.any_eq_false.mp compound token member)
  · exact Bool.eq_false_iff.mpr (List.any_eq_false.mp inGroup.2 token member)

end Token

/-- Two conditions that say the same of the node. -/
inductive Part.SameAt (node : ν) : Part ν → Part ν → Prop
  | test {holds other : ν → Prop} (same : holds node ↔ other node) : SameAt node (.test holds) (.test other)

theorem Part.chain_iff_of_sameAt {α : Type} {node : ν} {part other : α → Part ν} (items : List α)
    (same : ∀ item ∈ items, (part item).SameAt node (other item)) :
    chain (items.map part) node ↔ chain (items.map other) node := by
  induction items with
  | nil => exact Iff.rfl
  | cons item rest ih =>
    obtain ⟨head, tail⟩ := List.forall_mem_cons.mp same
    rw [List.map_cons, List.map_cons, chain_cons, chain_cons]
    generalize part item = first at head
    generalize other item = second at head
    cases head with
    | test same => exact and_congr same (ih tail)

namespace Reading

variable {reading : Reading ν} {context other : Option (MatchContext ν)} {node : ν}

theorem holds_iff_of_sameAt {group : Group}
    (same : ∀ token ∈ group, (reading.part context token).SameAt node (reading.part other token)) :
    reading.Holds context group node ↔ reading.Holds other group node := by
  unfold Holds
  rw [← List.map_reverse, ← List.map_reverse]
  exact Part.chain_iff_of_sameAt _ fun token member => same token (List.mem_reverse.mp member)

variable (single : context.any MatchContext.isCollection = false)
  (single' : other.any MatchContext.isCollection = false)
  (scopeless : ∀ token : Token, token.IsScopeless → reading.part context token = reading.part other token)
  (elsewhere : ¬ reading.AtScope context node) (elsewhere' : ¬ reading.AtScope other node)
include single single' scopeless elsewhere elsewhere'

theorem part_sameAt {token : Token} (simple : token.isCombinator = false) (near : token.asksAfar = false) :
    (reading.part context token).SameAt node (reading.part other token) := by
  induction token using Token.induct with
  | tag name space => exact .test Iff.rfl
  | universal space => exact .test Iff.rfl
  | attr selector => exact .test Iff.rfl
  | pseudoElement name argument => exact .test Iff.rfl
  | combinator kind => cases simple
  | pseudoClass name argument =>
    by_cases isScope : name = "scope"
    · subst isScope
      cases argument <;> exact .test (iff_of_false elsewhere elsewhere')
    · have plain : (Token.pseudoClass name argument).IsScopeless := ⟨beq_eq_false_iff_ne.mpr isScope, rfl⟩
      exact .test (iff_of_eq (congrFun (Part.test.inj (scopeless _ plain)) node))
  | subselect name groups ih =>
    have inside (notHas : name ≠ "has") :
        reading.someHolds context false groups node ↔ reading.someHolds other false groups node := by
      rw [someHolds_iff, someHolds_iff, single, single']
      apply exists_congr
      intro group
      apply and_congr_right
      intro listed
      obtain ⟨compound | unscoped, nears⟩ := Token.inner_of_asksAfar notHas near listed
      · rw [Selector.written_of_absolute (Selector.startsRelative_of_compound compound)]
        exact holds_iff_of_sameAt fun token member =>
          ih group listed token member (compound token member) (nears token member)
      · obtain ⟨starts, plain⟩ := Selector.scopeless_of_refersToScope unscoped
        rw [Selector.written_of_absolute starts,
          holds_congr_of_part fun token member => scopeless token (plain token member)]
    simp only [part]
    cases named : Subselect.ofName? name with
    | none => exact .test Iff.rfl
    | some kind =>
      have notHas (otherKind : kind ≠ .has) : name ≠ "has" := by
        rintro rfl
        cases named
        exact otherKind rfl
      cases kind with
      | has => exact .test Iff.rfl
      | anyOf => exact .test (inside (notHas (by decide)))
      | noneOf => exact .test (not_congr (inside (notHas (by decide))))

end Reading
end SelectorEngine
