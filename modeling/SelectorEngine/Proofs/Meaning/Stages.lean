import SelectorEngine.Proofs.Meaning.Context
import SelectorEngine.Proofs.Meaning.Region

/-! Reading a group in two stages. What stands behind a combinator leads from the node to another one,
and what stands before it holds at an element that the combinator leads to from there. -/
namespace SelectorEngine

variable {ν : Type}

namespace Part

/-- Read from the first node on, the parts arrive at the second. -/
inductive Arrives : List (Part ν) → ν → ν → Prop
  | done (node : ν) : Arrives [] node node
  | test {holds : ν → Prop} {left : List (Part ν)} {node other : ν} :
      holds node → Arrives left node other → Arrives (.test holds :: left) node other
  | move {leads : ν → ν → Prop} {left : List (Part ν)} {node next other : ν} :
      leads node next → Arrives left next other → Arrives (.move leads :: left) node other

theorem chain_append (parts last : List (Part ν)) (node : ν) :
    chain (parts ++ last) node ↔ ∃ other, Arrives parts node other ∧ chain last other := by
  constructor
  · intro holds
    induction parts generalizing node with
    | nil => exact ⟨node, .done node, holds⟩
    | cons part rest ih =>
      cases part with
      | test condition =>
        obtain ⟨other, arrives, further⟩ := ih node holds.2
        exact ⟨other, .test holds.1 arrives, further⟩
      | move leads =>
        obtain ⟨next, moves, rest⟩ := holds
        obtain ⟨other, arrives, further⟩ := ih next rest
        exact ⟨other, .move moves arrives, further⟩
  · intro known
    obtain ⟨other, arrives, further⟩ := known
    induction arrives with
    | done node => exact further
    | test condition _ ih => exact ⟨condition, ih further⟩
    | move moves _ ih => exact ⟨_, moves, ih further⟩

end Part

namespace Reading

variable {reading : Reading ν} {context : Option (MatchContext ν)}

theorem holds_append (left right : Group) (kind : Combinator) (node : ν) :
    reading.Holds context (left ++ .combinator kind :: right) node ↔
      ∃ other, Part.Arrives (right.map (reading.part context)).reverse node other ∧
        ∃ next, reading.leads kind other next ∧ reading.Holds context left next := by
  unfold Holds
  rw [List.map_append, List.map_cons, List.reverse_append, List.reverse_cons, List.append_assoc,
    Part.chain_append]
  rfl

/-- Behind a front a group says at least what it says alone. -/
theorem holds_of_holds_cons_cons {first : Token} {kind : Combinator} {group : Group} {node : ν}
    (holds : reading.Holds context (first :: .combinator kind :: group) node) :
    reading.Holds context group node := by
  obtain ⟨other, arrives, _⟩ := (holds_append [first] group kind node).mp holds
  have reached := (Part.chain_append _ [] node).mpr ⟨other, arrives, trivial⟩
  rwa [List.append_nil] at reached

/-- What no combinator of the group leads out of is not left on the way. -/
theorem stays_of_arrives (region : ν → Prop) {group : Group}
    (stays : ∀ kind, .combinator kind ∈ group → ∀ node next, reading.leads kind node next →
      region node → region next) {node other : ν}
    (arrives : Part.Arrives (group.map (reading.part context)).reverse node other)
    (inside : region node) : region other := by
  rw [← List.map_reverse] at arrives
  have own (token : Token) (member : token ∈ group.reverse) : token ∈ group := List.mem_reverse.mp member
  generalize group.reverse = items at arrives own
  induction items generalizing node with
  | nil =>
    cases arrives
    exact inside
  | cons item items ih =>
    obtain ⟨member, others⟩ := List.forall_mem_cons.mp own
    rw [List.map_cons] at arrives
    rcases reading.part_cases context item with ⟨kind, rfl⟩ | ⟨condition, tests⟩
    · cases arrives with
      | move moves further => exact ih (stays kind member _ _ moves inside) further others
    · rw [tests] at arrives
      cases arrives with
      | test _ further => exact ih inside further others

end Reading
end SelectorEngine
