import SelectorEngine.Selector.Abbreviation

/-! Induction on tokens, and what occurs in a selector at any depth. -/
namespace SelectorEngine

namespace Token

@[elab_as_elim]
theorem induct {motive : Token → Prop}
    (tag : ∀ name space, motive (.tag name space))
    (universal : ∀ space, motive (.universal space))
    (attr : ∀ selector, motive (.attribute selector))
    (pseudoClass : ∀ name argument, motive (.pseudoClass name argument))
    (subselect : ∀ name groups, (∀ group ∈ groups, ∀ token ∈ group, motive token) →
      motive (.subselect name groups))
    (pseudoElement : ∀ name argument, motive (.pseudoElement name argument))
    (combinator : ∀ kind, motive (.combinator kind)) (token : Token) : motive token := by
  refine @Token.rec motive (fun groups => ∀ group ∈ groups, ∀ token ∈ group, motive token)
    (fun group => ∀ token ∈ group, motive token) tag universal attr pseudoClass
    subselect pseudoElement combinator ?_ ?_ ?_ ?_ token
  · intro group member
    exact absurd member List.not_mem_nil
  · intro first rest head tail group member
    rcases List.mem_cons.mp member with rfl | inside
    · exact head
    · exact tail group inside
  · intro token member
    exact absurd member List.not_mem_nil
  · intro first rest head tail token member
    rcases List.mem_cons.mp member with rfl | inside
    · exact head
    · exact tail token inside

mutual

/-- A pseudo-class with one of the names meant occurs in the token at some depth. -/
def uses (isMeant : String → Bool) : Token → Bool
  | .pseudoClass name _ => isMeant name
  | .subselect name groups => isMeant name || anyGroupUses isMeant groups
  | _ => false

def anyGroupUses (isMeant : String → Bool) : List (List Token) → Bool
  | [] => false
  | group :: rest => anyUses isMeant group || anyGroupUses isMeant rest

def anyUses (isMeant : String → Bool) : List Token → Bool
  | [] => false
  | token :: rest => token.uses isMeant || anyUses isMeant rest

end

variable (isMeant : String → Bool)

theorem anyUses_eq_any (group : Group) : anyUses isMeant group = group.any (uses isMeant) := by
  induction group with
  | nil => rfl
  | cons token rest ih => rw [anyUses, ih, List.any_cons]

theorem anyGroupUses_eq_any (groups : SelectorList) :
    anyGroupUses isMeant groups = groups.any (·.any (uses isMeant)) := by
  induction groups with
  | nil => rfl
  | cons group rest ih => rw [anyGroupUses, ih, anyUses_eq_any, List.any_cons]

theorem any_congr_of_mem {α : Type} {items : List α} {first second : α → Bool}
    (same : ∀ item ∈ items, first item = second item) : items.any first = items.any second := by
  rw [Bool.eq_iff_iff, List.any_eq_true, List.any_eq_true]
  exact exists_congr fun item => and_congr_right fun member => by rw [same item member]

theorem mentionsScope_eq_uses (token : Token) : token.mentionsScope = token.uses (· == "scope") := by
  induction token using Token.induct with
  | subselect name groups ih =>
    have inside : groups.any (·.any mentionsScope) = groups.any (·.any (uses (· == "scope"))) := by
      have same (group : Group) (listed : group ∈ groups) :
          group.any mentionsScope = group.any (uses (· == "scope")) :=
        any_congr_of_mem fun token member => ih group listed token member
      exact any_congr_of_mem same
    rw [mentionsScope, anyGroupMentionsScope_eq_any, uses, anyGroupUses_eq_any, inside]
  | _ => rfl

theorem uses_nothing (token : Token) : token.uses (fun _ => false) = false := by
  induction token using Token.induct with
  | subselect name groups ih =>
    rw [uses, Bool.false_or, anyGroupUses_eq_any, List.any_eq_false]
    intro group listed
    rw [List.any_eq_true]
    intro used
    obtain ⟨token, member, uses⟩ := used
    exact Bool.false_ne_true ((ih group listed token member).symm.trans uses)
  | _ => rfl

end Token

namespace SelectorList

def uses (isMeant : String → Bool) (selectors : SelectorList) : Bool :=
  selectors.any (·.any (Token.uses isMeant))

theorem uses_of_mem {isMeant : String → Bool} {selectors : SelectorList}
    (unused : selectors.uses isMeant = false) {group : Group} (listed : group ∈ selectors)
    {token : Token} (member : token ∈ group) : token.uses isMeant = false := by
  simp only [uses, List.any_eq_false] at unused
  have inGroup := unused group listed
  simp only [List.any_eq_true, not_exists, not_and] at inGroup
  simpa using inGroup token member

theorem uses_eq_false {isMeant : String → Bool} {selectors : SelectorList}
    (unused : ∀ group ∈ selectors, ∀ token ∈ group, token.uses isMeant = false) :
    selectors.uses isMeant = false := by
  simpa [uses] using unused

theorem uses_group (isMeant : String → Bool) (group : Group) :
    uses isMeant [group] = group.any (Token.uses isMeant) := by
  rw [uses, List.any_cons, List.any_nil, Bool.or_false]

theorem uses_singleton {isMeant : String → Bool} {group : Group}
    (unused : ∀ token ∈ group, token.uses isMeant = false) : uses isMeant [group] = false :=
  uses_eq_false (List.forall_mem_singleton.mpr unused)

end SelectorList

theorem Token.uses_subselect (isMeant : String → Bool) (name : String) (groups : SelectorList) :
    (Token.subselect name groups).uses isMeant = (isMeant name || groups.uses isMeant) := by
  rw [Token.uses, Token.anyGroupUses_eq_any, SelectorList.uses]

theorem Token.uses_subselect_eq_false {isMeant : String → Bool} {name : String}
    {groups : SelectorList} (unused : (Token.subselect name groups).uses isMeant = false) :
    isMeant name = false ∧ SelectorList.uses isMeant groups = false := by
  rwa [Token.uses_subselect, Bool.or_eq_false_iff] at unused

/-- The token stands in some group of the list, or in a list in a group of it, at any depth. -/
inductive Token.OccursIn (token : Token) : SelectorList → Prop
  | here {groups : SelectorList} {group : Group} :
      group ∈ groups → token ∈ group → OccursIn token groups
  | deeper {groups inner : SelectorList} {group : Group} {name : String} :
      group ∈ groups → .subselect name inner ∈ group → OccursIn token inner → OccursIn token groups

theorem Token.OccursIn.of_singleton {token inner : Token} (occurs : inner.OccursIn [[token]])
    {selectors : SelectorList} {group : Group} (listed : group ∈ selectors) (member : token ∈ group) :
    inner.OccursIn selectors := by
  cases occurs with
  | here only inside =>
    obtain rfl := List.mem_singleton.mp only
    obtain rfl := List.mem_singleton.mp inside
    exact .here listed member
  | deeper only inside occurs =>
    obtain rfl := List.mem_singleton.mp only
    obtain rfl := List.mem_singleton.mp inside
    exact .deeper listed member occurs

theorem Token.OccursIn.exists_token {inner : Token} {selectors : SelectorList}
    (occurs : inner.OccursIn selectors) : ∃ group ∈ selectors, ∃ token ∈ group, inner.OccursIn [[token]] := by
  cases occurs with
  | here listed member => exact ⟨_, listed, _, member, .here List.mem_cons_self List.mem_cons_self⟩
  | deeper listed member occurs =>
    exact ⟨_, listed, _, member, .deeper List.mem_cons_self List.mem_cons_self occurs⟩

theorem Token.OccursIn.uses_eq_false {token : Token} {selectors : SelectorList}
    (occurs : token.OccursIn selectors) {isMeant : String → Bool} (unused : selectors.uses isMeant = false) :
    token.uses isMeant = false := by
  induction occurs with
  | here listed member => exact SelectorList.uses_of_mem unused listed member
  | deeper listed member _ ih =>
    exact ih (Token.uses_subselect_eq_false (SelectorList.uses_of_mem unused listed member)).2

section Narrower

variable {isMeant isOther : String → Bool} (narrower : ∀ name, isMeant name = false → isOther name = false)
include narrower

theorem Token.uses_eq_false_of_narrower {token : Token} (unused : token.uses isMeant = false) :
    token.uses isOther = false := by
  induction token using Token.induct with
  | pseudoClass name argument => exact narrower name unused
  | subselect name groups ih =>
    obtain ⟨other, inside⟩ := Token.uses_subselect_eq_false unused
    rw [uses, anyGroupUses_eq_any, Bool.or_eq_false_iff]
    exact ⟨narrower name other, SelectorList.uses_eq_false fun group listed token member =>
      ih group listed token member (SelectorList.uses_of_mem inside listed member)⟩
  | _ => rfl

theorem SelectorList.uses_eq_false_of_narrower {selectors : SelectorList}
    (unused : selectors.uses isMeant = false) : selectors.uses isOther = false :=
  uses_eq_false fun _ listed _ member =>
    Token.uses_eq_false_of_narrower narrower (uses_of_mem unused listed member)

end Narrower

namespace Selector

theorem mem_abbreviations {name : String} {selectors : SelectorList}
    (stands : abbreviations.lookup name = some selectors) : (name, selectors) ∈ abbreviations := by
  obtain ⟨before, after, split, _⟩ := List.lookup_eq_some_iff.mp stands
  rw [split]
  simp

/-- No abbreviation brings the pseudo-classes meant into a selector, unless it is one of them. -/
def IsSelfContained (isMeant : String → Bool) : Prop :=
  ∀ entry ∈ abbreviations, isMeant entry.1 = false → SelectorList.uses isMeant entry.2 = false

instance (isMeant : String → Bool) : Decidable (IsSelfContained isMeant) :=
  inferInstanceAs (Decidable (∀ entry ∈ abbreviations, _))

theorem IsSelfContained.uses_eq_false {isMeant : String → Bool} (contained : IsSelfContained isMeant)
    {name : String} {selectors : SelectorList}
    (stands : abbreviations.lookup name = some selectors) (other : isMeant name = false) :
    SelectorList.uses isMeant selectors = false :=
  contained _ (mem_abbreviations stands) other

end Selector
end SelectorEngine
