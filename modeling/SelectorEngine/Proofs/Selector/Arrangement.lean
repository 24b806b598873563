import SelectorEngine.Selector.Anchor
import SelectorEngine.Selector.Rank

/-! Arranging a group and anchoring it do not get into each other's way. Nothing moves past a combinator,
so how a group starts, which is all that anchoring looks at, is the same before and after. -/
namespace SelectorEngine

section Arrange

variable {α : Type} (rank : α → Int)

theorem insertRanked_append_barrier {item barrier : α} (movable : 0 ≤ rank item)
    (fixed : rank barrier < 0) (after before : List α) :
    insertRanked rank item (after ++ barrier :: before) =
      insertRanked rank item after ++ barrier :: before := by
  induction after with
  | nil =>
    have stays : ¬ rank item < rank barrier := by omega
    simp only [List.nil_append, insertRanked, if_neg stays, List.cons_append]
  | cons nearest further ih =>
    simp only [List.cons_append, insertRanked]
    split
    · rw [ih, List.cons_append]
    · rfl

theorem arrangeNext_append_barrier {barrier : α} (fixed : rank barrier < 0) (item : α)
    (after before : List α) :
    arrangeNext rank (after ++ barrier :: before) item =
      arrangeNext rank after item ++ barrier :: before := by
  unfold arrangeNext
  split
  · rfl
  · next movable => exact insertRanked_append_barrier rank (by omega) fixed after before

private theorem foldl_arrangeNext_append_barrier {barrier : α} (fixed : rank barrier < 0)
    (items after before : List α) :
    items.foldl (arrangeNext rank) (after ++ barrier :: before) =
      items.foldl (arrangeNext rank) after ++ barrier :: before := by
  induction items generalizing after with
  | nil => rfl
  | cons item rest ih =>
    rw [List.foldl_cons, List.foldl_cons, arrangeNext_append_barrier rank fixed, ih]

theorem arrange_append_barrier {barrier : α} (fixed : rank barrier < 0) (before after : List α) :
    arrange rank (before ++ barrier :: after) =
      arrange rank before ++ barrier :: arrange rank after := by
  have placed (reversed : List α) : arrangeNext rank reversed barrier = barrier :: reversed := by
    rw [arrangeNext, if_pos fixed]
  have apart := foldl_arrangeNext_append_barrier rank fixed after []
    (before.foldl (arrangeNext rank) [])
  rw [List.nil_append] at apart
  rw [arrange, List.foldl_append, List.foldl_cons, placed, apart, arrange, arrange]
  simp

theorem arrange_singleton (item : α) : arrange rank [item] = [item] := by
  have placed : arrangeNext rank [] item = [item] := by
    unfold arrangeNext
    split <;> rfl
  rw [arrange, List.foldl_cons, placed, List.foldl_nil, List.reverse_singleton]

end Arrange

theorem Token.mentionsScope_of_isScope {token : Token} (isScope : token.isScope = true) :
    token.mentionsScope = true := by
  cases token with
  | pseudoClass name argument => exact isScope
  | subselect name groups =>
    rw [mentionsScope, show (name == "scope") = true from isScope, Bool.true_or]
  | _ => cases isScope

theorem Token.rank_combinator (kind : Combinator) : (combinator kind).rank < 0 := by
  rw [rank]
  decide

theorem Token.simple_of_rank {token : Token} (movable : 0 ≤ token.rank) : token.isCombinator = false := by
  cases token with
  | combinator kind => exact absurd movable (Int.not_le.mpr (rank_combinator kind))
  | _ => rfl

namespace Selector

def leading : Group → Option Combinator
  | .combinator kind :: _ => some kind
  | _ => none

/-- The first token of a group and the combinator right after it. -/
def opening : Group → Option (Token × Combinator)
  | [] => none
  | first :: rest => (leading rest).map (first, ·)

theorem startsRelative_eq (group : Group) :
    startsRelative group = (leading group).any (· != .descendant) := by
  unfold startsRelative leading
  split <;> simp_all

theorem startsAmongSiblings_eq (group : Group) :
    startsAmongSiblings group =
      (opening group).any fun (first, kind) =>
        first.isScope && (kind == .sibling || kind == .adjacent) := by
  rcases group with _ | ⟨first, _ | ⟨second, rest⟩⟩
  · rfl
  · rfl
  · cases second with
    | combinator kind => cases kind <;> simp [startsAmongSiblings, opening, leading]
    | _ => rfl

theorem startsBelowScope_eq (group : Group) :
    startsBelowScope group =
      (opening group).any fun (first, kind) => first.isScope && kind == .descendant := by
  rcases group with _ | ⟨first, _ | ⟨second, rest⟩⟩
  · rfl
  · rfl
  · cases second with
    | combinator kind => cases kind <;> simp [startsBelowScope, opening, leading]
    | _ => rfl

theorem leading_eq_none {group : Group} (simple : ∀ token ∈ group, token.isCombinator = false) :
    leading group = none := by
  unfold leading
  split
  · next kind rest => exact absurd (simple (.combinator kind) (by simp)) (by simp [Token.isCombinator])
  · rfl

theorem opening_eq_none {group : Group} (simple : ∀ token ∈ group, token.isCombinator = false) :
    opening group = none := by
  cases group with
  | nil => rfl
  | cons first rest =>
    have none : leading rest = none :=
      leading_eq_none fun token member => simple token (List.mem_cons_of_mem first member)
    rw [opening, none, Option.map_none]

theorem compound_or_split (group : Group) :
    (∀ token ∈ group, token.isCombinator = false) ∨
      ∃ compound kind rest, group = compound ++ .combinator kind :: rest ∧
        ∀ token ∈ compound, token.isCombinator = false := by
  induction group with
  | nil => exact .inl fun _ member => absurd member List.not_mem_nil
  | cons first rest ih =>
    cases isFirst : first.isCombinator with
    | true =>
      cases first with
      | combinator kind => exact .inr ⟨[], kind, rest, rfl, fun _ member => absurd member List.not_mem_nil⟩
      | _ => cases isFirst
    | false =>
      rcases ih with simple | ⟨compound, kind, further, split, simple⟩
      · exact .inl (List.forall_mem_cons.mpr ⟨isFirst, simple⟩)
      · exact .inr ⟨first :: compound, kind, further, by rw [split, List.cons_append],
          List.forall_mem_cons.mpr ⟨isFirst, simple⟩⟩

private theorem simple_arrange {group : Group}
    (simple : ∀ token ∈ group, token.isCombinator = false) :
    ∀ token ∈ arrange Token.rank group, token.isCombinator = false :=
  fun token member => simple token ((arrange_perm Token.rank group).mem_iff.mp member)

theorem leading_append {compound : Group} (rest : Group)
    (simple : ∀ token ∈ compound, token.isCombinator = false) (nonempty : compound ≠ []) :
    leading (compound ++ rest) = none := by
  cases compound with
  | nil => exact absurd rfl nonempty
  | cons first further =>
    have plain := simple first (by simp)
    cases first with
    | combinator => cases plain
    | _ => rfl

theorem leading_arrange (group : Group) :
    leading (arrange Token.rank group) = leading group := by
  rcases compound_or_split group with simple | ⟨compound, kind, rest, split, simple⟩
  · rw [leading_eq_none simple, leading_eq_none (simple_arrange simple)]
  · rw [split, arrange_append_barrier Token.rank (Token.rank_combinator kind)]
    by_cases empty : compound = []
    · subst empty
      rfl
    · have arranged : arrange Token.rank compound ≠ [] := fun none =>
        empty (List.Perm.nil_eq (none ▸ arrange_perm Token.rank compound)).symm
      rw [leading_append _ simple empty, leading_append _ (simple_arrange simple) arranged]

theorem startsWithCombinator_eq (group : Group) :
    startsWithCombinator group = (leading group).isSome := by
  cases group with
  | nil => rfl
  | cons first rest => cases first <;> rfl

theorem startsWithCombinator_arrange (group : Group) :
    startsWithCombinator (arrange Token.rank group) = startsWithCombinator group := by
  rw [startsWithCombinator_eq, leading_arrange, startsWithCombinator_eq]

theorem opening_append {compound : Group} (rest : Group)
    (simple : ∀ token ∈ compound, token.isCombinator = false) (several : 1 < compound.length) :
    opening (compound ++ rest) = none := by
  match compound with
  | first :: second :: further =>
    have later : ∀ token ∈ second :: further, token.isCombinator = false :=
      fun token member => simple token (List.mem_cons_of_mem first member)
    have none := leading_append rest later (List.cons_ne_nil second further)
    rw [List.cons_append, opening, none, Option.map_none]

theorem opening_arrange (group : Group) :
    opening (arrange Token.rank group) = opening group := by
  rcases compound_or_split group with simple | ⟨compound, kind, rest, split, simple⟩
  · rw [opening_eq_none simple, opening_eq_none (simple_arrange simple)]
  · rw [split, arrange_append_barrier Token.rank (Token.rank_combinator kind)]
    match compound with
    | [] => exact congrArg (Option.map (Token.combinator kind, ·)) (leading_arrange rest)
    | [only] => rw [arrange_singleton]; rfl
    | first :: second :: further =>
      have several : 1 < (first :: second :: further).length := by simp
      have stillSeveral : 1 < (arrange Token.rank (first :: second :: further)).length := by
        rw [(arrange_perm Token.rank _).length_eq]
        exact several
      rw [opening_append _ simple several, opening_append _ (simple_arrange simple) stillSeveral]

theorem front_arrange (anchored : Bool) (group : Group) :
    front anchored (arrange Token.rank group) = front anchored group := by
  have mentions : (arrange Token.rank group).any Token.mentionsScope =
      group.any Token.mentionsScope := (arrange_perm Token.rank group).any_eq
  rw [front, startsRelative_eq, leading_arrange, mentions, front, startsRelative_eq]

theorem opening_front_arrange (front : Front) (group : Group) :
    opening (front.tokens ++ arrange Token.rank group) = opening (front.tokens ++ group) := by
  cases front with
  | nothing => exact opening_arrange group
  | scope => exact congrArg (Option.map (Selector.scope, ·)) (leading_arrange group)
  | scopeDescendant => rfl

theorem any_mentionsScope_eq_false {group : Group}
    (unmentioned : ∀ token ∈ group, token.mentionsScope = false) :
    group.any Token.mentionsScope = false := by
  rw [List.any_eq_false]
  intro token member
  rw [unmentioned token member]
  exact Bool.false_ne_true

theorem startsAmongSiblings_of_unmentioned {group : Group}
    (unmentioned : group.any Token.mentionsScope = false) : startsAmongSiblings group = false := by
  refine Bool.eq_false_iff.mpr fun starts => Bool.false_ne_true (unmentioned.symm.trans ?_)
  unfold startsAmongSiblings at starts
  split at starts
  · next first rest => rw [List.any_cons, Token.mentionsScope_of_isScope starts, Bool.true_or]
  · next first rest => rw [List.any_cons, Token.mentionsScope_of_isScope starts, Bool.true_or]
  · cases starts

theorem startsBelowScope_of_unmentioned {group : Group}
    (unmentioned : group.any Token.mentionsScope = false) : startsBelowScope group = false := by
  refine Bool.eq_false_iff.mpr fun below => Bool.false_ne_true (unmentioned.symm.trans ?_)
  unfold startsBelowScope at below
  split at below
  · next first rest => rw [List.any_cons, Token.mentionsScope_of_isScope below, Bool.true_or]
  · cases below

theorem startsRelative_of_plain {group : Group} (plain : startsWithCombinator group = false) :
    startsRelative group = false := by
  rw [startsWithCombinator_eq, Option.isSome_eq_false_iff, Option.isNone_iff_eq_none] at plain
  rw [startsRelative_eq, plain, Option.any_none]

theorem front_of_absolute {group : Group} (absolute : startsRelative group = false)
    (anchored : Bool) : front anchored group =
      if anchored && !group.any Token.mentionsScope then .scopeDescendant else .nothing := by
  rw [front, absolute, if_neg Bool.false_ne_true]

theorem front_of_plain {group : Group} (plain : startsWithCombinator group = false)
    (anchored : Bool) : front anchored group =
      if anchored && !group.any Token.mentionsScope then .scopeDescendant else .nothing :=
  front_of_absolute (startsRelative_of_plain plain) anchored

end Selector
end SelectorEngine
