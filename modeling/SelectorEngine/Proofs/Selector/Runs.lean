import Mathlib.Data.List.Chain
import SelectorEngine.Compile.PseudoClass
import SelectorEngine.Proofs.Selector.Arrangement
import SelectorEngine.Proofs.Selector.Occurrence

/-! What arranging does to a list. Items of negative rank are barriers and keep their places; a run between
barriers is sorted where it stands, items of equal rank staying in order; and what is arranged stays as it
is. -/
namespace SelectorEngine

variable {α : Type}

/-- The items by ascending rank, those of equal rank in the order in which they came. -/
structure IsStableSort (rank : α → Int) (sorted items : List α) : Prop where
  perm : sorted.Perm items
  ascending : sorted.Pairwise fun first second => rank first ≤ rank second
  stable : ∀ value, sorted.filter (fun item => rank item = value) = items.filter fun item => rank item = value

section Arrange

variable (rank : α → Int)

theorem insertRanked_pairwise (item : α) {before : List α}
    (descending : before.Pairwise fun second first => rank first ≤ rank second) :
    (insertRanked rank item before).Pairwise fun second first => rank first ≤ rank second := by
  induction before with
  | nil => exact List.pairwise_singleton _ item
  | cons nearest further ih =>
    obtain ⟨nearestLeast, rest⟩ := List.pairwise_cons.mp descending
    unfold insertRanked
    split
    · next less =>
      refine List.pairwise_cons.mpr ⟨fun other member => ?_, ih rest⟩
      rcases List.mem_cons.mp ((insertRanked_perm rank item further).mem_iff.mp member) with rfl | later
      · exact Int.le_of_lt less
      · exact nearestLeast other later
    · next notLess =>
      refine List.pairwise_cons.mpr ⟨List.forall_mem_cons.mpr ⟨Int.not_lt.mp notLess, ?_⟩, descending⟩
      exact fun other member => Int.le_trans (nearestLeast other member) (Int.not_lt.mp notLess)

/-- Only items of higher rank are passed. -/
theorem filter_insertRanked (value : Int) (item : α) (before : List α) :
    (insertRanked rank item before).filter (fun item => rank item = value) =
      (item :: before).filter fun item => rank item = value := by
  induction before with
  | nil => rfl
  | cons nearest further ih =>
    unfold insertRanked
    split
    · next less =>
      rw [List.filter_cons, ih, List.filter_cons, List.filter_cons, List.filter_cons]
      by_cases isItem : rank item = value
      · have other : rank nearest ≠ value := by omega
        simp [isItem, other]
      · simp [isItem]
    · rfl

theorem arrangeNext_of_movable {item : α} (movable : 0 ≤ rank item) (reversed : List α) :
    arrangeNext rank reversed item = insertRanked rank item reversed :=
  if_neg (Int.not_lt.mpr movable)

private theorem foldl_arrangeNext_of_movable {items : List α} (movable : ∀ item ∈ items, 0 ≤ rank item)
    {reversed : List α} (descending : reversed.Pairwise fun second first => rank first ≤ rank second) :
    let arranged := items.foldl (arrangeNext rank) reversed
    arranged.Pairwise (fun second first => rank first ≤ rank second) ∧
      ∀ value, arranged.filter (fun item => rank item = value) =
        (items.reverse ++ reversed).filter fun item => rank item = value := by
  induction items generalizing reversed with
  | nil => exact ⟨descending, fun _ => rfl⟩
  | cons item rest ih =>
    obtain ⟨first, later⟩ := List.forall_mem_cons.mp movable
    obtain ⟨sorted, kept⟩ := ih later (insertRanked_pairwise rank item descending)
    rw [List.foldl_cons, arrangeNext_of_movable rank first]
    refine ⟨sorted, fun value => (kept value).trans ?_⟩
    rw [List.filter_append, filter_insertRanked, ← List.filter_append, List.reverse_cons, List.append_assoc]
    rfl

theorem arrange_isStableSort {items : List α} (movable : ∀ item ∈ items, 0 ≤ rank item) :
    IsStableSort rank (arrange rank items) items where
  perm := arrange_perm rank items
  ascending := List.pairwise_reverse.mpr
    (foldl_arrangeNext_of_movable rank movable List.Pairwise.nil).1
  stable value := by
    have kept := (foldl_arrangeNext_of_movable rank movable List.Pairwise.nil).2 value
    rw [arrange, List.filter_reverse, kept, List.append_nil, List.filter_reverse, List.reverse_reverse]

/-- A barrier keeps its place. -/
theorem getElem_arrange_of_barrier {items : List α} {index : Nat} {barrier : α}
    (stands : items[index]? = some barrier) (fixed : rank barrier < 0) :
    (arrange rank items)[index]? = some barrier := by
  obtain ⟨inside, same⟩ := List.getElem?_eq_some_iff.mp stands
  have split : items = items.take index ++ barrier :: items.drop (index + 1) := by
    rw [← same, List.getElem_cons_drop, List.take_append_drop]
  have before : (arrange rank (items.take index)).length = index := by
    rw [(arrange_perm rank _).length_eq, List.length_take, Nat.min_eq_left (Nat.le_of_lt inside)]
  rw [split, arrange_append_barrier rank fixed, List.getElem?_append_right (Nat.le_of_eq before), before,
    Nat.sub_self]
  rfl

theorem arrange_append_of_last {before : List α} (closed : ∀ item ∈ before.getLast?, rank item < 0)
    (after : List α) : arrange rank (before ++ after) = arrange rank before ++ arrange rank after := by
  rcases List.eq_nil_or_concat' before with rfl | ⟨further, barrier, rfl⟩
  · rfl
  · have fixed : rank barrier < 0 := closed barrier (by simp)
    have alone := arrange_append_barrier rank fixed further []
    rw [List.append_assoc, List.singleton_append, arrange_append_barrier rank fixed, alone]
    simp [arrange]

theorem arrange_append_of_head {after : List α} (closed : ∀ item ∈ after.head?, rank item < 0)
    (before : List α) : arrange rank (before ++ after) = arrange rank before ++ arrange rank after := by
  cases after with
  | nil => rw [List.append_nil, show arrange rank ([] : List α) = [] from rfl, List.append_nil]
  | cons barrier further =>
    have fixed : rank barrier < 0 := closed barrier (by simp)
    have alone := arrange_append_barrier rank fixed [] further
    rw [arrange_append_barrier rank fixed, ← List.nil_append (barrier :: further), alone]
    rfl

/-- A run between barriers is sorted where it stands. -/
theorem arrange_run_isStableSort {before run after : List α} (movable : ∀ item ∈ run, 0 ≤ rank item)
    (closedBefore : ∀ item ∈ before.getLast?, rank item < 0)
    (closedAfter : ∀ item ∈ after.head?, rank item < 0) :
    IsStableSort rank (((arrange rank (before ++ run ++ after)).drop before.length).take run.length) run := by
  have split : arrange rank (before ++ run ++ after) =
      arrange rank before ++ (arrange rank run ++ arrange rank after) := by
    rw [List.append_assoc, arrange_append_of_last rank closedBefore, arrange_append_of_head rank closedAfter]
  rw [split, List.drop_left' (arrange_perm rank before).length_eq,
    List.take_left' (arrange_perm rank run).length_eq]
  exact arrange_isStableSort rank movable

/-- Nothing in a reversed arrangement passes what stands before it. -/
def IsArranged (reversed : List α) : Prop :=
  reversed.IsChain fun second first => rank second < 0 ∨ rank first ≤ rank second

variable {rank}

theorem IsArranged.insertRanked {item : α} {before : List α} (arranged : IsArranged rank before) :
    IsArranged rank (insertRanked rank item before) := by
  induction before with
  | nil => exact List.isChain_singleton item
  | cons nearest further ih =>
    obtain ⟨first, rest⟩ := List.isChain_cons.mp arranged
    unfold SelectorEngine.insertRanked
    split
    · next less =>
      refine List.isChain_cons.mpr ⟨fun other isHead => ?_, ih rest⟩
      -- What now stands before the nearest item is the one that passed it, or what stood there.
      cases further with
      | nil =>
        obtain rfl := Option.mem_some.mp isHead
        exact .inr (Int.le_of_lt less)
      | cons second _ =>
        unfold SelectorEngine.insertRanked at isHead
        split at isHead
        · exact first other isHead
        · obtain rfl := Option.mem_some.mp isHead
          exact .inr (Int.le_of_lt less)
    · next notLess => exact List.isChain_cons_cons.mpr ⟨.inr (Int.not_lt.mp notLess), arranged⟩

theorem IsArranged.arrangeNext {reversed : List α} (arranged : IsArranged rank reversed) (item : α) :
    IsArranged rank (arrangeNext rank reversed item) := by
  unfold SelectorEngine.arrangeNext
  split
  · next fixed =>
    cases reversed with
    | nil => exact List.isChain_singleton item
    | cons nearest before => exact List.isChain_cons_cons.mpr ⟨.inl fixed, arranged⟩
  · exact arranged.insertRanked

theorem isArranged_foldl (items : List α) {reversed : List α} (arranged : IsArranged rank reversed) :
    IsArranged rank (items.foldl (SelectorEngine.arrangeNext rank) reversed) := by
  induction items generalizing reversed with
  | nil => exact arranged
  | cons item rest ih => exact ih (arranged.arrangeNext item)

theorem foldl_arrangeNext_of_isArranged {items reversed : List α}
    (arranged : IsArranged rank (items.reverse ++ reversed)) :
    items.foldl (SelectorEngine.arrangeNext rank) reversed = items.reverse ++ reversed := by
  induction items generalizing reversed with
  | nil => rfl
  | cons item rest ih =>
    rw [List.reverse_cons, List.append_assoc, List.singleton_append] at arranged ⊢
    have stays : SelectorEngine.arrangeNext rank reversed item = item :: reversed := by
      have suffix := arranged.right_of_append
      unfold SelectorEngine.arrangeNext
      split
      · rfl
      · next movable =>
        cases reversed with
        | nil => rfl
        | cons nearest before =>
          have notLess := ((List.isChain_cons_cons.mp suffix).1).resolve_left movable
          exact if_neg (Int.not_lt.mpr notLess)
    rw [List.foldl_cons, stays, ih arranged]

variable (rank)

/-- Arranging again changes nothing. -/
theorem arrange_arrange (items : List α) : arrange rank (arrange rank items) = arrange rank items := by
  have arranged : IsArranged rank (items.foldl (SelectorEngine.arrangeNext rank) []) :=
    isArranged_foldl items List.isChain_nil
  have still : IsArranged rank
      ((items.foldl (SelectorEngine.arrangeNext rank) []).reverse.reverse ++ []) := by
    rwa [List.reverse_reverse, List.append_nil]
  have again := foldl_arrangeNext_of_isArranged still
  rw [List.reverse_reverse, List.append_nil] at again
  rw [arrange, arrange, again]

end Arrange

/-- What no token is moved past: a combinator, a pseudo-element, or a pseudo-class with such a token in its
list. The lists of those that read everything below a node do not count. -/
inductive Token.IsBarrier : Token → Prop
  | combinator (kind : Combinator) : IsBarrier (.combinator kind)
  | pseudoElement (name : String) (argument : Option String) : IsBarrier (.pseudoElement name argument)
  | subselect {name : String} {groups : SelectorList} {group : Group} {inner : Token} :
      readsBelow name = false → group ∈ groups → inner ∈ group → IsBarrier inner →
        IsBarrier (.subselect name groups)

theorem AttributeSelector.rank_nonneg (selector : AttributeSelector) : 0 ≤ selector.rank := by
  have base : ∀ action : AttributeAction, 0 ≤ AttributeSelector.rank { selector with action } := by
    intro action
    unfold rank
    cases action <;> cases selector.caseMode <;> simp <;> split <;> omega
  exact base selector.action

namespace Token

private theorem lesser_neg_iff (least : Option Int) (rank : Int) :
    lesser least rank < 0 ↔ least.getD 0 < 0 ∨ rank < 0 := by
  cases least with
  | none => simp [lesser]
  | some known =>
    rw [lesser, Option.getD_some]
    omega

private theorem leastRank_neg_iff (least : Option Int) (group : Group) :
    (leastRank least group).getD 0 < 0 ↔ least.getD 0 < 0 ∨ ∃ token ∈ group, token.rank < 0 := by
  induction group generalizing least with
  | nil => simp [leastRank]
  | cons token rest ih =>
    rw [leastRank, ih, Option.getD_some, lesser_neg_iff, List.exists_mem_cons_iff, or_assoc]

private theorem leastGroupRank_neg_iff (least : Option Int) (groups : SelectorList) :
    (leastGroupRank least groups).getD 0 < 0 ↔
      least.getD 0 < 0 ∨ ∃ group ∈ groups, ∃ token ∈ group, token.rank < 0 := by
  induction groups generalizing least with
  | nil => simp [leastGroupRank]
  | cons group rest ih =>
    rw [leastGroupRank, ih, leastRank_neg_iff, List.exists_mem_cons_iff, or_assoc]

theorem rank_subselect_neg_iff (name : String) (groups : SelectorList) :
    (subselect name groups).rank < 0 ↔
      readsBelow name = false ∧ ∃ group ∈ groups, ∃ inner ∈ group, inner.rank < 0 := by
  rw [rank]
  cases readsBelow name with
  | true => simp
  | false => simpa using leastGroupRank_neg_iff none groups

theorem rank_neg_iff_isBarrier (token : Token) : token.rank < 0 ↔ token.IsBarrier := by
  induction token using Token.induct with
  | subselect name groups ih =>
    rw [rank_subselect_neg_iff]
    constructor
    · rintro ⟨counts, group, listed, inner, member, negative⟩
      exact .subselect counts listed member ((ih group listed inner member).mp negative)
    · rintro (_ | _ | ⟨counts, listed, member, barrier⟩)
      exact ⟨counts, _, listed, _, member, (ih _ listed _ member).mpr barrier⟩
  | pseudoElement name argument => exact iff_of_true (by rw [rank]; decide) (.pseudoElement name argument)
  | combinator kind => exact iff_of_true (rank_combinator kind) (.combinator kind)
  | attr selector => exact iff_of_false (Int.not_lt.mpr selector.rank_nonneg) (by intro barrier; cases barrier)
  | pseudoClass name argument =>
    refine iff_of_false (Int.not_lt.mpr ?_) (by intro barrier; cases barrier)
    cases argument with
    | none => rw [rank]; decide
    | some text => rw [rank]; split <;> decide
  | tag name space => exact iff_of_false (by rw [rank]; decide) (by intro barrier; cases barrier)
  | universal space => exact iff_of_false (by rw [rank]; decide) (by intro barrier; cases barrier)

end Token

/-- Of the pseudo-classes that take a list, only `:has()` reads everything below a node. -/
theorem Subselect.readsBelow_iff_has {name : String} {kind : Subselect} (named : ofName? name = some kind) :
    readsBelow name = true ↔ kind = .has := by
  unfold ofName? at named
  split at named <;> first | (cases named; decide) | cases named

end SelectorEngine
