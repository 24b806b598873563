import Mathlib.Data.Prod.Lex
import Mathlib.Logic.Relation
import SelectorEngine.Proofs.Selector.Arrangement
import SelectorEngine.Proofs.Selector.Runs

/-! Sorting the simple selectors of a group in place, which takes no more room than the group and a list of ratings
beside it. Item by item, each one that is not a barrier moves towards the front, exchanged with the item before it
as long as that one is rated higher, and its rating moves along. Every step reads and writes within both lists and
keeps every rating beside its item; the last one leaves the arrangement. -/
namespace SelectorEngine

variable {α : Type}

/-- Exchanges the item at the index and the one after it. There is nothing when one of them is missing. -/
def exchange? : List α → Nat → Option (List α)
  | first :: second :: rest, 0 => some (second :: first :: rest)
  | first :: rest, index + 1 => (exchange? rest index).map (first :: ·)
  | _, _ => none

theorem exchange_append (before : List α) (first second : α) (rest : List α) :
    exchange? (before ++ first :: second :: rest) before.length = some (before ++ second :: first :: rest) := by
  induction before with
  | nil => rfl
  | cons item further ih => rw [List.cons_append, List.length_cons, exchange?, ih]; rfl

/-- Items that are being sorted. -/
structure Sorting (α : Type) where
  items : List α
  ratings : List Int
  /-- The index of the item whose turn it is. -/
  turn : Nat
  /-- While that item moves, its rating and the index it has got to. -/
  moving : Option (Int × Nat)

inductive Sorting.Progress (α : Type) where
  | next (sorting : Sorting α)
  | finished
  /-- An index was used for which there is no item or no rating. -/
  | outOfRange

/-- What arranging does to a reversed arrangement, put in order again. -/
theorem arrange_concat (rank : α → Int) (items : List α) (item : α) :
    arrange rank (items ++ [item]) = (arrangeNext rank (arrange rank items).reverse item).reverse := by
  rw [arrange, arrange, List.foldl_append, List.reverse_reverse]
  rfl

namespace Sorting

def step (sorting : Sorting α) : Progress α :=
  match sorting.moving with
  | none =>
    if sorting.turn < sorting.items.length then
      match sorting.ratings[sorting.turn]? with
      | none => .outOfRange
      | some rating =>
        if rating < 0 then .next { sorting with turn := sorting.turn + 1 }
        else .next { sorting with moving := some (rating, sorting.turn) }
    else .finished
  | some (_, 0) => .next { sorting with turn := sorting.turn + 1, moving := none }
  | some (rating, place + 1) =>
    match sorting.ratings[place]? with
    | none => .outOfRange
    | some nearest =>
      if rating < nearest then
        match exchange? sorting.items place, exchange? sorting.ratings place with
        | some items, some ratings => .next { sorting with items, ratings, moving := some (rating, place) }
        | _, _ => .outOfRange
      else .next { sorting with turn := sorting.turn + 1, moving := none }

def Leads : Sorting α → Sorting α → Prop := Relation.ReflTransGen fun before after => before.step = .next after

variable (rank : α → Int)

def rated (items : List α) (turn : Nat) (moving : Option (Int × Nat)) : Sorting α :=
  { items, ratings := items.map rank, turn, moving }

/-- The first item is in place already. -/
def start (items : List α) : Sorting α := rated rank items 1 none

/-- The ratings are those of the items. Before the turn stands the arrangement of what stood there, or, while an
item moves, what becomes of it once the item has been inserted before the items it has not passed. -/
inductive IsSound (original : List α) : Sorting α → Prop
  | resting (turn : Nat) : IsSound original
      (rated rank (arrange rank (original.take turn) ++ original.drop turn) turn none)
  | moving {turn : Nat} {item : α} {before after : List α} : turn < original.length →
      arrange rank (original.take (turn + 1)) ++ original.drop (turn + 1) =
        (insertRanked rank item before).reverse ++ after →
      IsSound original
        (rated rank (before.reverse ++ item :: after) turn (some (rank item, before.length)))

variable {rank} {original : List α}

theorem IsSound.of_arranged {turn : Nat} {items : List α}
    (arranged : arrange rank (original.take turn) ++ original.drop turn = items) :
    IsSound rank original (rated rank items turn none) := arranged ▸ .resting turn

theorem isSound_start (original : List α) : IsSound rank original (start rank original) := by
  refine .of_arranged ?_
  cases original with
  | nil => rfl
  | cons item rest => exact congrArg (· ++ rest) (arrange_singleton rank item)

theorem getElem?_ratings (rank : α → Int) (before : List α) (item : α) (after : List α) :
    ((before ++ item :: after).map rank)[before.length]? = some (rank item) := by
  rw [List.getElem?_map, List.getElem?_append_right (Nat.le_refl _), Nat.sub_self]
  rfl

/-- The turns that are left, and the places the item can still move. -/
def remaining (sorting : Sorting α) : Nat ×ₗ Nat :=
  toLex (sorting.items.length - sorting.turn,
    match sorting.moving with
    | none => sorting.turn + 1
    | some (_, place) => place)

theorem remaining_lt_of_turn {before after : Sorting α} (same : after.items.length = before.items.length)
    (turned : after.turn = before.turn + 1) (inside : before.turn < before.items.length) :
    after.remaining < before.remaining := by
  refine Prod.Lex.toLex_lt_toLex.mpr (.inl ?_)
  dsimp only
  omega

theorem remaining_lt_of_place {before after : Sorting α} (same : after.items.length = before.items.length)
    (turn : after.turn = before.turn) {rating : Int} {place : Nat}
    (moving : after.moving = some (rating, place))
    (nearer : match before.moving with
      | none => place < before.turn + 1
      | some (_, earlier) => place < earlier) :
    after.remaining < before.remaining := by
  refine Prod.Lex.toLex_lt_toLex.mpr (.inr ⟨by rw [same, turn], ?_⟩)
  rw [moving]
  cases earlier : before.moving <;> simpa [earlier] using nearer

/-- A sound state that is not the last one leads on to one that is nearer to the end. -/
def Advances (rank : α → Int) (original : List α) (sorting : Sorting α) : Prop :=
  ∃ after, sorting.step = .next after ∧ IsSound rank original after ∧ after.remaining < sorting.remaining

/-- An item starts to move, unless it is a barrier. -/
theorem advances_resting {turn : Nat} (inside : turn < original.length) :
    Advances rank original
      (rated rank (arrange rank (original.take turn) ++ original.drop turn) turn none) := by
  obtain ⟨item, rest, split⟩ : ∃ item rest, original.drop turn = item :: rest :=
    ⟨_, _, List.drop_eq_getElem_cons inside⟩
  have front : (arrange rank (original.take turn)).length = turn := by
    rw [(arrange_perm rank _).length_eq, List.length_take, Nat.min_eq_left (Nat.le_of_lt inside)]
  have taken : original.take (turn + 1) = original.take turn ++ [item] := by
    rw [List.take_add_one, ← List.head?_drop, split]
    rfl
  have dropped : original.drop (turn + 1) = rest := by
    rw [← List.tail_drop, split, List.tail_cons]
  have placed := arrange_concat rank (original.take turn) item
  have waits : turn < (arrange rank (original.take turn) ++ item :: rest).length := by
    rw [List.length_append, front, List.length_cons]
    omega
  have rating := getElem?_ratings rank (arrange rank (original.take turn)) item rest
  rw [front] at rating
  rw [split]
  unfold arrangeNext at placed
  by_cases fixed : rank item < 0
  · rw [if_pos fixed, List.reverse_cons, List.reverse_reverse] at placed
    have arranged : arrange rank (original.take (turn + 1)) ++ original.drop (turn + 1) =
        arrange rank (original.take turn) ++ item :: rest := by
      rw [taken, dropped, placed, List.append_assoc, List.singleton_append]
    refine ⟨_, ?_, .of_arranged arranged, remaining_lt_of_turn rfl rfl waits⟩
    simp only [step, rated, if_pos waits, rating, if_pos fixed]
  · rw [if_neg fixed] at placed
    have target : arrange rank (original.take (turn + 1)) ++ original.drop (turn + 1) =
        (insertRanked rank item (arrange rank (original.take turn)).reverse).reverse ++ rest := by
      rw [taken, dropped, placed]
    have sound := IsSound.moving inside target
    rw [List.reverse_reverse, List.length_reverse, front] at sound
    refine ⟨_, ?_, sound, remaining_lt_of_place rfl rfl rfl (Nat.lt_succ_self turn)⟩
    simp only [step, rated, if_pos waits, rating, if_neg fixed]

/-- The item passes a higher one before it. -/
theorem step_passing (turn : Nat) (further : List α) {nearest item : α} (after : List α)
    (less : rank item < rank nearest) :
    (rated rank (further.reverse ++ nearest :: item :: after) turn
      (some (rank item, further.length + 1))).step =
        .next (rated rank (further.reverse ++ item :: nearest :: after) turn
          (some (rank item, further.length))) := by
  have rating := getElem?_ratings rank further.reverse nearest (item :: after)
  have exchanged := exchange_append further.reverse nearest item after
  have exchangedRatings := exchange_append (further.reverse.map rank) (rank nearest) (rank item)
    (after.map rank)
  rw [List.length_reverse] at rating exchanged
  rw [List.length_map, List.length_reverse] at exchangedRatings
  simp only [step, rated, rating, if_pos less, exchanged]
  simp only [List.map_append, List.map_cons, exchangedRatings]

theorem step_staying (turn : Nat) (further : List α) {nearest item : α} (after : List α)
    (notLess : ¬ rank item < rank nearest) :
    (rated rank (further.reverse ++ nearest :: item :: after) turn
      (some (rank item, further.length + 1))).step =
        .next (rated rank (further.reverse ++ nearest :: item :: after) (turn + 1) none) := by
  have rating := getElem?_ratings rank further.reverse nearest (item :: after)
  rw [List.length_reverse] at rating
  simp only [step, rated, rating, if_neg notLess]

/-- The item passes the one before it, or the turn is over. -/
theorem advances_moving {turn : Nat} {item : α} {before after : List α} (inside : turn < original.length)
    (target : arrange rank (original.take (turn + 1)) ++ original.drop (turn + 1) =
      (insertRanked rank item before).reverse ++ after) :
    Advances rank original
      (rated rank (before.reverse ++ item :: after) turn (some (rank item, before.length))) := by
  have turnEnds (stays : insertRanked rank item before = item :: before) :
      IsSound rank original (rated rank (before.reverse ++ item :: after) (turn + 1) none) := by
    refine .of_arranged ?_
    rw [target, stays, List.reverse_cons, List.append_assoc, List.singleton_append]
  have waits : turn < (before.reverse ++ item :: after).length := by
    have size := congrArg List.length target
    rw [List.length_append, (arrange_perm rank _).length_eq, ← List.length_append, List.take_append_drop,
      List.length_append, List.length_reverse, (insertRanked_perm rank item before).length_eq] at size
    rw [List.length_append, List.length_reverse, List.length_cons]
    rw [List.length_cons] at size
    omega
  cases before with
  | nil => exact ⟨_, rfl, turnEnds rfl, remaining_lt_of_turn rfl rfl waits⟩
  | cons nearest further =>
    have split : (nearest :: further).reverse ++ item :: after =
        further.reverse ++ nearest :: item :: after := by
      rw [List.reverse_cons, List.append_assoc, List.singleton_append]
    rw [split] at turnEnds waits ⊢
    by_cases less : rank item < rank nearest
    · have sound : IsSound rank original (rated rank (further.reverse ++ item :: nearest :: after) turn
          (some (rank item, further.length))) := by
        refine .moving inside ?_
        rw [target, insertRanked, if_pos less, List.reverse_cons, List.append_assoc, List.singleton_append]
      exact ⟨_, step_passing turn further after less, sound,
        remaining_lt_of_place (by simp [rated]) rfl rfl (Nat.lt_succ_self _)⟩
    · have stays : insertRanked rank item (nearest :: further) = item :: nearest :: further := by
        rw [insertRanked, if_neg less]
      exact ⟨_, step_staying turn further after less, turnEnds stays, remaining_lt_of_turn rfl rfl waits⟩

/-- A sound state leads on, or it holds the arrangement. -/
theorem IsSound.progress {sorting : Sorting α} (sound : IsSound rank original sorting) :
    Advances rank original sorting ∨ sorting.step = .finished ∧ sorting.items = arrange rank original := by
  cases sound with
  | resting turn =>
    by_cases inside : turn < original.length
    · exact .inl (advances_resting inside)
    · have all : original.length ≤ turn := Nat.le_of_not_lt inside
      have whole : arrange rank (original.take turn) ++ original.drop turn = arrange rank original := by
        rw [List.take_of_length_le all, List.drop_eq_nil_of_le all, List.append_nil]
      rw [whole]
      exact .inr ⟨if_neg (by rwa [rated, (arrange_perm rank original).length_eq]), rfl⟩
  | moving inside target => exact .inl (advances_moving inside target)

theorem IsSound.of_leads {sorting after : Sorting α} (sound : IsSound rank original sorting)
    (leads : Leads sorting after) : IsSound rank original after := by
  induction leads with
  | refl => exact sound
  | tail _ step ih =>
    rcases ih.progress with ⟨other, steps, soundAfter, _⟩ | ⟨finished, _⟩
    · cases steps.symm.trans step
      exact soundAfter
    · cases finished.symm.trans step

theorem IsSound.parallel {sorting : Sorting α} (sound : IsSound rank original sorting) :
    sorting.ratings = sorting.items.map rank := by
  cases sound <;> rfl

/-- The loops end, and leave the arrangement. -/
theorem IsSound.finishes {sorting : Sorting α} (sound : IsSound rank original sorting) :
    ∃ final, Leads sorting final ∧ final.step = .finished ∧ final.items = arrange rank original := by
  induction far : sorting.remaining using WellFoundedLT.induction generalizing sorting with
  | ind distance ih =>
    rcases sound.progress with ⟨after, step, soundAfter, nearer⟩ | ⟨finished, arranged⟩
    · obtain ⟨final, leads, ends⟩ := ih _ (far ▸ nearer) soundAfter rfl
      exact ⟨final, .head step leads, ends⟩
    · exact ⟨sorting, .refl, finished, arranged⟩

end Sorting

namespace Selector

/-- The loops over a group and its ratings never leave either of them, keep every rating beside its token all
along, and end with the arrangement. In it the tokens of negative rank, which are the barriers, stand where they
stood, and every run between barriers is sorted stably in its place. Arranging again changes nothing. -/
theorem arranges_runs_in_place (group : Group) :
    let sorted := arrange Token.rank group
    let start := Sorting.start Token.rank group
    (∃ final, start.Leads final ∧ final.step = .finished ∧ final.items = sorted) ∧
      (∀ sorting, start.Leads sorting →
        sorting.ratings = sorting.items.map Token.rank ∧ sorting.step ≠ .outOfRange) ∧
      (∀ token : Token, token.rank < 0 ↔ token.IsBarrier) ∧
      (∀ name kind, Subselect.ofName? name = some kind → (readsBelow name = true ↔ kind = .has)) ∧
      (∀ (index : Nat) token, group[index]? = some token → token.rank < 0 → sorted[index]? = some token) ∧
      (∀ before run after : Group, group = before ++ run ++ after → (∀ token ∈ run, 0 ≤ token.rank) →
        (∀ token ∈ before.getLast?, token.rank < 0) → (∀ token ∈ after.head?, token.rank < 0) →
          IsStableSort Token.rank ((sorted.drop before.length).take run.length) run) ∧
      arrange Token.rank sorted = sorted := by
  intro sorted start
  have sound : Sorting.IsSound Token.rank group start := Sorting.isSound_start group
  refine ⟨sound.finishes, fun sorting leads => ?_, Token.rank_neg_iff_isBarrier,
    fun _ _ => Subselect.readsBelow_iff_has, fun _ _ => getElem_arrange_of_barrier Token.rank,
    fun before run after split movable closedBefore closedAfter => ?_, arrange_arrange Token.rank group⟩
  · have reached := sound.of_leads leads
    refine ⟨reached.parallel, fun outside => ?_⟩
    rcases reached.progress with ⟨_, step, _⟩ | ⟨finished, _⟩
    · cases step.symm.trans outside
    · cases finished.symm.trans outside
  · subst split
    exact arrange_run_isStableSort Token.rank movable closedBefore closedAfter

/-- `ul > *:nth-child(2)` becomes `ul > :nth-child(2)*`. -/
example : arrange Token.rank [tag "ul", child, universal, pseudoWith "nth-child" "2"] =
    [tag "ul", child, pseudoWith "nth-child" "2", universal] := rfl

end Selector
end SelectorEngine
