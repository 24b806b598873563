import SelectorEngine.Selector.Token

/-! The order in which the simple selectors of a compound are tested. It does not change what matches,
only how much work a failed test costs: a compound is compiled left to right with its last token
outermost, so the cheap and selective tokens go last. Tokens of negative rank, the combinators above
all, stay where they are and are never passed. -/
namespace SelectorEngine

/-- Higher is cheaper and more selective. -/
def AttributeSelector.rank (selector : AttributeSelector) : Int :=
  let base : Int :=
    match selector.action with
    | .present => 10
    | .equals => if selector.name == "id" then 9 else 8
    | .not => 7
    | .start => 6
    | .end => 6
    | .any => 5
    | .hyphen => 4
    | .element => 3
  match selector.caseMode with
  | .insensitive | .inQuirksMode => base / 2
  | .byAttribute | .sensitive => base

/-- Pseudo-classes that read everything below a node. -/
def readsBelow (name : String) : Bool := name == "has" || name == "contains" || name == "icontains"

def lesser : Option Int → Int → Int
  | none, rank => rank
  | some least, rank => min least rank

namespace Token

mutual

/-- Higher is cheaper and more selective. -/
def rank : Token → Int
  | .universal _ => 50
  | .tag _ _ => 30
  | .attribute selector => selector.rank
  | .pseudoClass _ none => 3
  | .pseudoClass name (some _) => if readsBelow name then 0 else 2
  | .subselect name groups => if readsBelow name then 0 else (leastGroupRank none groups).getD 0
  | .pseudoElement _ _ => -1
  | .combinator _ => -1

/-- The least rank in the groups, if it is less than the one given. -/
def leastGroupRank (least : Option Int) : List (List Token) → Option Int
  | [] => least
  | group :: rest => leastGroupRank (leastRank least group) rest

def leastRank (least : Option Int) : List Token → Option Int
  | [] => least
  | token :: rest => leastRank (some (lesser least token.rank)) rest

end

end Token

section Arrange

variable {α : Type} (rank : α → Int)

/-- Puts an item behind the items of higher rank at the head of a list that is in reverse order. -/
def insertRanked (item : α) : List α → List α
  | [] => [item]
  | nearest :: before =>
    if rank item < rank nearest then nearest :: insertRanked item before
    else item :: nearest :: before

/-- Extends a reversed arrangement by the next item. -/
def arrangeNext (reversed : List α) (item : α) : List α :=
  if rank item < 0 then item :: reversed else insertRanked rank item reversed

/-- Sorts every stretch between items of negative rank by ascending rank, keeping the order of items
of equal rank. -/
def arrange (items : List α) : List α := (items.foldl (arrangeNext rank) []).reverse

theorem insertRanked_perm (item : α) (items : List α) :
    (insertRanked rank item items).Perm (item :: items) := by
  induction items with
  | nil => exact .refl _
  | cons nearest before ih =>
    unfold insertRanked
    split
    · exact (ih.cons nearest).trans (.swap item nearest before)
    · exact .refl _

theorem arrangeNext_perm (reversed : List α) (item : α) :
    (arrangeNext rank reversed item).Perm (item :: reversed) := by
  unfold arrangeNext
  split
  · exact .refl _
  · exact insertRanked_perm rank item reversed

private theorem foldl_arrangeNext_perm (items reversed : List α) :
    (items.foldl (arrangeNext rank) reversed).Perm (items ++ reversed) := by
  induction items generalizing reversed with
  | nil => exact .refl _
  | cons item rest ih =>
    exact (ih _).trans (((arrangeNext_perm rank reversed item).append_left rest).trans
      List.perm_middle)

/-- Arranging loses and adds nothing. -/
theorem arrange_perm (items : List α) : (arrange rank items).Perm items := by
  simpa [arrange] using (List.reverse_perm _).trans (foldl_arrangeNext_perm rank items [])

theorem insertRanked_map {β : Type} (f : β → α) (item : β) (items : List β) :
    insertRanked rank (f item) (items.map f) =
      (insertRanked (fun item => rank (f item)) item items).map f := by
  induction items with
  | nil => rfl
  | cons nearest before ih =>
    simp only [List.map_cons, insertRanked]
    split <;> simp [ih]

theorem arrangeNext_map {β : Type} (f : β → α) (reversed : List β) (item : β) :
    arrangeNext rank (reversed.map f) (f item) =
      (arrangeNext (fun item => rank (f item)) reversed item).map f := by
  unfold arrangeNext
  split <;> simp [insertRanked_map]

private theorem foldl_arrangeNext_map {β : Type} (f : β → α) (items reversed : List β) :
    (items.map f).foldl (arrangeNext rank) (reversed.map f) =
      (items.foldl (arrangeNext fun item => rank (f item)) reversed).map f := by
  induction items generalizing reversed with
  | nil => rfl
  | cons item rest ih => simp only [List.map_cons, List.foldl_cons, arrangeNext_map, ih]

/-- The arrangement depends on the ranks alone. -/
theorem arrange_map {β : Type} (f : β → α) (items : List β) :
    arrange rank (items.map f) = (arrange (fun item => rank (f item)) items).map f := by
  simpa [arrange] using congrArg List.reverse (foldl_arrangeNext_map rank f items [])

end Arrange
end SelectorEngine
