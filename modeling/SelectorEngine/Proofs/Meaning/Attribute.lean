import SelectorEngine.Proofs.Meaning.SimpleSelector
import SelectorEngine.Proofs.Text.Sigma

/-! Attribute selectors by places. Every action that compares values asks for the selector's value somewhere in
the value that was found, and the actions differ in what may stand around it there. So one action implies
another where its places are places of the other one, and a comparison without case goes by the same places. -/
namespace SelectorEngine

variable {ν : Type}

namespace AttributeAction

/-- Whether the selector's value may stand between these parts of the value found. -/
def fits : AttributeAction → (front rest : List Char) → Bool
  | equals, front, rest => front.isEmpty && rest.isEmpty
  | hyphen, front, rest => front.isEmpty && rest.head?.all (· == '-')
  | element, front, rest => Text.endsBlank front && Text.startsBlank rest
  | start, front, _ => front.isEmpty
  | .end, _, rest => rest.isEmpty
  | any, _, _ => true
  | present, _, _ => false
  | not, _, _ => false

/-- The action looks for the selector's value in the value found. -/
def isPlaced (action : AttributeAction) : Prop := action ≠ present ∧ action ≠ not

theorem isPlaced_of_fits {action : AttributeAction} {front rest : List Char}
    (fits : action.fits front rest = true) : action.isPlaced := by
  constructor <;> rintro rfl <;> cases fits

/-- The value stands as a whole, or between characters that are no letters. -/
def isBounded (action : AttributeAction) : Prop := action = equals ∨ action = hyphen ∨ action = element

theorem isBounded.isPlaced {action : AttributeAction} (bounded : action.isBounded) : action.isPlaced := by
  rcases bounded with rfl | rfl | rfl <;> exact ⟨nofun, nofun⟩

theorem startsCased_of_fits {action : AttributeAction} (bounded : action.isBounded) {front rest : List Char}
    (fits : action.fits front rest = true) :
    Text.startsCased front.reverse = false ∧ Text.startsCased rest = false := by
  rcases bounded with rfl | rfl | rfl <;> obtain ⟨first, last⟩ := Bool.and_eq_true_iff.mp fits
  · rw [List.isEmpty_iff.mp first, List.isEmpty_iff.mp last]
    exact ⟨rfl, rfl⟩
  · refine ⟨by rw [List.isEmpty_iff.mp first]; rfl, ?_⟩
    cases rest with
    | nil => rfl
    | cons next rest =>
      obtain rfl : next = '-' := beq_iff_eq.mp last
      exact Text.startsCased_hyphen rest
  · exact ⟨Text.startsCased_of_endsBlank first, Text.startsCased_of_startsBlank last⟩

/-- A place stays one when the parts around it are lower-cased. -/
theorem fits_lowerAmid {action : AttributeAction} {front rest : List Char}
    (fits : action.fits front rest = true) (before after before' after' : List Char) :
    action.fits (Text.lowerAmid before after front) (Text.lowerAmid before' after' rest) = true := by
  have empty {text before after : List Char} (isEmpty : text.isEmpty = true) :
      (Text.lowerAmid before after text).isEmpty = true :=
    List.isEmpty_iff.mpr (Text.lowerAmid_eq_nil_iff.mpr (List.isEmpty_iff.mp isEmpty))
  cases action with
  | equals => exact Bool.and_eq_true_iff.mpr ((Bool.and_eq_true_iff.mp fits).imp empty empty)
  | hyphen =>
    refine Bool.and_eq_true_iff.mpr ((Bool.and_eq_true_iff.mp fits).imp empty fun last => ?_)
    cases rest with
    | nil => rfl
    | cons next rest =>
      obtain rfl : next = '-' := beq_iff_eq.mp last
      rw [Text.lowerAmid, Text.lowerBetween_hyphen]
      rfl
  | element =>
    exact Bool.and_eq_true_iff.mpr ((Bool.and_eq_true_iff.mp fits).imp Text.endsBlank_lowerAmid
      Text.startsBlank_lowerAmid)
  | start => exact empty fits
  | «end» => exact empty fits
  | any => rfl
  | present => exact fits
  | not => exact fits

end AttributeAction

namespace AttributeTest

theorem toList_fold_eq_nil_iff (ignoresCase : Bool) (text : String) :
    (fold ignoresCase text).toList = [] ↔ text = "" := by
  unfold fold
  split
  · rw [Text.toList_lower, Text.lowerAmid_eq_nil_iff, String.toList_eq_nil_iff]
  · exact String.toList_eq_nil_iff

theorem isBlank_of_mem_fold (ignoresCase : Bool) {text : String}
    (solid : ∀ character ∈ text.toList, Text.isBlank character = false) :
    ∀ character ∈ (fold ignoresCase text).toList, Text.isBlank character = false := by
  unfold fold
  split
  · rw [Text.toList_lower]
    exact Text.isBlank_of_mem_lowerAmid solid
  · exact solid

section Finds

variable {test : AttributeTest} {tree : TreeView ν} {node : ν}

theorem finds_congr {condition condition' : List Char → Prop}
    (same : ∀ found, condition found ↔ condition' found) :
    test.Finds tree node condition ↔ test.Finds tree node condition' :=
  exists_congr fun _ => and_congr_right fun _ => same _

theorem exists_finds_iff {value : List Char} {fits : List Char → List Char → Bool} :
    (∃ front rest, test.Finds tree node (· = front ++ (value ++ rest)) ∧ fits front rest = true) ↔
      test.Finds tree node fun found =>
        ∃ front rest, found = front ++ (value ++ rest) ∧ fits front rest = true := by
  unfold Finds
  constructor
  · intro known
    obtain ⟨front, rest, ⟨found, has, split⟩, fit⟩ := known
    exact ⟨found, has, front, rest, split, fit⟩
  · intro known
    obtain ⟨found, has, front, rest, split, fit⟩ := known
    exact ⟨front, rest, ⟨found, has, split⟩, fit⟩

end Finds
end AttributeTest

namespace AttributeSelector

variable {basis : Basis ν} {selector : AttributeSelector} {node : ν}

/-- The selector's value, folded, stands between these parts in the value found and folded. -/
def StandsBetween (basis : Basis ν) (selector : AttributeSelector) (node : ν) (front rest : List Char) :
    Prop :=
  let test := AttributeTest.ofSelector selector basis.flags
  test.Finds basis.tree node (· = front ++ (test.value.toList ++ rest))

/-- Values that can be looked for: no start, end or part is empty, and no word is empty or has a blank
character in it. -/
def IsUsable (selector : AttributeSelector) (flags : Flags) : Prop :=
  (AttributeTest.ofSelector selector flags).neverPasses = false

theorem isUsable_iff (flags : Flags) : selector.IsUsable flags ↔
    let value := (AttributeTest.ofSelector selector flags).value.toList
    match selector.action with
    | .element => value ≠ [] ∧ ∀ character ∈ value, Text.isBlank character = false
    | .start | .end | .any => value ≠ []
    | .equals | .present | .hyphen | .not => True := by
  have action : (AttributeTest.ofSelector selector flags).action = selector.action := rfl
  unfold IsUsable
  generalize AttributeTest.ofSelector selector flags = test at action ⊢
  have filled : test.value.isEmpty = false ↔ test.value.toList ≠ [] := by
    rw [ne_eq, String.toList_eq_nil_iff, ← String.isEmpty_iff, Bool.not_eq_true]
  cases wanted : selector.action <;> rw [wanted] at action <;>
    simp [AttributeTest.neverPasses, action, filled]

/-- A selector that compares values holds where its value stands at a place of its action. -/
theorem holds_iff_place (placed : selector.action.isPlaced) : selector.Holds basis node ↔
    selector.IsUsable basis.flags ∧ ∃ front rest, selector.StandsBetween basis node front rest ∧
      selector.action.fits front rest = true := by
  rw [isUsable_iff]
  unfold Holds StandsBetween
  generalize AttributeTest.ofSelector selector basis.flags = test
  rw [AttributeTest.exists_finds_iff]
  obtain ⟨notPresent, notNot⟩ := placed
  cases wanted : selector.action with
  | present => exact absurd wanted notPresent
  | not => exact absurd wanted notNot
  | equals =>
    refine (AttributeTest.finds_congr fun found => ?_).trans (and_iff_right trivial).symm
    simp [AttributeAction.fits]
  | hyphen =>
    refine (AttributeTest.finds_congr fun found => ?_).trans (and_iff_right trivial).symm
    simp only [AttributeAction.fits, Bool.and_eq_true, List.isEmpty_iff]
    constructor
    · intro known
      rcases known with whole | ⟨further, whole⟩
      · exact ⟨[], [], by simp [whole], rfl, rfl⟩
      · exact ⟨[], '-' :: further, by simp [← whole], rfl, rfl⟩
    · intro known
      obtain ⟨_, rest, rfl, rfl, next⟩ := known
      cases rest with
      | nil => simp
      | cons first rest =>
        obtain rfl : first = '-' := beq_iff_eq.mp next
        exact .inr ⟨rest, by simp⟩
  | element =>
    refine Iff.trans ?_ and_assoc.symm
    refine and_congr_right fun _ => and_congr_right fun solid => AttributeTest.finds_congr fun found => ?_
    rw [Text.mem_words_iff, and_iff_right solid]
    simp only [AttributeAction.fits, Bool.and_eq_true]
  | start =>
    refine and_congr_right fun _ => AttributeTest.finds_congr fun found => ?_
    constructor
    · intro known
      obtain ⟨rest, split⟩ := known
      exact ⟨[], rest, split.symm, rfl⟩
    · intro known
      obtain ⟨front, rest, split, first⟩ := known
      rw [List.isEmpty_iff.mp first] at split
      exact ⟨rest, split.symm⟩
  | «end» =>
    refine and_congr_right fun _ => AttributeTest.finds_congr fun found => ?_
    constructor
    · intro known
      obtain ⟨front, split⟩ := known
      exact ⟨front, [], by rw [List.append_nil, split], rfl⟩
    · intro known
      obtain ⟨front, rest, split, last⟩ := known
      rw [List.isEmpty_iff.mp last, List.append_nil] at split
      exact ⟨front, split.symm⟩
  | any =>
    refine and_congr_right fun _ => AttributeTest.finds_congr fun found => ?_
    constructor
    · intro known
      obtain ⟨front, rest, split⟩ := known
      exact ⟨front, rest, by rw [← List.append_assoc, split], rfl⟩
    · intro known
      obtain ⟨front, rest, split, _⟩ := known
      exact ⟨front, rest, by rw [List.append_assoc, split]⟩

end AttributeSelector
end SelectorEngine
