import SelectorEngine.Proofs.Compile.Alone
import SelectorEngine.Proofs.Meaning.Attribute
import SelectorEngine.Tree.Arena

/-! How the actions of attribute selectors bear on each other. Where a selector with one action matches, the
same selector with an action that allows more places matches too, and negation is the complement of equality.
Only what can never be looked for is left out: no start, end or part is empty, and no word has a blank in it. -/
namespace SelectorEngine

variable {ν σ : Type}

/-- Every attribute that is there has a value, and no other has one. -/
def TreeView.HasWhatIsFound (tree : TreeView ν) : Prop :=
  ∀ node name, tree.hasAttribute node name = (tree.attributeValue node name).isSome

theorem Arena.view_hasWhatIsFound (arena : Arena) : arena.view.HasWhatIsFound := fun _ _ => rfl

/-- What one value, looked for with each of the actions, says about one element. -/
structure AttributeAction.AreConsistent (value : String) (passes : AttributeAction → Prop) : Prop where
  present_of_placed : ∀ {action : AttributeAction}, action.isPlaced → passes action → passes .present
  hyphen_of_equals : passes .equals → passes .hyphen
  start_of_equals : value ≠ "" → passes .equals → passes .start
  end_of_equals : value ≠ "" → passes .equals → passes .end
  start_of_hyphen : value ≠ "" → passes .hyphen → passes .start
  any_of_start : passes .start → passes .any
  any_of_end : passes .end → passes .any
  any_of_element : passes .element → passes .any
  element_of_equals : value ≠ "" → (∀ character ∈ value.toList, Text.isBlank character = false) →
    passes .equals → passes .element
  not_iff_of_filled : value ≠ "" → (passes .not ↔ ¬ passes .equals)
  not_iff_of_empty : value = "" → (passes .not ↔ passes .present ∧ ¬ passes .equals)

namespace AttributeSelector

def acting (selector : AttributeSelector) (action : AttributeAction) : AttributeSelector :=
  { selector with action }

variable {basis : Basis ν} {selector : AttributeSelector} {node : ν}

theorem holds_of_wider {narrow wide : AttributeAction} (placed : narrow.isPlaced)
    (wider : ∀ {front rest}, narrow.fits front rest = true → wide.fits front rest = true)
    (usable : (selector.acting narrow).IsUsable basis.flags → (selector.acting wide).IsUsable basis.flags)
    (holds : (selector.acting narrow).Holds basis node) : (selector.acting wide).Holds basis node := by
  have narrowly : (selector.acting narrow).action.isPlaced := placed
  obtain ⟨isUsable, front, rest, stands, fits⟩ := (holds_iff_place narrowly).mp holds
  have widely : (selector.acting wide).action.isPlaced := AttributeAction.isPlaced_of_fits (wider fits)
  exact (holds_iff_place widely).mpr ⟨usable isUsable, front, rest, stands, wider fits⟩

theorem present_of_holds (found : basis.tree.HasWhatIsFound) {action : AttributeAction}
    (placed : action.isPlaced) (holds : (selector.acting action).Holds basis node) :
    (selector.acting .present).Holds basis node := by
  have placed' : (selector.acting action).action.isPlaced := placed
  obtain ⟨_, _, _, ⟨value, has, _⟩, _⟩ := (holds_iff_place placed').mp holds
  exact (found node _).trans (congrArg Option.isSome has)

theorem not_iff_of_filled (filled : selector.value ≠ "") :
    (selector.acting .not).Holds basis node ↔ ¬ (selector.acting .equals).Holds basis node :=
  iff_of_eq (if_neg (mt (AttributeTest.toList_fold_eq_nil_iff _ _).mp filled))

theorem not_iff_of_empty (found : basis.tree.HasWhatIsFound) (empty : selector.value = "") :
    (selector.acting .not).Holds basis node ↔
      (selector.acting .present).Holds basis node ∧ ¬ (selector.acting .equals).Holds basis node := by
  let test := AttributeTest.ofSelector selector basis.flags
  have nothing : test.value.toList = [] := (AttributeTest.toList_fold_eq_nil_iff _ _).mpr empty
  have negated : (selector.acting .not).Holds basis node ↔
      ∃ value, basis.tree.attributeValue node test.name = some value ∧ value ≠ "" :=
    iff_of_eq (if_pos nothing)
  have equal : (selector.acting .equals).Holds basis node ↔
      ∃ value, basis.tree.attributeValue node test.name = some value ∧ value = "" := by
    refine exists_congr fun value => and_congr_right fun _ => ?_
    exact (iff_of_eq (congrArg _ nothing)).trans (AttributeTest.toList_fold_eq_nil_iff _ _)
  have present : (selector.acting .present).Holds basis node ↔
      (basis.tree.attributeValue node test.name).isSome = true :=
    iff_of_eq (congrArg (· = true) (found node _))
  rw [negated, equal, present]
  cases basis.tree.attributeValue node test.name <;> simp

theorem isUsable_of_filled (flags : Flags) (filled : selector.value ≠ "") {action : AttributeAction}
    (isPart : action = .start ∨ action = .end ∨ action = .any) :
    (selector.acting action).IsUsable flags := by
  have value := mt (AttributeTest.toList_fold_eq_nil_iff
    (AttributeTest.ofSelector selector flags).ignoresCase _).mp filled
  rcases isPart with rfl | rfl | rfl <;> exact (isUsable_iff flags).mpr value

variable (basis selector node) in
/-- The actions that compare values by their places, then negation. -/
theorem areConsistent (found : basis.tree.HasWhatIsFound) :
    AttributeAction.AreConsistent selector.value fun action => (selector.acting action).Holds basis node := by
  have whole {action : AttributeAction} (alone : action.fits [] [] = true) {front rest : List Char}
      (fits : AttributeAction.equals.fits front rest = true) : action.fits front rest = true := by
    obtain ⟨first, last⟩ := Bool.and_eq_true_iff.mp fits
    rwa [List.isEmpty_iff.mp first, List.isEmpty_iff.mp last]
  have usable {action : AttributeAction} : (selector.acting action).IsUsable basis.flags ↔ _ :=
    isUsable_iff basis.flags
  constructor
  case present_of_placed => exact fun placed => present_of_holds found placed
  case hyphen_of_equals =>
    exact holds_of_wider ⟨nofun, nofun⟩ (whole rfl) fun _ => usable.mpr trivial
  case start_of_equals =>
    exact fun filled => holds_of_wider ⟨nofun, nofun⟩ (whole rfl) fun _ =>
      isUsable_of_filled _ filled (.inl rfl)
  case end_of_equals =>
    exact fun filled => holds_of_wider ⟨nofun, nofun⟩ (whole rfl) fun _ =>
      isUsable_of_filled _ filled (.inr (.inl rfl))
  case start_of_hyphen =>
    exact fun filled => holds_of_wider ⟨nofun, nofun⟩
      (fun fits => (Bool.and_eq_true_iff.mp fits).1) fun _ => isUsable_of_filled _ filled (.inl rfl)
  case any_of_start =>
    exact holds_of_wider ⟨nofun, nofun⟩ (fun _ => rfl) fun isUsable => usable.mpr (usable.mp isUsable :)
  case any_of_end =>
    exact holds_of_wider ⟨nofun, nofun⟩ (fun _ => rfl) fun isUsable => usable.mpr (usable.mp isUsable :)
  case any_of_element =>
    exact holds_of_wider ⟨nofun, nofun⟩ (fun _ => rfl) fun isUsable =>
      usable.mpr (usable.mp isUsable).1
  case element_of_equals =>
    intro filled solid
    have value := mt (AttributeTest.toList_fold_eq_nil_iff
      (AttributeTest.ofSelector selector basis.flags).ignoresCase _).mp filled
    exact holds_of_wider ⟨nofun, nofun⟩ (whole rfl) fun _ =>
      usable.mpr ⟨value, AttributeTest.isBlank_of_mem_fold _ solid⟩
  case not_iff_of_filled => exact not_iff_of_filled
  case not_iff_of_empty => exact not_iff_of_empty found

end AttributeSelector

namespace SelectorList

/-- Selectors of one attribute and value, one for every action, are consistent at every element, in every
case mode and whatever the flags. -/
theorem attribute_actions_are_consistent {options : Options ν σ} (builtin : options.custom = {})
    (root : options.root = .alwaysTrue) (free : options.context = none)
    (found : options.tree.HasWhatIsFound) (selector : AttributeSelector) :
    ∃ passes : AttributeAction → ν → Bool,
      (∀ action, Matches [[.attribute { selector with action }]] options none (passes action)) ∧
        ∀ node, options.tree.isElement node = true →
          AttributeAction.AreConsistent selector.value fun action => passes action node = true := by
  have each (action : AttributeAction) := matchesWhere_attribute builtin root free (selector.acting action)
  choose passes answers meant using each
  refine ⟨passes, answers, fun node element => ?_⟩
  have holds : (fun action => passes action node = true) =
      fun action => (selector.acting action).Holds options.toBasis node := by
    funext action
    rw [meant, and_iff_right element]
  rw [holds]
  exact AttributeSelector.areConsistent options.toBasis selector node found

theorem attribute_actions_are_consistent_for_language :
    ∃ arena : Arena, Arena.build? [(0, .element "p" [("lang", "de-CH"), ("title", "")])] = some arena ∧
      ∀ caseMode, ∃ passes : AttributeAction → Nat → Bool,
        (∀ action, Matches [[.attribute { name := "lang", action, value := "DE", caseMode }]]
          (Options.ofTree arena.view : Options Nat Unit) none (passes action)) ∧
        ∀ node, arena.view.isElement node = true →
          AttributeAction.AreConsistent "DE" fun action => passes action node = true := by
  obtain ⟨arena, built⟩ : ∃ arena, Arena.build? [(0, .element "p" [("lang", "de-CH"), ("title", "")])] =
      some arena := ⟨_, rfl⟩
  exact ⟨arena, built, fun caseMode => attribute_actions_are_consistent rfl rfl rfl
    arena.view_hasWhatIsFound { name := "lang", action := .present, value := "DE", caseMode }⟩

end SelectorList
end SelectorEngine
