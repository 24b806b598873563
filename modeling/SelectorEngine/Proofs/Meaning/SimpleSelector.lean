import SelectorEngine.Compile.BuiltinFilter

/-! What simple selectors say about a node, without regard to how they are tested: attribute selectors
in terms of the text found, positional selectors in terms of the formula and the siblings that count. -/
namespace SelectorEngine

variable {ν : Type}

def AttributeTest.Finds (test : AttributeTest) (tree : TreeView ν) (node : ν)
    (condition : List Char → Prop) : Prop :=
  ∃ found, tree.attributeValue node test.name = some found ∧
    condition (AttributeTest.fold test.ignoresCase found).toList

/-- The attribute of the node is as the selector wants it. An empty value never starts, ends or is part
of an attribute value here, and one with a blank in it is never a word. -/
def AttributeSelector.Holds (basis : Basis ν) (selector : AttributeSelector) (node : ν) : Prop :=
  let test := AttributeTest.ofSelector selector basis.flags
  let value := test.value.toList
  match selector.action with
  | .present => basis.tree.hasAttribute node test.name = true
  | .equals => test.Finds basis.tree node (· = value)
  | .not =>
    if value = [] then ∃ found, basis.tree.attributeValue node test.name = some found ∧ found ≠ ""
    else ¬ test.Finds basis.tree node (· = value)
  | .hyphen => test.Finds basis.tree node fun found => found = value ∨ value ++ ['-'] <+: found
  | .element => value ≠ [] ∧ (∀ character ∈ value, Text.isBlank character = false) ∧
    test.Finds basis.tree node (value ∈ Text.words ·)
  | .start => value ≠ [] ∧ test.Finds basis.tree node (value <+: ·)
  | .end => value ≠ [] ∧ test.Finds basis.tree node (value <:+ ·)
  | .any => value ≠ [] ∧ test.Finds basis.tree node (value <:+: ·)

theorem Text.startsWith_iff (piece whole : String) :
    Text.startsWith piece whole = true ↔ piece.toList <+: whole.toList := by
  rw [Text.startsWith, Option.isSome_iff_exists]
  constructor
  · intro known
    obtain ⟨rest, found⟩ := known
    exact ⟨rest, ((Text.afterStart_some_iff _ _ _).mp found).symm⟩
  · intro known
    obtain ⟨rest, split⟩ := known
    exact ⟨rest, (Text.afterStart_some_iff _ _ _).mpr split.symm⟩

theorem Text.contains_iff (piece whole : String) :
    Text.contains piece whole = true ↔ piece.toList <:+: whole.toList := by
  rw [Text.contains, Text.occursIn_iff]
  constructor
  · intro known
    obtain ⟨before, after, split⟩ := known
    exact ⟨before, after, split.symm⟩
  · intro known
    obtain ⟨before, after, split⟩ := known
    exact ⟨before, after, split.symm⟩

theorem AttributeTest.startsHyphened_iff (value found : String) :
    AttributeTest.startsHyphened value found = true ↔
      found.toList = value.toList ∨ value.toList ++ ['-'] <+: found.toList := by
  unfold AttributeTest.startsHyphened
  split
  · next exact =>
    have same := (Text.afterStart_some_iff _ _ _).mp exact
    rw [List.append_nil] at same
    simp [same]
  · next next rest starts =>
    have split := (Text.afterStart_some_iff _ _ _).mp starts
    rw [split, beq_iff_eq]
    constructor
    · intro same
      subst same
      exact .inr ⟨rest, by simp⟩
    · intro either
      rcases either with whole | ⟨further, whole⟩
      · exact absurd whole (by simp)
      · rw [List.append_assoc, List.append_cancel_left_eq] at whole
        exact (List.cons.inj whole).1.symm
  · next none =>
    have never (rest : List Char) : found.toList ≠ value.toList ++ rest := by
      intro split
      rw [← Text.afterStart_some_iff, none] at split
      cases split
    constructor
    · intro impossible
      cases impossible
    · intro either
      rcases either with whole | ⟨further, whole⟩
      · exact absurd (whole.trans (List.append_nil _).symm) (never [])
      · rw [List.append_assoc] at whole
        exact absurd whole.symm (never _)

private theorem any_iff_finds (test : AttributeTest) (tree : TreeView ν) (node : ν)
    (action : AttributeAction) (condition : List Char → Prop)
    (agrees : ∀ found, AttributeTest.relates action test.value found = true ↔
      condition found.toList) :
    ((tree.attributeValue node test.name).any fun found =>
      AttributeTest.relates action test.value (AttributeTest.fold test.ignoresCase found)) = true ↔
        test.Finds tree node condition := by
  simp only [Option.any_eq_true, agrees, AttributeTest.Finds]

private theorem isEmpty_eq_false_iff (text : String) :
    text.isEmpty = false ↔ text.toList ≠ [] := by
  rw [ne_eq, String.toList_eq_nil_iff, ← String.isEmpty_iff, Bool.not_eq_true]

theorem AttributeSelector.holds_iff (basis : Basis ν) (selector : AttributeSelector) (node : ν) :
    selector.Holds basis node ↔
      (AttributeTest.ofSelector selector basis.flags).neverPasses = false ∧
        (AttributeTest.ofSelector selector basis.flags).passes basis.tree node = true := by
  have action : (AttributeTest.ofSelector selector basis.flags).action = selector.action := rfl
  unfold AttributeSelector.Holds
  generalize AttributeTest.ofSelector selector basis.flags = test at action ⊢
  cases wanted : selector.action <;> rw [wanted] at action <;>
    simp only [AttributeTest.neverPasses, AttributeTest.passes, action, true_and]
  case any =>
    rw [isEmpty_eq_false_iff, any_iff_finds test basis.tree node .any _ (Text.contains_iff test.value)]
  case element =>
    have word (found : String) : ((Text.words found.toList).any (· == test.value.toList)) = true ↔
        test.value.toList ∈ Text.words found.toList := by
      simp only [List.any_eq_true, beq_iff_eq, exists_eq_right]
    rw [Bool.or_eq_false_iff, isEmpty_eq_false_iff, List.any_eq_false,
      any_iff_finds test basis.tree node .element (test.value.toList ∈ Text.words ·) word]
    simp only [Bool.not_eq_true, and_assoc]
  case «end» =>
    have ends (found : String) : Text.endsWith test.value found = true ↔
        test.value.toList <:+ found.toList := List.isSuffixOf_iff_suffix
    rw [isEmpty_eq_false_iff, any_iff_finds test basis.tree node .end _ ends]
  case equals =>
    have equal (found : String) : (found == test.value) = true ↔ found.toList = test.value.toList := by
      rw [beq_iff_eq, String.toList_inj]
    exact (any_iff_finds test basis.tree node .equals (· = test.value.toList) equal).symm
  case hyphen =>
    exact (any_iff_finds test basis.tree node .hyphen
      (fun found => found = test.value.toList ∨ test.value.toList ++ ['-'] <+: found)
      (AttributeTest.startsHyphened_iff test.value)).symm
  case not =>
    by_cases empty : test.value = ""
    · simp [empty, Option.any_eq_true, String.isEmpty_iff]
    · have filled : test.value.isEmpty = false := by
        rw [isEmpty_eq_false_iff, ne_eq, String.toList_eq_nil_iff]
        exact empty
      rw [if_neg (mt String.toList_eq_nil_iff.mp empty), filled, if_neg Bool.false_ne_true,
        Option.all_eq_true]
      simp only [AttributeTest.Finds, AttributeTest.relates, bne_iff_ne, ne_eq, not_exists, not_and,
        String.toList_inj]
  case start =>
    rw [isEmpty_eq_false_iff, any_iff_finds test basis.tree node .start _ (Text.startsWith_iff test.value)]

namespace Formula

def Selects (formula : Formula) (index : Nat) : Prop :=
  ∃ count : Nat, (index : Int) + 1 = formula.step * count + formula.offset

variable {formula : Formula} {index : Nat}

private theorem selects_of_dvd {count : Int} (forward : 0 ≤ count)
    (reached : (index : Int) - (formula.offset - 1) = formula.step * count) :
    formula.Selects index := by
  refine ⟨count.toNat, ?_⟩
  rw [Int.toNat_of_nonneg forward]
  omega

private theorem onGrid_iff (offset step : Int) :
    ((index : Int).tmod step.natAbs == offset % step.natAbs) = true ↔ step ∣ index - offset := by
  rw [beq_iff_eq, Int.tmod_eq_emod_of_nonneg (Int.natCast_nonneg index),
    Int.emod_eq_emod_iff_emod_sub_eq_zero, ← Int.dvd_iff_emod_eq_zero, Int.natAbs_dvd]

private theorem selects_forward (forward : 0 < formula.step) :
    formula.Selects index ↔ formula.offset - 1 ≤ index ∧ formula.step ∣ index - (formula.offset - 1) := by
  constructor
  · intro known
    obtain ⟨count, reached⟩ := known
    have steps : 0 ≤ formula.step * count :=
      Int.mul_nonneg (Int.le_of_lt forward) (Int.natCast_nonneg count)
    exact ⟨by omega, count, by omega⟩
  · intro known
    obtain ⟨reaches, count, reached⟩ := known
    have steps : 0 ≤ formula.step * count := by omega
    exact selects_of_dvd (Int.nonneg_of_mul_nonneg_right steps forward) reached

private theorem selects_backward (backward : formula.step < 0) :
    formula.Selects index ↔ index ≤ formula.offset - 1 ∧ formula.step ∣ index - (formula.offset - 1) := by
  constructor
  · intro known
    obtain ⟨count, reached⟩ := known
    have steps : formula.step * count ≤ 0 :=
      Int.mul_nonpos_of_nonpos_of_nonneg (Int.le_of_lt backward) (Int.natCast_nonneg count)
    exact ⟨by omega, count, by omega⟩
  · intro known
    obtain ⟨reaches, count, reached⟩ := known
    have steps : formula.step * count ≤ 0 := by omega
    exact selects_of_dvd (Int.nonneg_of_mul_nonpos_right steps backward) reached

theorem contains_positions_iff (matters : ¬ (formula.step = 1 ∧ formula.offset ≤ 0)) :
    formula.positions.contains index = true ↔ formula.Selects index := by
  have notAll : ¬ (formula.step = 1 ∧ formula.offset - 1 < 0) := by omega
  unfold positions
  dsimp only
  by_cases never : formula.offset - 1 < 0 ∧ formula.step ≤ 0
  · rw [if_pos never]
    refine ⟨fun impossible => (Bool.false_ne_true impossible).elim, ?_⟩
    intro known
    obtain ⟨count, reached⟩ := known
    have steps : formula.step * count ≤ 0 :=
      Int.mul_nonpos_of_nonpos_of_nonneg never.2 (Int.natCast_nonneg count)
    omega
  · rw [if_neg never, if_neg notAll, Positions.contains]
    by_cases still : formula.step = 0
    · rw [if_pos still, beq_iff_eq, Selects, still]
      simp only [Int.zero_mul, Int.zero_add, exists_const]
      omega
    · rw [if_neg still]
      by_cases onward : formula.step = 1
      · rw [if_pos onward, decide_eq_true_iff, selects_forward (by omega), onward]
        exact (and_iff_left (Int.one_dvd _)).symm
      · rw [if_neg onward]
        by_cases back : formula.step = -1
        · rw [if_pos back, decide_eq_true_iff, selects_backward (by omega), back]
          exact (and_iff_left (Int.neg_dvd.mpr (Int.one_dvd _))).symm
        · rw [if_neg back]
          by_cases forward : formula.step > 1
          · rw [if_pos forward, Bool.and_eq_true, decide_eq_true_iff, onGrid_iff,
              selects_forward (by omega)]
          · rw [if_neg forward, Bool.and_eq_true, decide_eq_true_iff, onGrid_iff,
              selects_backward (by omega)]

private theorem positions_eq_all_iff :
    formula.positions = .all ↔ formula.step = 1 ∧ formula.offset ≤ 0 := by
  unfold positions
  dsimp only
  split
  · next never => exact ⟨fun impossible => (by cases impossible), by omega⟩
  · split
    · next all => exact ⟨fun _ => by omega, fun _ => rfl⟩
    · next some => exact ⟨fun impossible => (by cases impossible), by omega⟩

theorem selects_of_all (all : formula.step = 1 ∧ formula.offset ≤ 0) (index : Nat) :
    formula.Selects index := by
  have ahead : 0 ≤ (index : Int) - (formula.offset - 1) := by omega
  exact selects_of_dvd ahead (by rw [all.1, Int.one_mul])

/-- Among the positions that exist, the ones tested as selected are the ones selected. -/
theorem contains_positions_iff_selects (formula : Formula) (index : Nat) :
    formula.positions.contains index = true ↔ formula.Selects index := by
  by_cases all : formula.step = 1 ∧ formula.offset ≤ 0
  · rw [positions_eq_all_iff.mpr all]
    exact iff_of_true rfl (selects_of_all all index)
  · exact contains_positions_iff all

end Formula

/-- The node stands at a position that the formula selects. The formula `n`, and what is like it,
only wants an element above the node. -/
def Counting.Holds (counting : Counting) (basis : Basis ν) (formula : String) (node : ν) : Prop :=
  ∃ read, Formula.read? formula = some read ∧
    if read.step = 1 ∧ read.offset ≤ 0 then (basis.tree.elementParent node).isSome = true
    else read.Selects (counting.position basis node)

theorem Counting.holds_iff (counting : Counting) (basis : Basis ν) (formula : String) (node : ν) :
    counting.Holds basis formula node ↔
      match (Formula.read? formula).map Formula.positions with
      | none => False
      | some .all => (basis.tree.elementParent node).isSome = true
      | some positions => positions.contains (counting.position basis node) = true := by
  unfold Counting.Holds
  cases Formula.read? formula with
  | none => simp
  | some read =>
    by_cases all : read.step = 1 ∧ read.offset ≤ 0
    · have positions : read.positions = .all := Formula.positions_eq_all_iff.mpr all
      simp [positions, all]
    · rw [Option.map_some]
      simp only [Option.some.injEq, exists_eq_left', if_neg all, ← Formula.contains_positions_iff all]
      split
      · next impossible => cases impossible
      · next isAll => exact absurd (Formula.positions_eq_all_iff.mp (Option.some.inj isAll)) all
      · next isThis => rw [Option.some.inj isThis]

end SelectorEngine
