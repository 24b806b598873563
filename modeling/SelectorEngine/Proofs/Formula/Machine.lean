import Mathlib.Algebra.Ring.Int.Defs
import Mathlib.Data.Option.Basic
import SelectorEngine.Formula

/-! Formulas in signed numbers of 64 bits. Every operation gives nothing where its result does not fit or
its divisor is zero, so where there is a result nothing overflowed on the way, and the result is the
one over unbounded integers. -/
namespace SelectorEngine
namespace Machine

/-- The machine number of this value, if there is one. -/
def fit? (value : Int) : Option Int64 :=
  if -2 ^ 63 ≤ value ∧ value < 2 ^ 63 then some (Int64.ofInt value) else none

def add? (left right : Int64) : Option Int64 := fit? (left.toInt + right.toInt)

def subtract? (left right : Int64) : Option Int64 := fit? (left.toInt - right.toInt)

def multiply? (left right : Int64) : Option Int64 := fit? (left.toInt * right.toInt)

def absolute? (number : Int64) : Option Int64 := fit? number.toInt.natAbs

/-- The remainder of a division that rounds towards zero. The quotient has to fit as well. -/
def remainder? (dividend divisor : Int64) : Option Int64 :=
  if divisor = 0 then none
  else do
    let _ ← fit? (dividend.toInt.tdiv divisor.toInt)
    fit? (dividend.toInt.tmod divisor.toInt)

/-- The remainder that is never negative. -/
def positiveRemainder? (dividend divisor : Int64) : Option Int64 :=
  if divisor = 0 then none
  else do
    let _ ← fit? (dividend.toInt.tdiv divisor.toInt)
    fit? (dividend.toInt % divisor.toInt)

def digitNumber (digit : Char) : Int64 := Int64.ofNat (digit.toNat - '0'.toNat)

def countDigit? (value : Int64) (digit : Char) : Option Int64 := do
  add? (← multiply? value 10) (digitNumber digit)

def digitsValue? (digits : List Char) : Option Int64 := digits.foldlM countDigit? 0

def takeSign : List Char → Int64 × List Char
  | '-' :: rest => (-1, rest)
  | '+' :: rest => (1, rest)
  | rest => (1, rest)

def takeNumber? (characters : List Char) : Option (Option Int64 × List Char) :=
  let digits := characters.takeWhile Formula.isDigit
  let rest := characters.dropWhile Formula.isDigit
  if digits.isEmpty then some (none, rest)
  else do return (some (← digitsValue? digits), rest)

def readOffset? (characters : List Char) : Option Int64 :=
  match characters.dropWhile Formula.isGap with
  | [] => multiply? 0 0
  | rest => do
    let (sign, rest) := takeSign rest
    let (number, rest) ← takeNumber? (rest.dropWhile Formula.isGap)
    let value ← number
    if rest.isEmpty then multiply? sign value else none

/-- A formula in machine numbers. -/
structure Coefficients where
  step : Int64
  offset : Int64
deriving DecidableEq, Repr

def readPlain? (characters : List Char) : Option Coefficients :=
  if characters = "even".toList then some ⟨2, 0⟩
  else if characters = "odd".toList then some ⟨2, 1⟩
  else do
    let (sign, rest) := takeSign characters
    let (number, rest) ← takeNumber? rest
    match rest with
    | 'n' :: rest => return ⟨← multiply? sign (number.getD 1), ← readOffset? rest⟩
    | [] => return ⟨0, ← multiply? sign (← number)⟩
    | _ => none

def read? (text : String) : Option Coefficients :=
  readPlain? ((Text.trim text.toList).map Char.toLower)

/-- The positions selected, in machine numbers. -/
inductive Check where
  | all
  | none
  | progression (step offset : Int64)
deriving DecidableEq, Repr

def Coefficients.check? (coefficients : Coefficients) : Option Check := do
  let offset ← subtract? coefficients.offset 1
  if offset < 0 ∧ coefficients.step ≤ 0 then return .none
  else if coefficients.step = 1 ∧ offset < 0 then return .all
  else return .progression coefficients.step offset

def compile? (text : String) : Option Check := do (← read? text).check?

/-- Whether a position that has been reached is a whole number of steps away from the offset. Only then
is the position divided. -/
def onGrid? (reached : Bool) (step offset index : Int64) : Option Bool := do
  let width ← absolute? step
  let rest ← positiveRemainder? offset width
  if reached then return (← remainder? index width) == rest else return false

/-- Whether the position is selected; nothing where the test itself would overflow. -/
def Check.contains? (index : Int64) : Check → Option Bool
  | .all => some true
  | .none => some false
  | .progression step offset =>
    if step = -1 then some (index ≤ offset)
    else if step = 0 then some (index == offset)
    else if step = 1 then some (offset ≤ index)
    else if step > 1 then onGrid? (offset ≤ index) step offset index
    else onGrid? (index ≤ offset) step offset index

/-- The check over unbounded integers. -/
def Check.exact : Check → Positions
  | .all => .all
  | .none => .none
  | .progression step offset => .progression step.toInt offset.toInt

theorem fit?_eq_some_iff {value : Int} {number : Int64} :
    fit? value = some number ↔ number.toInt = value := by
  unfold fit?
  split
  · next inside =>
    have exact := Int64.toInt_ofInt_of_le inside.1 inside.2
    rw [Option.some_inj, ← Int64.toInt_inj, exact]
    exact eq_comm
  · next outside =>
    constructor
    · intro impossible
      cases impossible
    · rintro rfl
      exact absurd ⟨number.le_toInt, number.toInt_lt⟩ outside

theorem exists_fit (value : Int) (low : -2 ^ 63 ≤ value) (high : value < 2 ^ 63) :
    ∃ number, fit? value = some number ∧ number.toInt = value :=
  ⟨Int64.ofInt value, if_pos ⟨low, high⟩, Int64.toInt_ofInt_of_le low high⟩

theorem fit?_eq_none {value : Int} (outside : ¬ (-2 ^ 63 ≤ value ∧ value < 2 ^ 63)) :
    fit? value = none := if_neg outside

section

variable (dividend : Int64) {divisor : Int64}

private theorem exists_quotient (large : 1 < divisor.toInt) :
    ∃ quotient, fit? (dividend.toInt.tdiv divisor.toInt) = some quotient := by
  have low := dividend.le_toInt
  have high := dividend.toInt_lt
  have size : (dividend.toInt.tdiv divisor.toInt).natAbs ≤ dividend.toInt.natAbs / 2 := by
    rw [Int.natAbs_tdiv]
    exact Nat.div_le_div_left (by omega) (by omega)
  obtain ⟨quotient, fits, _⟩ := exists_fit (dividend.toInt.tdiv divisor.toInt)
    (by omega) (by omega)
  exact ⟨quotient, fits⟩

/-- Dividing by a number above one never overflows. -/
theorem exists_remainder (large : 1 < divisor.toInt) :
    ∃ rest, remainder? dividend divisor = some rest ∧
      rest.toInt = dividend.toInt.tmod divisor.toInt := by
  have nonzero : divisor ≠ 0 := by
    rintro rfl
    exact absurd large (by decide)
  have high := divisor.toInt_lt
  have size := Int.natAbs_tmod dividend.toInt divisor.toInt
  have below : dividend.toInt.natAbs % divisor.toInt.natAbs < divisor.toInt.natAbs :=
    Nat.mod_lt _ (by omega)
  obtain ⟨quotient, quotientFits⟩ := exists_quotient dividend large
  obtain ⟨rest, fits, exact⟩ := exists_fit (dividend.toInt.tmod divisor.toInt)
    (by omega) (by omega)
  refine ⟨rest, ?_, exact⟩
  rw [remainder?, if_neg nonzero, quotientFits, Option.bind_eq_bind, Option.bind_some, fits]

theorem exists_positiveRemainder (large : 1 < divisor.toInt) :
    ∃ rest, positiveRemainder? dividend divisor = some rest ∧
      rest.toInt = dividend.toInt % divisor.toInt := by
  have nonzero : divisor ≠ 0 := by
    rintro rfl
    exact absurd large (by decide)
  have high := divisor.toInt_lt
  have reaches : 0 ≤ dividend.toInt % divisor.toInt := Int.emod_nonneg _ (by omega)
  have below : dividend.toInt % divisor.toInt < divisor.toInt := Int.emod_lt_of_pos _ (by omega)
  obtain ⟨quotient, quotientFits⟩ := exists_quotient dividend large
  obtain ⟨rest, fits, exact⟩ := exists_fit (dividend.toInt % divisor.toInt)
    (by omega) (by omega)
  refine ⟨rest, ?_, exact⟩
  rw [positiveRemainder?, if_neg nonzero, quotientFits, Option.bind_eq_bind, Option.bind_some, fits]

end

/-- The machine number has this value. In formulas it is never the least one, whose negative and
whose predecessor do not fit. -/
def Carries (number : Int64) (value : Int) : Prop := number.toInt = value ∧ -2 ^ 63 < value

/-- Both readings of a formula give the same result, or none does. -/
def Coefficients.Carry (coefficients : Coefficients) (formula : Formula) : Prop :=
  Carries coefficients.step formula.step ∧ Carries coefficients.offset formula.offset

theorem rel_bind {α β γ δ : Type} {before : α → β → Prop} {after : γ → δ → Prop}
    {left : Option α} {right : Option β} {leftNext : α → Option γ} {rightNext : β → Option δ}
    (first : Option.Rel before left right)
    (next : ∀ ours theirs, before ours theirs →
      Option.Rel after (leftNext ours) (rightNext theirs)) :
    Option.Rel after (left >>= leftNext) (right >>= rightNext) := by
  cases first with
  | some known => exact next _ _ known
  | none => exact .none

/-- A number counted in digits, after a sign. -/
theorem exists_signed {sign number : Int64} {factor : Int} {value : Nat}
    (signed : sign.toInt = factor ∧ (factor = 1 ∨ factor = -1)) (counted : number.toInt = value) :
    ∃ product, multiply? sign number = some product ∧ Carries product (factor * value) := by
  have high := number.toInt_lt
  rw [multiply?, signed.1, counted]
  have bounds : -2 ^ 63 < factor * value ∧ factor * value < 2 ^ 63 := by
    rcases signed.2 with rfl | rfl <;> omega
  obtain ⟨product, fits, exact⟩ := exists_fit (factor * value) (Int.le_of_lt bounds.1) bounds.2
  exact ⟨product, fits, exact, bounds.1⟩

/-- The value of the digits so far only grows with further digits. -/
private theorem le_foldl_digits (digits : List Char) (value : Nat) :
    value ≤ digits.foldl (fun value digit => value * 10 + (digit.toNat - '0'.toNat)) value := by
  induction digits generalizing value with
  | nil => exact Nat.le_refl value
  | cons digit digits ih =>
    have grown : value ≤ value * 10 + (digit.toNat - '0'.toNat) := by omega
    exact Nat.le_trans grown (ih _)

theorem toInt_digitNumber {digit : Char} (isDigit : Formula.isDigit digit = true) :
    (digitNumber digit).toInt = (digit.toNat - '0'.toNat : Nat) := by
  have range : digit.toNat ≤ 57 := by
    rw [Formula.isDigit, Bool.and_eq_true, decide_eq_true_iff, decide_eq_true_iff] at isDigit
    exact isDigit.2
  exact Int64.toInt_ofNat_of_lt (by omega)

theorem countDigit?_eq {number : Int64} {value : Nat} (counted : number.toInt = value) {digit : Char}
    (isDigit : Formula.isDigit digit = true) :
    countDigit? number digit = fit? (value * 10 + (digit.toNat - '0'.toNat) : Nat) := by
  have digitValue := toInt_digitNumber isDigit
  have ten : (10 : Int64).toInt = 10 := by decide
  rw [countDigit?, multiply?, counted, ten]
  cases scaledFits : fit? ((value : Int) * 10) with
  | some scaled =>
    rw [Option.bind_eq_bind, Option.bind_some, add?, fit?_eq_some_iff.mp scaledFits, digitValue]
    congr 1
  | none =>
    -- already the tenfold value does not fit
    have tooLarge : ¬ ((value : Int) * 10 < 2 ^ 63) := by
      intro small
      obtain ⟨scaled, fits, _⟩ := exists_fit ((value : Int) * 10) (by omega) small
      rw [scaledFits] at fits
      cases fits
    exact (fit?_eq_none (by omega)).symm

private theorem foldlM_countDigit? {digits : List Char}
    (areDigits : ∀ digit ∈ digits, Formula.isDigit digit = true) {number : Int64} {value : Nat}
    (counted : number.toInt = value) :
    digits.foldlM countDigit? number =
      fit? (digits.foldl (fun value digit => value * 10 + (digit.toNat - '0'.toNat)) value : Nat) := by
  induction digits generalizing number value with
  | nil => exact (fit?_eq_some_iff.mpr counted).symm
  | cons digit digits ih =>
    have restDigits : ∀ digit ∈ digits, Formula.isDigit digit = true :=
      fun digit member => areDigits digit (List.mem_cons_of_mem _ member)
    rw [List.foldlM_cons, List.foldl_cons, countDigit?_eq counted (areDigits digit List.mem_cons_self)]
    cases fits : fit? (value * 10 + (digit.toNat - '0'.toNat) : Nat) with
    | some sum => exact ih restDigits (fit?_eq_some_iff.mp fits)
    | none =>
      have tooLarge : ¬ (value * 10 + (digit.toNat - '0'.toNat) < 2 ^ 63) := by
        intro small
        obtain ⟨sum, sumFits, _⟩ :=
          exists_fit (value * 10 + (digit.toNat - '0'.toNat) : Nat) (by omega) (by omega)
        rw [fits] at sumFits
        cases sumFits
      have grown := le_foldl_digits digits (value * 10 + (digit.toNat - '0'.toNat))
      exact (fit?_eq_none (by omega)).symm

/-- Reading digit by digit overflows at some digit exactly where the number does not fit. -/
theorem digitsValue?_eq {digits : List Char}
    (areDigits : ∀ digit ∈ digits, Formula.isDigit digit = true) :
    digitsValue? digits = fit? (Formula.digitsValue digits) :=
  foldlM_countDigit? areDigits (by decide)

theorem takeSign_carries (characters : List Char) :
    ((takeSign characters).1.toInt = (Formula.takeSign characters).1 ∧
      ((Formula.takeSign characters).1 = 1 ∨ (Formula.takeSign characters).1 = -1)) ∧
      (takeSign characters).2 = (Formula.takeSign characters).2 := by
  have minus : (-1 : Int64).toInt = -1 := by decide
  have plus : (1 : Int64).toInt = 1 := by decide
  rcases characters with _ | ⟨first, rest⟩
  · exact ⟨⟨plus, .inl rfl⟩, rfl⟩
  by_cases isMinus : first = '-'
  · subst isMinus
    exact ⟨⟨minus, .inr rfl⟩, rfl⟩
  by_cases isPlus : first = '+'
  · subst isPlus
    exact ⟨⟨plus, .inl rfl⟩, rfl⟩
  simp [takeSign, Formula.takeSign, isMinus, isPlus, plus]

/-- What both readings make of the digits at the start. -/
def CarryNumber (ours : Option Int64 × List Char) (theirs : Option Nat × List Char) : Prop :=
  Option.Rel (fun (number : Int64) (value : Nat) => number.toInt = value) ours.1 theirs.1 ∧
    ours.2 = theirs.2

theorem takeNumber?_carries (characters : List Char) :
    Option.Rel CarryNumber (takeNumber? characters) (Formula.takeNumber? characters) := by
  have areDigits : ∀ digit ∈ characters.takeWhile Formula.isDigit, Formula.isDigit digit = true :=
    List.all_eq_true.mp List.all_takeWhile
  unfold takeNumber? Formula.takeNumber?
  dsimp only
  rw [digitsValue?_eq areDigits]
  by_cases empty : (characters.takeWhile Formula.isDigit).isEmpty = true
  · rw [if_pos empty, if_pos empty]
    exact .some ⟨.none, rfl⟩
  · rw [if_neg empty, if_neg empty]
    by_cases fits : Formula.digitsValue (characters.takeWhile Formula.isDigit) < Formula.numberBound
    · have bound : Formula.digitsValue (characters.takeWhile Formula.isDigit) < 2 ^ 63 := fits
      obtain ⟨number, numberFits, exact⟩ := exists_fit
        (Formula.digitsValue (characters.takeWhile Formula.isDigit))
        (by omega) (by omega)
      rw [if_pos fits, numberFits]
      exact .some ⟨.some exact, rfl⟩
    · have bound : ¬ Formula.digitsValue (characters.takeWhile Formula.isDigit) < 2 ^ 63 := fits
      rw [if_neg fits, fit?_eq_none (by omega)]
      exact .none

theorem readOffset?_carries (characters : List Char) :
    Option.Rel Carries (readOffset? characters) (Formula.readOffset? characters) := by
  unfold readOffset? Formula.readOffset?
  cases characters.dropWhile Formula.isGap with
  | nil => exact .some ⟨by decide, by decide⟩
  | cons first rest =>
    obtain ⟨signed, restAlike⟩ := takeSign_carries (first :: rest)
    dsimp only
    rw [restAlike]
    apply rel_bind (takeNumber?_carries _)
    intro ours theirs carried
    obtain ⟨numbers, restsAlike⟩ := carried
    rw [restsAlike]
    apply rel_bind numbers
    intro number value counted
    by_cases done : theirs.2.isEmpty = true
    · rw [if_pos done, if_pos done]
      obtain ⟨product, multiplied, carries⟩ := exists_signed signed counted
      rw [multiplied]
      exact .some carries
    · rw [if_neg done, if_neg done]
      exact .none

theorem readPlain?_carries (characters : List Char) :
    Option.Rel Coefficients.Carry (readPlain? characters) (Formula.readPlain? characters) := by
  have zero : Carries 0 0 := ⟨by decide, by decide⟩
  have one : Carries 1 1 := ⟨by decide, by decide⟩
  have two : Carries 2 2 := ⟨by decide, by decide⟩
  unfold readPlain? Formula.readPlain?
  by_cases even : characters = "even".toList
  · rw [if_pos even, if_pos even]
    exact .some ⟨two, zero⟩
  rw [if_neg even, if_neg even]
  by_cases odd : characters = "odd".toList
  · rw [if_pos odd, if_pos odd]
    exact .some ⟨two, one⟩
  rw [if_neg odd, if_neg odd]
  obtain ⟨signed, restAlike⟩ := takeSign_carries characters
  dsimp only
  rw [restAlike]
  apply rel_bind (takeNumber?_carries _)
  intro ours theirs carried
  obtain ⟨number, rest⟩ := ours
  obtain ⟨value, restSame⟩ := theirs
  obtain ⟨numbers, rfl⟩ : Option.Rel _ number value ∧ rest = restSame := carried
  dsimp only
  rcases rest with _ | ⟨first, after⟩
  · apply rel_bind numbers
    intro number value counted
    obtain ⟨product, multiplied, carries⟩ := exists_signed signed counted
    rw [multiplied]
    exact .some ⟨zero, carries⟩
  by_cases isStep : first = 'n'
  · subst isStep
    have counted : (number.getD 1).toInt = (value.getD 1 : Nat) := by
      cases numbers with
      | some known => exact known
      | none => decide
    obtain ⟨product, multiplied, carries⟩ := exists_signed signed counted
    rw [multiplied]
    apply rel_bind (readOffset?_carries after)
    intro offset offsetValue carriesOffset
    exact .some ⟨carries, carriesOffset⟩
  · simp [isStep]

/-- Reading in machine numbers is reading: it accepts the same texts as the same formulas. -/
theorem read?_carries (text : String) :
    Option.Rel Coefficients.Carry (read? text) (Formula.read? text) := readPlain?_carries _

/-- A check whose step has a size that fits. -/
def Check.HasWidth : Check → Prop
  | .progression step _ => -2 ^ 63 < step.toInt
  | _ => True

/-- The offset of a formula that was read has a predecessor. -/
theorem Coefficients.Carry.exists_check {coefficients : Coefficients} {formula : Formula}
    (carry : coefficients.Carry formula) :
    ∃ check, coefficients.check? = some check ∧ check.exact = formula.positions ∧ check.HasWidth := by
  obtain ⟨⟨stepSame, stepLow⟩, offsetSame, offsetLow⟩ := carry
  have offsetHigh := coefficients.offset.toInt_lt
  have one : (1 : Int64).toInt = 1 := by decide
  have zero : (0 : Int64).toInt = 0 := by decide
  obtain ⟨offset, offsetFits, offsetValue⟩ := exists_fit (formula.offset - 1)
    (by omega) (by omega)
  have lowered : subtract? coefficients.offset 1 = some offset := by
    rw [subtract?, offsetSame, one, offsetFits]
  have stepIsOne : coefficients.step = 1 ↔ formula.step = 1 := by
    rw [← Int64.toInt_inj, stepSame, one]
  have negative : offset < 0 ↔ formula.offset - 1 < 0 := by
    rw [Int64.lt_iff_toInt_lt, offsetValue, zero]
  have backward : coefficients.step ≤ 0 ↔ formula.step ≤ 0 := by
    rw [Int64.le_iff_toInt_le, stepSame, zero]
  unfold Coefficients.check? Formula.positions
  rw [lowered, Option.bind_eq_bind, Option.bind_some]
  simp only [stepIsOne, negative, backward]
  by_cases never : formula.offset - 1 < 0 ∧ formula.step ≤ 0
  · rw [if_pos never, if_pos never]
    exact ⟨.none, rfl, rfl, trivial⟩
  rw [if_neg never, if_neg never]
  by_cases all : formula.step = 1 ∧ formula.offset - 1 < 0
  · rw [if_pos all, if_pos all]
    exact ⟨.all, rfl, rfl, trivial⟩
  rw [if_neg all, if_neg all]
  have hasWidth : -2 ^ 63 < coefficients.step.toInt := by rw [stepSame]; exact stepLow
  refine ⟨.progression coefficients.step offset, rfl, ?_, hasWidth⟩
  rw [Check.exact, stepSame, offsetValue]

theorem onGrid?_eq (reached : Bool) {step : Int64} (low : -2 ^ 63 < step.toInt)
    (large : 1 < step.toInt.natAbs) (offset index : Int64) :
    onGrid? reached step offset index =
      some (reached && index.toInt.tmod step.toInt.natAbs == offset.toInt % step.toInt.natAbs) := by
  have high := step.toInt_lt
  obtain ⟨width, widthFits, widthValue⟩ := exists_fit step.toInt.natAbs
    (by omega) (by omega)
  have aboveOne : 1 < width.toInt := by omega
  obtain ⟨offsetRest, offsetFits, offsetValue⟩ :=
    exists_positiveRemainder offset aboveOne
  obtain ⟨indexRest, indexFits, indexValue⟩ := exists_remainder index aboveOne
  have grid : (indexRest == offsetRest) =
      (index.toInt.tmod step.toInt.natAbs == offset.toInt % step.toInt.natAbs) := by
    rw [Bool.eq_iff_iff, beq_iff_eq, beq_iff_eq, ← Int64.toInt_inj, indexValue, offsetValue,
      widthValue]
  rw [onGrid?, absolute?, widthFits, Option.bind_eq_bind, Option.bind_some, offsetFits,
    Option.bind_some, indexFits, ← grid]
  cases reached <;> rfl

/-- Testing a position never overflows and never divides by zero, and gives the exact answer. -/
theorem Check.contains?_eq {check : Check} (hasWidth : check.HasWidth) (index : Int64) :
    check.contains? index = some (check.exact.contains index.toInt) := by
  cases check with
  | all => rfl
  | none => rfl
  | progression step offset =>
    have one : (1 : Int64).toInt = 1 := by decide
    have zero : (0 : Int64).toInt = 0 := by decide
    have minusOne : (-1 : Int64).toInt = -1 := by decide
    have low : -2 ^ 63 < step.toInt := hasWidth
    unfold Check.contains? Check.exact Positions.contains
    simp only [← Int64.toInt_inj, Int64.le_iff_toInt_le, gt_iff_lt, Int64.lt_iff_toInt_lt, one, zero,
      minusOne]
    by_cases back : step.toInt = -1
    · rw [if_pos back, back]
      rfl
    rw [if_neg back, if_neg back]
    by_cases still : step.toInt = 0
    · rw [if_pos still, if_pos still, Option.some_inj, Bool.eq_iff_iff, beq_iff_eq, beq_iff_eq,
        Int64.toInt_inj]
    rw [if_neg still, if_neg still]
    by_cases onward : step.toInt = 1
    · rw [if_pos onward, if_pos onward]
    rw [if_neg onward, if_neg onward]
    have large : 1 < step.toInt.natAbs := by omega
    rw [onGrid?_eq _ low large, onGrid?_eq _ low large]
    split <;> rfl

end Machine
end SelectorEngine
