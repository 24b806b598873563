import SelectorEngine.Text

/-! Formulas `An+B` of the positional pseudo-classes: reading one, and testing positions against it.
A formula selects the positions `step * n + offset` with `n ≥ 0`, where counting starts at one.
Positions tested here start at zero, so the test keeps the offset less one. -/
namespace SelectorEngine

structure Formula where
  step : Int
  offset : Int
deriving DecidableEq, Repr

/-- The positions a formula selects; the offset of a progression counts from zero. -/
inductive Positions where
  | all
  | none
  | progression (step offset : Int)
deriving DecidableEq, Repr

namespace Positions

def contains (positions : Positions) (index : Int) : Bool :=
  match positions with
  | .all => true
  | .none => false
  | .progression step offset =>
    if step = 0 then index == offset
    else if step = 1 then offset ≤ index
    else if step = -1 then index ≤ offset
    else
      let onGrid := index.tmod step.natAbs == offset % step.natAbs
      if step > 1 then offset ≤ index && onGrid else index ≤ offset && onGrid

end Positions

namespace Formula

/-- What a formula selects, with the cases set apart where the position does not matter. -/
def positions (formula : Formula) : Positions :=
  let offset := formula.offset - 1
  if offset < 0 ∧ formula.step ≤ 0 then .none
  else if formula.step = 1 ∧ offset < 0 then .all
  else .progression formula.step offset

/-- A sign and what follows it; without one the sign is positive. -/
def takeSign : List Char → Int × List Char
  | '-' :: rest => (-1, rest)
  | '+' :: rest => (1, rest)
  | rest => (1, rest)

def isDigit (character : Char) : Bool := '0' ≤ character && character ≤ '9'

def digitsValue (digits : List Char) : Nat :=
  digits.foldl (fun value digit => value * 10 + (digit.toNat - '0'.toNat)) 0

/-- Numbers in a formula stay below this bound. -/
def numberBound : Nat := 9223372036854775808

/-- The digits at the start as a number, if there are any, and what follows them. Nothing when the
number is out of bounds. -/
def takeNumber? (characters : List Char) : Option (Option Nat × List Char) :=
  let digits := characters.takeWhile isDigit
  let rest := characters.dropWhile isDigit
  if digits.isEmpty then some (none, rest)
  else if digitsValue digits < numberBound then some (some (digitsValue digits), rest)
  else none

/-- The blank characters allowed around the sign of the offset. -/
def isGap (character : Char) : Bool :=
  character == '\t' || character == '\n' || character == '\x0c' || character == '\r' ||
    character == ' '

/-- Reads the offset that follows `n`; at the end of the formula it is zero. -/
def readOffset? (characters : List Char) : Option Int :=
  match characters.dropWhile isGap with
  | [] => some 0
  | rest => do
    let (sign, rest) := takeSign rest
    let (number, rest) ← takeNumber? (rest.dropWhile isGap)
    let value ← number
    if rest.isEmpty then some (sign * value) else none

/-- Reads a formula that is in lower case and has no blank characters around it. -/
def readPlain? (characters : List Char) : Option Formula :=
  if characters = "even".toList then some ⟨2, 0⟩
  else if characters = "odd".toList then some ⟨2, 1⟩
  else do
    let (sign, rest) := takeSign characters
    let (number, rest) ← takeNumber? rest
    match rest with
    | 'n' :: rest => return ⟨sign * number.getD 1, ← readOffset? rest⟩
    | [] => return ⟨0, sign * (← number)⟩
    | _ => none

/-- Reads `odd`, `even` or `An+B`. Surrounding blank characters and the case of letters do not
matter, and a missing sign before the offset counts as a plus. -/
def read? (text : String) : Option Formula :=
  readPlain? ((Text.trim text.toList).map Char.toLower)

end Formula
end SelectorEngine
