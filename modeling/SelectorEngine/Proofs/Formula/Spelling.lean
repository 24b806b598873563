import Mathlib.Data.Nat.Digits.Defs
import SelectorEngine.Formula
import SelectorEngine.Proofs.Text.Blank

/-! The ways a formula can be spelled, as syntax with a meaning of its own, and that each of them is read
as what it means. Numbers are digit strings below the bound for numbers; blank characters may stand
around the sign between the two parts, and around the whole. -/
namespace SelectorEngine
namespace Formula

open Text (StopsAt stopsAt_nil stopsAt_cons takeWhile_append_stop dropWhile_append_stop)

inductive Sign where
  | plus
  | minus
deriving DecidableEq, Repr

namespace Sign

def character : Sign → Char
  | plus => '+'
  | minus => '-'

def factor : Sign → Int
  | plus => 1
  | minus => -1

end Sign

/-- A sign may be left out where a part starts, and then counts as a plus. -/
def leadingText (sign : Option Sign) : List Char := (sign.map Sign.character).toList

def leadingFactor (sign : Option Sign) : Int := (sign.getD .plus).factor

/-- At least one digit, with a value within the bound for numbers. -/
structure Numeral where
  digits : List Char
  nonempty : digits ≠ []
  areDigits : ∀ digit ∈ digits, isDigit digit = true
  fits : Nat.ofDigits 10 (digits.reverse.map fun digit => digit.toNat - '0'.toNat) < numberBound

namespace Numeral

/-- The last digit is the one of least weight. -/
def value (numeral : Numeral) : Nat :=
  Nat.ofDigits 10 (numeral.digits.reverse.map fun digit => digit.toNat - '0'.toNat)

def textOf (numeral : Option Numeral) : List Char := (numeral.map digits).getD []

end Numeral

structure Gap where
  characters : List Char
  areGaps : ∀ character ∈ characters, isGap character = true

/-- Formulas as written in lower case: a keyword, a number, or a multiple of `n` that may be followed
by a signed number. -/
inductive Spelling where
  | even
  | odd
  | constant (sign : Option Sign) (number : Numeral)
  | multiples (sign : Option Sign) (factor : Option Numeral)
  | shifted (sign : Option Sign) (factor : Option Numeral) (before : Gap) (shiftSign : Sign)
      (after : Gap) (shift : Numeral)

namespace Spelling

def text : Spelling → List Char
  | even => ['e', 'v', 'e', 'n']
  | odd => ['o', 'd', 'd']
  | constant sign number => leadingText sign ++ number.digits
  | multiples sign factor => leadingText sign ++ (Numeral.textOf factor ++ ['n'])
  | shifted sign factor before shiftSign after shift =>
    leadingText sign ++ (Numeral.textOf factor ++
      ('n' :: (before.characters ++ (shiftSign.character :: (after.characters ++ shift.digits)))))

/-- The formula meant; `n` without a number before it is one `n`. -/
def meaning : Spelling → Formula
  | even => ⟨2, 0⟩
  | odd => ⟨2, 1⟩
  | constant sign number => ⟨0, leadingFactor sign * number.value⟩
  | multiples sign factor => ⟨leadingFactor sign * ((factor.map Numeral.value).getD 1 : Nat), 0⟩
  | shifted sign factor _ shiftSign _ shift =>
    ⟨leadingFactor sign * ((factor.map Numeral.value).getD 1 : Nat), shiftSign.factor * shift.value⟩

/-- The text is this spelling, up to blank characters around it and the case of ASCII letters. -/
def Writes (spelling : Spelling) (written : String) : Prop :=
  ∃ before core after, written.toList = before ++ (core ++ after) ∧
    (∀ character ∈ before, Text.isBlank character = true) ∧
    (∀ character ∈ after, Text.isBlank character = true) ∧
    core.map Char.toLower = spelling.text

end Spelling

theorem digitsValue_eq_ofDigits (digits : List Char) :
    digitsValue digits =
      Nat.ofDigits 10 (digits.reverse.map fun digit => digit.toNat - '0'.toNat) := by
  rw [Nat.ofDigits_eq_foldr, List.foldr_map, List.foldr_reverse, digitsValue]
  congr 1
  funext value digit
  exact (Nat.add_comm _ _).trans (congrArg _ (Nat.mul_comm _ _))

def isSign (character : Char) : Bool := character == '+' || character == '-'

theorem takeSign_character (sign : Sign) (rest : List Char) :
    takeSign (sign.character :: rest) = (sign.factor, rest) := by
  cases sign <;> rfl

theorem takeSign_leadingText (sign : Option Sign) {rest : List Char} (stops : StopsAt isSign rest) :
    takeSign (leadingText sign ++ rest) = (leadingFactor sign, rest) := by
  cases sign with
  | some sign => exact takeSign_character sign rest
  | none =>
    cases rest with
    | nil => rfl
    | cons first rest =>
      have other : first ≠ '+' ∧ first ≠ '-' := by
        have unsigned : isSign first = false := stops first rfl
        simpa [isSign] using unsigned
      change takeSign (first :: rest) = (1, first :: rest)
      unfold takeSign
      split
      · next same => exact absurd (List.cons.inj same).1 other.2
      · next same => exact absurd (List.cons.inj same).1 other.1
      · rfl

theorem Numeral.stopsAt (numeral : Numeral) {kind : Char → Bool} (rest : List Char)
    (apart : ∀ digit, isDigit digit = true → kind digit = false) :
    StopsAt kind (numeral.digits ++ rest) := by
  obtain ⟨first, others, split⟩ := List.exists_cons_of_ne_nil numeral.nonempty
  rw [split]
  exact stopsAt_cons (apart first (numeral.areDigits first (split ▸ List.mem_cons_self))) _

theorem takeNumber?_digits (numeral : Numeral) {rest : List Char} (stops : StopsAt isDigit rest) :
    takeNumber? (numeral.digits ++ rest) = some (some numeral.value, rest) := by
  have value : digitsValue numeral.digits = numeral.value := digitsValue_eq_ofDigits numeral.digits
  have fits : numeral.value < numberBound := numeral.fits
  unfold takeNumber?
  rw [takeWhile_append_stop numeral.areDigits stops, dropWhile_append_stop numeral.areDigits stops]
  dsimp only
  rw [if_neg (mt List.isEmpty_iff.mp numeral.nonempty), value, if_pos fits]

theorem takeNumber?_stops {rest : List Char} (stops : StopsAt isDigit rest) :
    takeNumber? rest = some (none, rest) := by
  have inside : ∀ character ∈ ([] : List Char), isDigit character = true :=
    fun _ impossible => nomatch impossible
  unfold takeNumber?
  rw [show rest = [] ++ rest from rfl, takeWhile_append_stop inside stops,
    dropWhile_append_stop inside stops]
  rfl

theorem takeNumber?_textOf (numeral : Option Numeral) {rest : List Char}
    (stops : StopsAt isDigit rest) :
    takeNumber? (Numeral.textOf numeral ++ rest) = some (numeral.map Numeral.value, rest) := by
  cases numeral with
  | none => exact takeNumber?_stops stops
  | some numeral => exact takeNumber?_digits numeral stops

theorem isSign_of_isDigit (digit : Char) (known : isDigit digit = true) : isSign digit = false := by
  have apart : isDigit '+' = false ∧ isDigit '-' = false := ⟨by decide, by decide⟩
  rw [isSign, Bool.or_eq_false_iff, beq_eq_false_iff_ne, beq_eq_false_iff_ne]
  constructor
  · intro same
    exact Bool.false_ne_true (apart.1.symm.trans (same ▸ known))
  · intro same
    exact Bool.false_ne_true (apart.2.symm.trans (same ▸ known))

theorem isGap_of_isDigit (digit : Char) (known : isDigit digit = true) : isGap digit = false := by
  have apart : ∀ gap ∈ ['\t', '\n', '\x0c', '\r', ' '], (!isDigit gap) = true :=
    List.all_eq_true.mp (by decide)
  refine Bool.eq_false_iff.mpr fun isGap => ?_
  have listed : digit ∈ ['\t', '\n', '\x0c', '\r', ' '] := by
    simpa [Formula.isGap, or_assoc] using isGap
  exact Bool.false_ne_true ((Bool.not_eq_true' _ |>.mp (apart digit listed)).symm.trans known)

theorem readOffset?_shift (before : Gap) (sign : Sign) (after : Gap) (shift : Numeral) :
    readOffset? (before.characters ++ (sign.character :: (after.characters ++ shift.digits))) =
      some (sign.factor * shift.value) := by
  have signStops : StopsAt isGap (sign.character :: (after.characters ++ shift.digits)) :=
    stopsAt_cons (by cases sign <;> decide) _
  have digitsStop : StopsAt isGap shift.digits := by
    have stops := shift.stopsAt [] isGap_of_isDigit
    rwa [List.append_nil] at stops
  have number : takeNumber? shift.digits = some (some shift.value, []) := by
    have taken := takeNumber?_digits shift (stopsAt_nil isDigit)
    rwa [List.append_nil] at taken
  unfold readOffset?
  rw [dropWhile_append_stop before.areGaps signStops]
  simp only [takeSign_character, dropWhile_append_stop after.areGaps digitsStop, number]
  rfl

/-- What a formula in parts starts with: a sign, a digit or `n`. -/
def StartsPlain (characters : List Char) : Prop :=
  ∃ first, characters.head? = some first ∧ (isSign first = true ∨ isDigit first = true ∨ first = 'n')

theorem startsPlain_leadingText (sign : Option Sign) {rest : List Char} (plain : StartsPlain rest) :
    StartsPlain (leadingText sign ++ rest) := by
  cases sign with
  | none => exact plain
  | some sign => exact ⟨sign.character, rfl, .inl (by cases sign <;> rfl)⟩

theorem Numeral.startsPlain (numeral : Numeral) (rest : List Char) :
    StartsPlain (numeral.digits ++ rest) := by
  obtain ⟨first, others, split⟩ := List.exists_cons_of_ne_nil numeral.nonempty
  exact ⟨first, by rw [split]; rfl, .inr (.inl (numeral.areDigits first (split ▸ List.mem_cons_self)))⟩

theorem startsPlain_textOf (numeral : Option Numeral) (rest : List Char) :
    StartsPlain (Numeral.textOf numeral ++ 'n' :: rest) := by
  cases numeral with
  | none => exact ⟨'n', rfl, .inr (.inr rfl)⟩
  | some numeral => exact numeral.startsPlain _

/-- Reads a formula that is no keyword. -/
def readParts? (characters : List Char) : Option Formula := do
  let (sign, rest) := takeSign characters
  let (number, rest) ← takeNumber? rest
  match rest with
  | 'n' :: rest => return ⟨sign * number.getD 1, ← readOffset? rest⟩
  | [] => return ⟨0, sign * (← number)⟩
  | _ => none

theorem readPlain?_eq (characters : List Char) :
    readPlain? characters =
      if characters = "even".toList then some ⟨2, 0⟩
      else if characters = "odd".toList then some ⟨2, 1⟩
      else readParts? characters := rfl

/-- Nothing that starts plainly is a keyword. -/
theorem readPlain?_of_startsPlain {characters : List Char} (plain : StartsPlain characters) :
    readPlain? characters = readParts? characters := by
  obtain ⟨first, starts, kind⟩ := plain
  have apart (other : Char) (no : isSign other = false ∧ isDigit other = false ∧ other ≠ 'n') :
      first ≠ other := by
    rintro rfl
    rcases kind with sign | digit | letter
    · exact Bool.false_ne_true (no.1.symm.trans sign)
    · exact Bool.false_ne_true (no.2.1.symm.trans digit)
    · exact no.2.2 letter
  have notEven : characters ≠ "even".toList := by
    rintro rfl
    exact apart 'e' (by decide) (Option.some.inj starts).symm
  have notOdd : characters ≠ "odd".toList := by
    rintro rfl
    exact apart 'o' (by decide) (Option.some.inj starts).symm
  rw [readPlain?_eq, if_neg notEven, if_neg notOdd]

/-- A multiple of `n` is read with whatever offset stands behind it. -/
theorem readPlain?_multiple (sign : Option Sign) (factor : Option Numeral) {tail : List Char}
    {offset : Int} (reads : readOffset? tail = some offset) :
    readPlain? (leadingText sign ++ (Numeral.textOf factor ++ 'n' :: tail)) =
      some ⟨leadingFactor sign * ((factor.map Numeral.value).getD 1 : Nat), offset⟩ := by
  have stopsN : StopsAt isDigit ('n' :: tail) := stopsAt_cons (by decide) tail
  have unsigned : StopsAt isSign (Numeral.textOf factor ++ 'n' :: tail) := by
    cases factor with
    | none => exact stopsAt_cons (by decide) tail
    | some factor => exact factor.stopsAt _ isSign_of_isDigit
  rw [readPlain?_of_startsPlain (startsPlain_leadingText sign (startsPlain_textOf factor _)), readParts?,
    takeSign_leadingText sign unsigned]
  simp only [takeNumber?_textOf factor stopsN]
  change (do return (⟨_, ← readOffset? tail⟩ : Formula)) = _
  rw [reads]
  rfl

theorem readPlain?_text (spelling : Spelling) : readPlain? spelling.text = some spelling.meaning := by
  cases spelling with
  | even => rfl
  | odd => rfl
  | constant sign number =>
    have plain := number.startsPlain []
    have stops := number.stopsAt [] isSign_of_isDigit
    have taken := takeNumber?_digits number (stopsAt_nil isDigit)
    rw [List.append_nil] at plain stops taken
    rw [Spelling.text, readPlain?_of_startsPlain (startsPlain_leadingText sign plain), readParts?,
      takeSign_leadingText sign stops]
    simp only [taken]
    rfl
  | multiples sign factor => exact readPlain?_multiple sign factor rfl
  | shifted sign factor before shiftSign after shift =>
    exact readPlain?_multiple sign factor (readOffset?_shift before shiftSign after shift)

theorem isBlank_of_isDigit {digit : Char} (known : isDigit digit = true) :
    Text.isBlank digit = false := by
  have range : 48 ≤ digit.toNat ∧ digit.toNat ≤ 57 := by
    rw [isDigit, Bool.and_eq_true, decide_eq_true_iff, decide_eq_true_iff] at known
    exact known
  refine Bool.eq_false_iff.mpr fun blank => ?_
  simp only [Text.isBlank, Text.inRanges, Text.blankRanges, List.any_cons, List.any_nil,
    Bool.or_false, Bool.or_eq_true, Bool.and_eq_true, decide_eq_true_iff] at blank
  omega

/-- A text with a number at its end does not end with a blank character. -/
theorem Numeral.ends (numeral : Numeral) (front : List Char) :
    StopsAt Text.isBlank (front ++ numeral.digits).reverse := by
  rw [List.reverse_append]
  obtain ⟨last, others, split⟩ :=
    List.exists_cons_of_ne_nil (mt List.reverse_eq_nil_iff.mp numeral.nonempty)
  have member : last ∈ numeral.digits := List.mem_reverse.mp (split ▸ List.mem_cons_self)
  rw [split]
  exact stopsAt_cons (isBlank_of_isDigit (numeral.areDigits last member)) _

theorem StartsPlain.stopsAt_isBlank {characters : List Char} (plain : StartsPlain characters) :
    StopsAt Text.isBlank characters := by
  obtain ⟨first, starts, kind⟩ := plain
  intro other known
  obtain rfl : first = other := Option.some.inj (starts.symm.trans known)
  rcases kind with sign | digit | letter
  · rw [isSign, Bool.or_eq_true, beq_iff_eq, beq_iff_eq] at sign
    rcases sign with rfl | rfl <;> decide
  · exact isBlank_of_isDigit digit
  · exact letter ▸ by decide

theorem StartsPlain.ne_nil {characters : List Char} (plain : StartsPlain characters) :
    characters ≠ [] := by
  rintro rfl
  obtain ⟨_, impossible, _⟩ := plain
  cases impossible

namespace Spelling

theorem text_starts (spelling : Spelling) :
    spelling.text ≠ [] ∧ StopsAt Text.isBlank spelling.text := by
  have ofPlain {characters : List Char} (plain : StartsPlain characters) :
      characters ≠ [] ∧ StopsAt Text.isBlank characters := ⟨plain.ne_nil, plain.stopsAt_isBlank⟩
  cases spelling with
  | even => exact ⟨List.cons_ne_nil _ _, stopsAt_cons (by decide) _⟩
  | odd => exact ⟨List.cons_ne_nil _ _, stopsAt_cons (by decide) _⟩
  | constant sign number =>
    have plain := number.startsPlain []
    rw [List.append_nil] at plain
    exact ofPlain (startsPlain_leadingText sign plain)
  | multiples sign factor => exact ofPlain (startsPlain_leadingText sign (startsPlain_textOf factor _))
  | shifted sign factor _ _ _ _ =>
    exact ofPlain (startsPlain_leadingText sign (startsPlain_textOf factor _))

theorem text_ends (spelling : Spelling) : StopsAt Text.isBlank spelling.text.reverse := by
  cases spelling with
  | even => exact stopsAt_cons (by decide) _
  | odd => exact stopsAt_cons (by decide) _
  | constant sign number => exact number.ends _
  | multiples sign factor =>
    rw [text, ← List.append_assoc, List.reverse_append]
    exact stopsAt_cons (by decide) _
  | shifted sign factor before shiftSign after shift =>
    have assembled : (shifted sign factor before shiftSign after shift).text =
        (leadingText sign ++ (Numeral.textOf factor ++ ('n' :: (before.characters ++
          (shiftSign.character :: after.characters))))) ++ shift.digits := by
      simp only [text, List.append_assoc, List.cons_append]
    rw [assembled]
    exact shift.ends _

end Spelling

/-- In lower case, and without blank characters around it, the text is the given one. -/
def IsCased (text : List Char) (written : String) : Prop :=
  ∃ before core after, written.toList = before ++ (core ++ after) ∧
    (∀ character ∈ before, Text.isBlank character = true) ∧
    (∀ character ∈ after, Text.isBlank character = true) ∧
    core.map Char.toLower = text

theorem stopsAt_isBlank_map_toLower (characters : List Char) :
    StopsAt Text.isBlank (characters.map Char.toLower) ↔ StopsAt Text.isBlank characters := by
  cases characters with
  | nil => exact Iff.rfl
  | cons first rest => simp [StopsAt, Text.isBlank_toLower]

/-- A text that neither starts nor ends blank is the given one in lower case. -/
theorem isCased_iff {text : List Char} (nonempty : text ≠ []) (starts : StopsAt Text.isBlank text)
    (ends : StopsAt Text.isBlank text.reverse) (written : String) :
    IsCased text written ↔ (Text.trim written.toList).map Char.toLower = text := by
  constructor
  · intro cased
    obtain ⟨before, core, after, split, blankBefore, blankAfter, rfl⟩ := cased
    rw [stopsAt_isBlank_map_toLower] at starts
    rw [← List.map_reverse, stopsAt_isBlank_map_toLower] at ends
    rw [split, Text.trim_around (mt List.map_eq_nil_iff.mpr nonempty) blankBefore blankAfter starts ends]
  · intro same
    obtain ⟨before, after, split, blankBefore, blankAfter⟩ := Text.exists_trim_split written.toList
    exact ⟨before, _, after, split, blankBefore, blankAfter, same⟩

theorem Spelling.writes_iff (spelling : Spelling) (written : String) :
    spelling.Writes written ↔ (Text.trim written.toList).map Char.toLower = spelling.text :=
  isCased_iff spelling.text_starts.1 spelling.text_starts.2 spelling.text_ends written

/-- Whatever blank characters are around a formula and however its letters are cased, it is read as
what it means. -/
theorem read?_of_writes {spelling : Spelling} {written : String} (writes : spelling.Writes written) :
    read? written = some spelling.meaning := by
  rw [read?, (spelling.writes_iff written).mp writes, readPlain?_text]

end Formula
end SelectorEngine
