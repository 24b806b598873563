import Mathlib.Data.List.DropRight
import SelectorEngine.Proofs.Formula.Spelling

/-! What is accepted as a formula. Besides the formulas as they are spelled, a multiple of `n` is read with
a number behind it that has no sign, as if there were a plus; no other text is read. -/
namespace SelectorEngine
namespace Formula

open Text (StopsAt stopsAt_nil stopsAt_cons stopsAt_dropWhile dropWhile_append_stop)

/-- A multiple of `n`, and behind it a number without a sign, with or without a gap. -/
structure BareShift where
  sign : Option Sign
  factor : Option Numeral
  gap : Gap
  shift : Numeral

namespace BareShift

def text (bare : BareShift) : List Char :=
  leadingText bare.sign ++ (Numeral.textOf bare.factor ++
    ('n' :: (bare.gap.characters ++ bare.shift.digits)))

def meaning (bare : BareShift) : Formula :=
  ⟨leadingFactor bare.sign * ((bare.factor.map Numeral.value).getD 1 : Nat), bare.shift.value⟩

def Writes (bare : BareShift) (written : String) : Prop := IsCased bare.text written

end BareShift

namespace BareShift

variable (bare : BareShift)

theorem writes_iff (written : String) :
    bare.Writes written ↔ (Text.trim written.toList).map Char.toLower = bare.text := by
  have plain : StartsPlain bare.text := startsPlain_leadingText bare.sign (startsPlain_textOf bare.factor _)
  have ends := bare.shift.ends
    (leadingText bare.sign ++ (Numeral.textOf bare.factor ++ ('n' :: bare.gap.characters)))
  simp only [List.append_assoc, List.cons_append] at ends
  exact isCased_iff plain.ne_nil plain.stopsAt_isBlank ends written

theorem readPlain?_text : readPlain? bare.text = some bare.meaning := by
  refine readPlain?_multiple bare.sign bare.factor ?_
  have digitsStop := bare.shift.stopsAt [] isGap_of_isDigit
  have unsigned := bare.shift.stopsAt [] isSign_of_isDigit
  have number := takeNumber?_digits bare.shift (stopsAt_nil isDigit)
  rw [List.append_nil] at digitsStop unsigned number
  have sign : takeSign bare.shift.digits = (1, bare.shift.digits) := takeSign_leadingText none unsigned
  have again : bare.shift.digits.dropWhile isGap = bare.shift.digits :=
    dropWhile_append_stop (List.forall_mem_nil _) digitsStop
  unfold readOffset?
  rw [dropWhile_append_stop bare.gap.areGaps digitsStop]
  split
  · next empty => exact absurd empty bare.shift.nonempty
  · simp only [sign, again, number]
    exact congrArg some (one_mul _)

end BareShift

theorem exists_leadingText {characters rest : List Char} {factor : Int}
    (taken : takeSign characters = (factor, rest)) : ∃ sign : Option Sign,
    characters = leadingText sign ++ rest ∧ factor = leadingFactor sign := by
  unfold takeSign at taken
  split at taken
  · cases taken
    exact ⟨some .minus, rfl, rfl⟩
  · cases taken
    exact ⟨some .plus, rfl, rfl⟩
  · cases taken
    exact ⟨none, rfl, rfl⟩

theorem exists_textOf {characters rest : List Char} {number : Option Nat}
    (taken : takeNumber? characters = some (number, rest)) : ∃ numeral : Option Numeral,
    characters = Numeral.textOf numeral ++ rest ∧ number = numeral.map Numeral.value := by
  have split := (List.takeWhile_append_dropWhile (p := isDigit) (l := characters)).symm
  have areDigits := List.all_eq_true.mp (List.all_takeWhile (p := isDigit) (l := characters))
  unfold takeNumber? at taken
  dsimp only at taken
  split at taken
  · next empty =>
    cases taken
    rw [List.isEmpty_iff.mp empty] at split
    exact ⟨none, split, rfl⟩
  · next nonempty =>
    split at taken
    · next fits =>
      cases taken
      have value := digitsValue_eq_ofDigits (characters.takeWhile isDigit)
      exact ⟨some ⟨_, mt List.isEmpty_iff.mpr nonempty, areDigits, value ▸ fits⟩, split,
        congrArg some value⟩
    · cases taken

def Gap.leading (characters : List Char) : Gap :=
  ⟨characters.takeWhile isGap, List.all_eq_true.mp List.all_takeWhile⟩

theorem isBlank_of_isGap {character : Char} (isGap : isGap character = true) :
    Text.isBlank character = true := by
  have every : ∀ gap ∈ ['\t', '\n', '\x0c', '\r', ' '], Text.isBlank gap = true :=
    List.all_eq_true.mp (by decide)
  exact every character (by simpa [Formula.isGap, or_assoc] using isGap)

/-- What can stand behind `n`: nothing, a signed number, or a number without a sign. -/
theorem offset_cases {characters : List Char} {offset : Int}
    (ends : StopsAt Text.isBlank characters.reverse) (reads : readOffset? characters = some offset) :
    (characters = [] ∧ offset = 0) ∨
    (∃ (before : Gap) (sign : Sign) (after : Gap) (shift : Numeral),
      characters = before.characters ++ (sign.character :: (after.characters ++ shift.digits)) ∧
        offset = sign.factor * shift.value) ∨
    ∃ (gap : Gap) (shift : Numeral), characters = gap.characters ++ shift.digits ∧
      offset = shift.value := by
  have split : characters = (Gap.leading characters).characters ++ characters.dropWhile isGap :=
    List.takeWhile_append_dropWhile.symm
  unfold readOffset? at reads
  split at reads
  · next empty =>
    cases reads
    have areGaps := List.dropWhile_eq_nil_iff.mp empty
    refine .inl ⟨List.reverse_eq_nil_iff.mp (List.head?_eq_none_iff.mp ?_), rfl⟩
    by_contra nonempty
    obtain ⟨last, isLast⟩ := Option.ne_none_iff_exists'.mp nonempty
    have blank := isBlank_of_isGap (areGaps last (List.mem_reverse.mp (List.mem_of_head? isLast)))
    exact Bool.false_ne_true ((ends last isLast).symm.trans blank)
  · rcases signs : takeSign (characters.dropWhile isGap) with ⟨factor, behind⟩
    obtain ⟨sign, signed, rfl⟩ := exists_leadingText signs
    rw [signs] at reads
    obtain ⟨⟨number, rest⟩, taken, reads⟩ := Option.bind_eq_some_iff.mp reads
    obtain ⟨value, isNumber, reads⟩ := Option.bind_eq_some_iff.mp reads
    obtain ⟨numeral, digits, isValue⟩ := exists_textOf taken
    have finished : rest = [] ∧ leadingFactor sign * value = offset := by
      split at reads
      · next empty => exact ⟨List.isEmpty_iff.mp empty, Option.some.inj reads⟩
      · cases reads
    obtain ⟨rfl, rfl⟩ := finished
    obtain ⟨shift, rfl, rfl⟩ : ∃ shift, numeral = some shift ∧ shift.value = value :=
      Option.map_eq_some_iff.mp (isValue.symm.trans isNumber)
    rw [Numeral.textOf, Option.map_some, Option.getD_some, List.append_nil] at digits
    cases sign with
    | some sign =>
      have further : behind = (Gap.leading behind).characters ++ shift.digits := by
        rw [← digits]
        exact List.takeWhile_append_dropWhile.symm
      refine .inr (.inl ⟨Gap.leading characters, sign, Gap.leading behind, shift, ?_, rfl⟩)
      rw [← further]
      exact split.trans (congrArg _ signed)
    | none =>
      have same : characters.dropWhile isGap = behind := signed
      rw [← same, List.dropWhile_idempotent] at digits
      exact .inr (.inr ⟨Gap.leading characters, shift, digits ▸ split, one_mul _⟩)

/-- A text in lower case that does not end blank is read only if it is spelled, with a sign before the
number behind `n` or without one. -/
theorem plain_cases {characters : List Char} {formula : Formula}
    (ends : StopsAt Text.isBlank characters.reverse) (reads : readPlain? characters = some formula) :
    (∃ spelling : Spelling, characters = spelling.text ∧ spelling.meaning = formula) ∨
      ∃ bare : BareShift, characters = bare.text ∧ bare.meaning = formula := by
  rw [readPlain?_eq] at reads
  split at reads
  · next even =>
    cases reads
    exact .inl ⟨.even, even, rfl⟩
  · split at reads
    · next odd =>
      cases reads
      exact .inl ⟨.odd, odd, rfl⟩
    · rcases signs : takeSign characters with ⟨factor, behind⟩
      obtain ⟨sign, signed, rfl⟩ := exists_leadingText signs
      rw [readParts?, signs] at reads
      obtain ⟨⟨number, rest⟩, taken, reads⟩ := Option.bind_eq_some_iff.mp reads
      obtain ⟨numeral, digits, rfl⟩ := exists_textOf taken
      rw [digits] at signed
      dsimp only at reads
      split at reads
      · next tail =>
        obtain ⟨offset, readsOffset, made⟩ := Option.bind_eq_some_iff.mp reads
        have tailEnds : StopsAt Text.isBlank tail.reverse := by
          intro last isLast
          refine ends last ?_
          rw [signed]
          simp [isLast]
        obtain rfl := Option.some.inj made
        rcases offset_cases tailEnds readsOffset with ⟨rfl, rfl⟩ | ⟨before, shiftSign, after, shift, rfl, rfl⟩ |
          ⟨gap, shift, rfl, rfl⟩
        · exact .inl ⟨.multiples sign numeral, signed, rfl⟩
        · exact .inl ⟨.shifted sign numeral before shiftSign after shift, signed, rfl⟩
        · exact .inr ⟨⟨sign, numeral, gap, shift⟩, signed, rfl⟩
      · obtain ⟨value, isNumber, made⟩ := Option.bind_eq_some_iff.mp reads
        obtain ⟨number, rfl, rfl⟩ := Option.map_eq_some_iff.mp isNumber
        rw [List.append_nil] at signed
        exact .inl ⟨.constant sign number, signed, Option.some.inj made⟩
      · cases reads

/-- A text is read exactly if it is spelled as a formula, or as a multiple of `n` and a number without a
sign, which counts as if it stood behind a plus; it is read as what it means. -/
theorem accepts_iff_spelled (written : String) (formula : Formula) :
    read? written = some formula ↔
      (∃ spelling : Spelling, spelling.Writes written ∧ spelling.meaning = formula) ∨
        ∃ bare : BareShift, bare.Writes written ∧ bare.meaning = formula := by
  constructor
  · intro reads
    have ends : StopsAt Text.isBlank ((Text.trim written.toList).map Char.toLower).reverse := by
      rw [← List.map_reverse, stopsAt_isBlank_map_toLower]
      exact Text.trim_reverse_stops written.toList
    rcases plain_cases ends reads with ⟨spelling, same, meaning⟩ | ⟨bare, same, meaning⟩
    · exact .inl ⟨spelling, (spelling.writes_iff written).mpr same, meaning⟩
    · exact .inr ⟨bare, (bare.writes_iff written).mpr same, meaning⟩
  · intro known
    rcases known with ⟨spelling, writes, rfl⟩ | ⟨bare, writes, rfl⟩
    · exact read?_of_writes writes
    · rw [read?, (bare.writes_iff written).mp writes, bare.readPlain?_text]

/-- A number behind `n` is accepted without a sign, though no formula is spelled like this. -/
theorem accepts_number_without_sign :
    read? "n 2" = some ⟨1, 2⟩ ∧ ¬ ∃ spelling : Spelling, spelling.Writes "n 2" := by
  refine ⟨by decide, fun known => ?_⟩
  obtain ⟨spelling, writes⟩ := known
  have text : ['n', ' ', '2'] = spelling.text := (spelling.writes_iff "n 2").mp writes
  cases spelling with
  | even => exact absurd text (by decide)
  | odd => exact absurd text (by decide)
  | constant sign number =>
    have blank : ' ' ∈ (Spelling.constant sign number).text := text ▸ by decide
    rcases List.mem_append.mp blank with inSign | inNumber
    · rcases sign with _ | _ | _ <;> exact absurd inSign (by decide)
    · exact absurd (number.areDigits ' ' inNumber) (by decide)
  | multiples sign factor =>
    have last := congrArg List.getLast? text
    rw [Spelling.text, ← List.append_assoc, List.getLast?_append] at last
    cases last
  | shifted sign factor before shiftSign after shift =>
    have signed : shiftSign.character ∈ ['n', ' ', '2'] := text ▸ by simp [Spelling.text]
    cases shiftSign <;> exact absurd signed (by decide)

end Formula
end SelectorEngine
