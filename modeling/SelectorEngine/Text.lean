import SelectorEngine.Text.CaseTable
import SelectorEngine.Text.HiddenTable

/-! Operations on texts: cutting a text at its blank characters, finding a piece of it, writing all of it in lower
case and putting it in double quotes. Lower-casing is that of the whole text, since what becomes of a capital
sigma depends on its neighbours. -/
namespace SelectorEngine.Text

/-- First and last code point of every stretch of blank characters. They are those of the Unicode property
White_Space; a zero-width space and a byte order mark are not among them. -/
def blankRanges : List (Nat × Nat) := [
  (0x0009, 0x000D), (0x0020, 0x0020), (0x0085, 0x0085), (0x00A0, 0x00A0), (0x1680, 0x1680),
  (0x2000, 0x200A), (0x2028, 0x2029), (0x202F, 0x202F), (0x205F, 0x205F), (0x3000, 0x3000)]

def inRanges (ranges : List (Nat × Nat)) (character : Char) : Bool :=
  ranges.any fun (first, last) => first ≤ character.toNat && character.toNat ≤ last

def isBlank (character : Char) : Bool := inRanges blankRanges character

/-- Without the blank characters at both ends. -/
def trim (characters : List Char) : List Char :=
  ((characters.dropWhile isBlank).reverse.dropWhile isBlank).reverse

/-- The pieces between blank characters, the empty ones included. -/
def words (characters : List Char) : List (List Char) := characters.splitOnP isBlank

/-- What follows `piece` at the start of the text, if the text starts with it. -/
def afterStart? (piece whole : List Char) : Option (List Char) :=
  match piece, whole with
  | [], rest => some rest
  | _ :: _, [] => none
  | first :: piece, head :: whole => if first = head then afterStart? piece whole else none

def startsWith (piece whole : String) : Bool := (afterStart? piece.toList whole.toList).isSome

def endsWith (piece whole : String) : Bool := piece.toList.isSuffixOf whole.toList

def occursIn (piece : List Char) : List Char → Bool
  | [] => piece.isEmpty
  | head :: rest => (afterStart? piece (head :: rest)).isSome || occursIn piece rest

/-- The text contains `piece` as a contiguous part. -/
def contains (piece whole : String) : Bool := occursIn piece.toList whole.toList

theorem afterStart_some_iff (piece whole rest : List Char) :
    afterStart? piece whole = some rest ↔ whole = piece ++ rest := by
  induction piece generalizing whole with
  | nil => cases whole <;> simp [afterStart?, eq_comm]
  | cons first piece ih =>
    cases whole with
    | nil => simp [afterStart?]
    | cons head whole =>
      by_cases same : first = head
      · simp [afterStart?, same, ih]
      · simp [afterStart?, same, Ne.symm same]

theorem occursIn_iff (piece whole : List Char) :
    occursIn piece whole ↔ ∃ before after, whole = before ++ piece ++ after := by
  induction whole with
  | nil => cases piece <;> simp [occursIn]
  | cons head rest ih =>
    simp only [occursIn, Bool.or_eq_true, Option.isSome_iff_exists, afterStart_some_iff, ih]
    constructor
    · rintro (⟨after, found⟩ | ⟨before, after, found⟩)
      · exact ⟨[], after, found⟩
      · exact ⟨head :: before, after, by simp [found]⟩
    · rintro ⟨before, after, found⟩
      cases before with
      | nil => exact .inl ⟨after, found⟩
      | cons first before => exact .inr ⟨before, after, by simp_all⟩

def isCased (character : Char) : Bool := inRanges casedRanges character

def isCaseIgnorable (character : Char) : Bool := inRanges ignorableRanges character

/-- The lower-case form of a character that has one of a single character, else the character. -/
def lowerCharacter (character : Char) : Char :=
  match lowerRuns.find? (·.holds character.toNat) with
  | some run => Char.ofNat (character.toNat + run.shift).toNat
  | none => character

/-- The nearest character that is not case-ignorable is cased. -/
def startsCased (characters : List Char) : Bool :=
  match characters.dropWhile isCaseIgnorable with
  | nearest :: _ => isCased nearest
  | [] => false

/-- What one character becomes; `before` holds what stands before it, nearest first. A final sigma is written
where a cased character comes before and none follows, case-ignorable characters not counting. The dotted
capital I becomes two characters. -/
def lowerBetween (before : List Char) (character : Char) (after : List Char) : List Char :=
  if character = 'Σ' then
    [if startsCased before && !startsCased after then 'ς' else 'σ']
  else if character = 'İ' then
    ['i', '\u0307']
  else
    [lowerCharacter character]

def lowerAfter (before : List Char) : List Char → List Char
  | [] => []
  | character :: after =>
    lowerBetween before character after ++ lowerAfter (character :: before) after

def lower (text : String) : String := String.ofList (lowerAfter [] text.toList)

def isHidden (character : Char) : Bool := inRanges hiddenRanges character

/-- The double quote, the backslash and four control characters have a two-character form. Every other hidden
character is written by its code point in hexadecimal, and all else stands as it is. -/
def escapedCharacter (character : Char) : List Char :=
  match character with
  | '\x00' => ['\\', '0']
  | '\t' => ['\\', 't']
  | '\r' => ['\\', 'r']
  | '\n' => ['\\', 'n']
  | '"' => ['\\', '"']
  | '\\' => ['\\', '\\']
  | other =>
    if isHidden other then
      "\\u\x7b".toList ++ Nat.toDigits 16 other.toNat ++ "\x7d".toList
    else
      [other]

/-- The text in double quotes, as error reasons show it. -/
def quoted (text : String) : String :=
  String.ofList ('"' :: text.toList.flatMap escapedCharacter ++ ['"'])

end SelectorEngine.Text
