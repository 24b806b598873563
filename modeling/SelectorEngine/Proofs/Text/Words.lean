import SelectorEngine.Text

/-! The words of a text are what stands in it between blank characters, or between one of them and an end
of the text, and has no blank character in it. -/
namespace SelectorEngine.Text

def startsBlank (text : List Char) : Bool := text.head?.all isBlank

def endsBlank (text : List Char) : Bool := text.getLast?.all isBlank

/-- A text is empty or goes on with a blank character, whatever comes after that. -/
theorem startsBlank_append {text : List Char} (starts : startsBlank text = true) {blank : Char}
    (isBlank' : isBlank blank = true) (rest : List Char) : startsBlank (text ++ blank :: rest) = true := by
  cases text with
  | nil => exact isBlank'
  | cons first further => exact starts

theorem endsBlank_append {text : List Char} (ends : endsBlank text = true) {blank : Char}
    (isBlank' : isBlank blank = true) (front : List Char) : endsBlank (front ++ blank :: text) = true := by
  rw [endsBlank, List.getLast?_append, List.getLast?_cons]
  rw [endsBlank] at ends
  cases last : text.getLast? with
  | none => exact isBlank'
  | some character =>
    rw [last] at ends
    exact ends

theorem words_append_blank (front : List Char) {blank : Char} (isBlank' : isBlank blank = true)
    (rest : List Char) : words (front ++ blank :: rest) = words front ++ words rest :=
  List.splitOnP_append_cons front rest isBlank'

theorem words_of_unbroken {word : List Char} (unbroken : ∀ character ∈ word, isBlank character = false) :
    words word = [word] :=
  List.splitOnP_eq_singleton unbroken

private theorem exists_place {word whole : List Char} (member : word ∈ words whole) :
    (∀ character ∈ word, isBlank character = false) ∧ ∃ front rest, whole = front ++ (word ++ rest) ∧
      endsBlank front = true ∧ startsBlank rest = true := by
  induction size : whole.length using Nat.strongRecOn generalizing whole with
  | ind size ih =>
    by_cases broken : ∃ blank ∈ whole, isBlank blank = true
    · obtain ⟨blank, listed, isBlank'⟩ := broken
      obtain ⟨left, right, rfl⟩ := List.append_of_mem listed
      rw [List.length_append, List.length_cons] at size
      rw [words_append_blank left isBlank' right] at member
      rcases List.mem_append.mp member with inLeft | inRight
      · obtain ⟨solid, front, rest, rfl, ends, starts⟩ := ih left.length (by omega) inLeft rfl
        exact ⟨solid, front, rest ++ blank :: right, by simp, ends, startsBlank_append starts isBlank' right⟩
      · obtain ⟨solid, front, rest, rfl, ends, starts⟩ := ih right.length (by omega) inRight rfl
        exact ⟨solid, left ++ blank :: front, rest, by simp, endsBlank_append ends isBlank' left, starts⟩
    · have unbroken : ∀ character ∈ whole, isBlank character = false :=
        fun character listed => Bool.eq_false_iff.mpr fun blank => broken ⟨character, listed, blank⟩
      rw [words_of_unbroken unbroken, List.mem_singleton] at member
      subst member
      exact ⟨unbroken, [], [], by simp, rfl, rfl⟩

theorem mem_words_iff (word whole : List Char) : word ∈ words whole ↔
    (∀ character ∈ word, isBlank character = false) ∧ ∃ front rest, whole = front ++ (word ++ rest) ∧
      endsBlank front = true ∧ startsBlank rest = true := by
  refine ⟨exists_place, fun known => ?_⟩
  obtain ⟨solid, front, rest, rfl, ends, starts⟩ := known
  have first : word ∈ words (word ++ rest) := by
    cases rest with
    | nil => simp [words_of_unbroken solid]
    | cons blank rest =>
      rw [words_append_blank word starts rest, words_of_unbroken solid]
      exact List.mem_append_left _ (List.mem_singleton.mpr rfl)
  rcases List.eq_nil_or_concat front with rfl | ⟨start, blank, rfl⟩
  · exact first
  · rw [endsBlank, List.concat_eq_append, List.getLast?_concat] at ends
    rw [List.concat_eq_append, List.append_assoc, List.singleton_append, words_append_blank start ends]
    exact List.mem_append_right _ first

end SelectorEngine.Text
