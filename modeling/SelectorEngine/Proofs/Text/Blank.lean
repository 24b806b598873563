import SelectorEngine.Text

/-! Cutting a text where a stretch of one kind of characters ends, and what is left of a text without the
blank characters around it. -/
namespace SelectorEngine.Text

/-- The text does not go on with a character of the kind. -/
def StopsAt (kind : Char → Bool) (rest : List Char) : Prop :=
  ∀ character, rest.head? = some character → kind character = false

theorem stopsAt_nil (kind : Char → Bool) : StopsAt kind [] :=
  fun _ impossible => nomatch impossible

theorem stopsAt_cons {kind : Char → Bool} {character : Char} (other : kind character = false)
    (rest : List Char) : StopsAt kind (character :: rest) := by
  intro first known
  rw [List.head?_cons] at known
  exact Option.some.inj known ▸ other

theorem stopsAt_dropWhile (kind : Char → Bool) (characters : List Char) :
    StopsAt kind (characters.dropWhile kind) := by
  intro first known
  have stops := List.head?_dropWhile_not kind characters
  rwa [known] at stops

section

variable {kind : Char → Bool} {front rest : List Char}

theorem takeWhile_append_stop (inside : ∀ character ∈ front, kind character = true)
    (stops : StopsAt kind rest) : (front ++ rest).takeWhile kind = front := by
  rw [List.takeWhile_append_of_pos inside]
  cases rest with
  | nil => exact List.append_nil front
  | cons first rest =>
    rw [List.takeWhile_cons_of_neg (Bool.eq_false_iff.mp (stops first rfl)), List.append_nil]

theorem dropWhile_append_stop (inside : ∀ character ∈ front, kind character = true)
    (stops : StopsAt kind rest) : (front ++ rest).dropWhile kind = rest := by
  rw [List.dropWhile_append_of_pos inside]
  cases rest with
  | nil => rfl
  | cons first rest => exact List.dropWhile_cons_of_neg (Bool.eq_false_iff.mp (stops first rfl))

end

/-- Cutting off the blank characters around a text that neither starts nor ends with one gives it back. -/
theorem trim_around {before core after : List Char} (nonempty : core ≠ [])
    (blankBefore : ∀ character ∈ before, isBlank character = true)
    (blankAfter : ∀ character ∈ after, isBlank character = true)
    (starts : StopsAt isBlank core) (ends : StopsAt isBlank core.reverse) :
    trim (before ++ (core ++ after)) = core := by
  have startsWhole : StopsAt isBlank (core ++ after) := by
    obtain ⟨first, rest, split⟩ := List.exists_cons_of_ne_nil nonempty
    rw [split]
    exact stopsAt_cons (starts first (split ▸ rfl)) _
  have blankReversed : ∀ character ∈ after.reverse, isBlank character = true :=
    fun character member => blankAfter character (List.mem_reverse.mp member)
  rw [trim, dropWhile_append_stop blankBefore startsWhole, List.reverse_append,
    dropWhile_append_stop blankReversed ends, List.reverse_reverse]

/-- What is cut off are blank characters. -/
theorem exists_trim_split (characters : List Char) : ∃ before after,
    characters = before ++ (trim characters ++ after) ∧
      (∀ character ∈ before, isBlank character = true) ∧
      ∀ character ∈ after, isBlank character = true := by
  have reversed : ((characters.dropWhile isBlank).reverse.takeWhile isBlank ++
      (characters.dropWhile isBlank).reverse.dropWhile isBlank).reverse = characters.dropWhile isBlank := by
    rw [List.takeWhile_append_dropWhile, List.reverse_reverse]
  rw [List.reverse_append] at reversed
  refine ⟨characters.takeWhile isBlank, ((characters.dropWhile isBlank).reverse.takeWhile isBlank).reverse,
    ?_, List.all_eq_true.mp List.all_takeWhile,
    fun character member => List.all_eq_true.mp List.all_takeWhile _ (List.mem_reverse.mp member)⟩
  rw [trim, reversed, List.takeWhile_append_dropWhile]

theorem trim_reverse_stops (characters : List Char) : StopsAt isBlank (trim characters).reverse := by
  rw [trim, List.reverse_reverse]
  exact stopsAt_dropWhile isBlank _

/-- Letters are not blank, whatever their case. -/
theorem isBlank_toLower (character : Char) : isBlank character.toLower = isBlank character := by
  unfold Char.toLower
  split
  · next capital =>
    have range : 65 ≤ character.toNat ∧ character.toNat ≤ 90 := capital
    have printable (letter : Char) (plain : 33 ≤ letter.toNat ∧ letter.toNat ≤ 126) :
        isBlank letter = false := by
      refine Bool.eq_false_iff.mpr fun blank => ?_
      simp only [isBlank, inRanges, blankRanges, List.any_cons, List.any_nil, Bool.or_false,
        Bool.or_eq_true, Bool.and_eq_true, decide_eq_true_iff] at blank
      omega
    have lowered : (character.val + 32).toNat = character.toNat + 32 := by
      rw [UInt32.toNat_add]
      exact Nat.mod_eq_of_lt (Nat.lt_of_le_of_lt (Nat.add_le_add_right range.2 32) (by decide))
    rw [printable character (by omega), printable]
    change 33 ≤ (character.val + 32).toNat ∧ (character.val + 32).toNat ≤ 126
    omega
  · rfl

end SelectorEngine.Text
