import Mathlib.Data.List.Infix
import SelectorEngine.Proofs.Meaning.SimpleSelector
import SelectorEngine.Text

/-! Lower-casing a part and lower-casing the whole. Every character but the capital sigma becomes the same
wherever it stands; so what is found in the lower-cased part is found in the lower-cased whole, unless
both a capital sigma and a small one in what is looked for are involved. -/
namespace SelectorEngine.Text

/-- Both small sigmas written alike. -/
def unifySigma (character : Char) : Char := if character = 'ς' then 'σ' else character

theorem lowerBetween_alone {character : Char} (other : character ≠ 'Σ') (before after : List Char) :
    lowerBetween before character after = lowerBetween [] character [] := by
  rw [lowerBetween, lowerBetween, if_neg other, if_neg other]

theorem unifySigma_lowerBetween (before : List Char) (character : Char) (after : List Char) :
    (lowerBetween before character after).map unifySigma =
      (lowerBetween [] character []).map unifySigma := by
  by_cases isSigma : character = 'Σ'
  · rw [lowerBetween, lowerBetween, if_pos isSigma, if_pos isSigma, List.map_singleton,
      List.map_singleton]
    split <;> rfl
  · rw [lowerBetween_alone isSigma]

theorem lowerAfter_eq_flatMap {text : List Char} (free : 'Σ' ∉ text) (before : List Char) :
    lowerAfter before text = text.flatMap fun character => lowerBetween [] character [] := by
  induction text generalizing before with
  | nil => rfl
  | cons character rest ih =>
    obtain ⟨other, restFree⟩ := not_or.mp (mt List.mem_cons.mpr free)
    rw [lowerAfter, ih restFree, lowerBetween_alone (Ne.symm other), List.flatMap_cons]

theorem unifySigma_lowerAfter (before text : List Char) :
    (lowerAfter before text).map unifySigma =
      text.flatMap fun character => (lowerBetween [] character []).map unifySigma := by
  induction text generalizing before with
  | nil => rfl
  | cons character rest ih =>
    rw [lowerAfter, List.map_append, ih, unifySigma_lowerBetween, List.flatMap_cons]

theorem map_unifySigma_eq {text : List Char} (plain : 'ς' ∉ text) : text.map unifySigma = text := by
  have same (character : Char) (member : character ∈ text) : unifySigma character = id character := by
    have other : character ≠ 'ς' := fun isFinal => plain (isFinal ▸ member)
    exact if_neg other
  rw [List.map_congr_left same, List.map_id]

/-- Without a small sigma in it, a piece is found wherever it is found with both sigmas alike. -/
theorem infix_of_infix_unifySigma {piece whole : List Char} (plain : 'σ' ∉ piece)
    (found : piece <:+: whole.map unifySigma) : piece <:+: whole := by
  obtain ⟨before, after, split⟩ := found
  obtain ⟨start, rest, rfl, begins, _⟩ := List.map_eq_append_iff.mp split.symm
  obtain ⟨early, middle, rfl, _, matched⟩ := List.map_eq_append_iff.mp begins
  have noFinal : 'ς' ∉ middle := by
    intro isFinal
    have unified : 'σ' ∈ middle.map unifySigma := List.mem_map_of_mem isFinal
    exact plain (matched ▸ unified)
  rw [map_unifySigma_eq noFinal] at matched
  exact ⟨early, rest, by rw [matched]⟩

/-- What is found in a lower-cased part of a text is found in the lower-cased text, if no final sigma
comes into it: there is no capital sigma in the text, or no small one in what is looked for. -/
theorem contains_lower_of_infix {piece part whole : String}
    (inside : part.toList <:+: whole.toList)
    (clear : 'Σ' ∉ whole.toList ∨ 'σ' ∉ piece.toList ∧ 'ς' ∉ piece.toList)
    (found : contains piece (lower part) = true) : contains piece (lower whole) = true := by
  rw [contains_iff, lower, String.toList_ofList] at found ⊢
  rcases clear with free | ⟨noSmall, noFinal⟩
  · have partFree : 'Σ' ∉ part.toList := fun member => free (inside.subset member)
    rw [lowerAfter_eq_flatMap partFree] at found
    rw [lowerAfter_eq_flatMap free]
    exact found.trans (inside.flatMap _)
  · have alike := found.map unifySigma
    rw [map_unifySigma_eq noFinal, unifySigma_lowerAfter] at alike
    apply infix_of_infix_unifySigma noSmall
    rw [unifySigma_lowerAfter]
    exact alike.trans (inside.flatMap _)

end SelectorEngine.Text
