import SelectorEngine.Proofs.Text.Lower
import SelectorEngine.Proofs.Text.Words

/-! Lower-casing a piece of a text where it stands, and lower-casing it alone. The two differ exactly where a
capital sigma takes its final form in one of them only. They do not differ next to a blank character or a
hyphen, which are letters neither way; these two stay what they are, and nothing else becomes blank. -/
namespace SelectorEngine.Text

/-- The piece, lower-cased; `before` holds what stands before it, nearest first, `after` what follows. -/
def lowerAmid (before after : List Char) : List Char → List Char
  | [] => []
  | character :: rest =>
    lowerBetween before character (rest ++ after) ++ lowerAmid (character :: before) after rest

def isFinalSigma (before after : List Char) : Bool := startsCased before && !startsCased after

/-- Every capital sigma of the piece has the form there that it has in the piece alone. -/
def SigmasStay (before piece after : List Char) : Prop :=
  ∀ earlier later, piece = earlier ++ 'Σ' :: later →
    isFinalSigma (earlier.reverse ++ before) (later ++ after) = isFinalSigma earlier.reverse later

theorem lowerAfter_eq_lowerAmid (before piece : List Char) :
    lowerAfter before piece = lowerAmid before [] piece := by
  induction piece generalizing before with
  | nil => rfl
  | cons character rest ih => rw [lowerAfter, lowerAmid, ih, List.append_nil]

theorem lowerAmid_append (before after front piece : List Char) :
    lowerAmid before after (front ++ piece) =
      lowerAmid before (piece ++ after) front ++ lowerAmid (front.reverse ++ before) after piece := by
  induction front generalizing before with
  | nil => rfl
  | cons character rest ih => simp [lowerAmid, ih]

/-- What is lower-cased as a whole falls into the parts lower-cased where they stand. -/
theorem lower_split {whole : String} {front piece rest : List Char}
    (split : whole.toList = front ++ (piece ++ rest)) :
    (lower whole).toList = lowerAmid [] (piece ++ rest) front ++
      (lowerAmid front.reverse rest piece ++ lowerAmid (piece.reverse ++ front.reverse) [] rest) := by
  rw [lower, String.toList_ofList, split, lowerAfter_eq_lowerAmid, lowerAmid_append, lowerAmid_append,
    List.append_nil, List.append_nil, List.append_nil]

theorem toList_lower (text : String) : (lower text).toList = lowerAmid [] [] text.toList := by
  rw [lower, String.toList_ofList, lowerAfter_eq_lowerAmid]

theorem lowerBetween_sigma (before after : List Char) :
    lowerBetween before 'Σ' after = [if isFinalSigma before after then 'ς' else 'σ'] :=
  if_pos rfl

section Forms

variable {before after : List Char}

private theorem lowerAmid_eq_iff_from (seen piece : List Char) :
    lowerAmid (seen ++ before) after piece = lowerAmid seen [] piece ↔
      ∀ earlier later, piece = earlier ++ 'Σ' :: later →
        isFinalSigma (earlier.reverse ++ (seen ++ before)) (later ++ after) =
          isFinalSigma (earlier.reverse ++ seen) later := by
  induction piece generalizing seen with
  | nil => exact iff_of_true rfl fun earlier later split => by simp at split
  | cons character rest ih =>
    have further := ih (character :: seen)
    rw [List.cons_append] at further
    rw [lowerAmid, lowerAmid, List.append_nil]
    by_cases isSigma : character = 'Σ'
    · subst isSigma
      have same : (if isFinalSigma (seen ++ before) (rest ++ after) then 'ς' else 'σ') =
          (if isFinalSigma seen rest then 'ς' else 'σ') ↔
            isFinalSigma (seen ++ before) (rest ++ after) = isFinalSigma seen rest := by
        cases isFinalSigma (seen ++ before) (rest ++ after) <;> cases isFinalSigma seen rest <;> decide
      rw [lowerBetween_sigma, lowerBetween_sigma, List.singleton_append, List.singleton_append,
        List.cons_eq_cons, same, further]
      constructor
      · intro known earlier later split
        cases earlier with
        | nil => exact (List.cons.inj split).2 ▸ known.1
        | cons first earlier =>
          obtain ⟨rfl, remains⟩ := List.cons.inj split
          simpa using known.2 earlier later remains
      · intro known
        refine ⟨known [] rest rfl, fun earlier later split => ?_⟩
        simpa using known ('Σ' :: earlier) later (by rw [split, List.cons_append])
    · rw [lowerBetween_alone isSigma, lowerBetween_alone isSigma _ rest,
        List.append_cancel_left_eq, further]
      constructor
      · intro known earlier later split
        cases earlier with
        | nil => exact absurd (List.cons.inj split).1 isSigma
        | cons first earlier =>
          obtain ⟨rfl, remains⟩ := List.cons.inj split
          simpa using known earlier later remains
      · intro known earlier later split
        simpa using known (character :: earlier) later (by rw [split, List.cons_append])

/-- A piece comes out as it does alone exactly if its sigmas do. -/
theorem lowerAmid_eq_iff (piece : List Char) :
    lowerAmid before after piece = lowerAmid [] [] piece ↔ SigmasStay before piece after := by
  rw [SigmasStay, ← List.nil_append before, lowerAmid_eq_iff_from]
  simp only [List.append_nil]

theorem sigmasStay_of_free {piece : List Char} (free : 'Σ' ∉ piece) : SigmasStay before piece after := by
  intro earlier later split
  exact absurd (by simp [split]) free

theorem startsCased_append {inner : List Char} (uncased : startsCased before = false) :
    startsCased (inner ++ before) = startsCased inner := by
  induction inner with
  | nil => exact uncased
  | cons character rest ih =>
    unfold startsCased at ih ⊢
    by_cases ignorable : isCaseIgnorable character = true
    · rw [List.cons_append, List.dropWhile_cons_of_pos ignorable, List.dropWhile_cons_of_pos ignorable, ih]
    · rw [List.cons_append, List.dropWhile_cons_of_neg ignorable, List.dropWhile_cons_of_neg ignorable]

theorem sigmasStay_of_uncased (uncased : startsCased before = false) (uncased' : startsCased after = false)
    (piece : List Char) : SigmasStay before piece after := by
  intro earlier later _
  rw [isFinalSigma, isFinalSigma, startsCased_append uncased, startsCased_append uncased']

end Forms

theorem length_lowerAmid (before after piece : List Char) :
    (lowerAmid before after piece).length = (lowerAmid [] [] piece).length := by
  have alike (character : Char) (before after before' after' : List Char) :
      (lowerBetween before character after).length = (lowerBetween before' character after').length := by
    by_cases isSigma : character = 'Σ'
    · rw [isSigma, lowerBetween_sigma, lowerBetween_sigma]
      rfl
    · rw [lowerBetween_alone isSigma, lowerBetween_alone isSigma before']
  have any (before after before' after' : List Char) :
      (lowerAmid before after piece).length = (lowerAmid before' after' piece).length := by
    induction piece generalizing before before' with
    | nil => rfl
    | cons character rest ih =>
      rw [lowerAmid, lowerAmid, List.length_append, List.length_append, ih _ (character :: before'),
        alike character before _ before']
  exact any before after [] []

section Tables

/-- No character is in stretches of both tables. -/
def areApart (ranges others : List (Nat × Nat)) : Bool :=
  ranges.all fun (first, last) => others.all fun (start, stop) => last < start || stop < first

theorem not_inRanges_of_areApart {ranges others : List (Nat × Nat)} (apart : areApart ranges others = true)
    {character : Char} (inside : inRanges ranges character = true) : inRanges others character = false := by
  obtain ⟨⟨first, last⟩, listed, within⟩ := List.any_eq_true.mp inside
  refine List.any_eq_false.mpr fun ⟨start, stop⟩ listed' within' => ?_
  have order := List.all_eq_true.mp (List.all_eq_true.mp apart _ listed) _ listed'
  simp only [Bool.and_eq_true, Bool.or_eq_true, decide_eq_true_iff] at within within' order
  omega

/-- The blank characters and the hyphen: what an action asks to stand next to a piece. -/
private def separators : List (Nat × Nat) := (0x2d, 0x2d) :: blankRanges

private theorem tables_areApart :
    (areApart separators casedRanges && areApart separators ignorableRanges &&
      areApart separators (lowerRuns.map fun run => (run.first, run.last)) &&
      areApart (lowerRuns.map fun run => ((run.first + run.shift).toNat, (run.last + run.shift).toNat))
        blankRanges) = true := by
  set_option maxRecDepth 1000 in rfl

private theorem isBlank_lowerCharacter {character : Char} (solid : isBlank character = false) :
    isBlank (lowerCharacter character) = false := by
  have apart := (Bool.and_eq_true_iff.mp tables_areApart).2
  have null : isBlank (Char.ofNat 0) = false := by decide
  unfold lowerCharacter
  split
  · next run found =>
    have inside := List.find?_some found
    simp only [CaseRun.holds, Bool.and_eq_true, decide_eq_true_iff] at inside
    by_cases valid : (character.toNat + run.shift).toNat.isValidChar
    · have code : (Char.ofNat (character.toNat + run.shift).toNat).toNat =
          (character.toNat + run.shift).toNat := by
        rw [Char.ofNat, dif_pos valid]
        rfl
      refine not_inRanges_of_areApart apart (List.any_eq_true.mpr ⟨_, List.mem_map_of_mem
        (List.mem_of_find?_eq_some found), ?_⟩)
      simp only [code, Bool.and_eq_true, decide_eq_true_iff]
      omega
    · have isNull : Char.ofNat (character.toNat + run.shift).toNat = Char.ofNat 0 := by
        rw [Char.ofNat, dif_neg valid]
        rfl
      rw [isNull, null]
  · exact solid

section Separator

variable {separator : Char} (separates : inRanges separators separator = true)
include separates

private theorem startsCased_separator (rest : List Char) : startsCased (separator :: rest) = false := by
  obtain ⟨⟨⟨uncased, solid⟩, _⟩, _⟩ := by simpa only [Bool.and_eq_true] using tables_areApart
  have solid : isCaseIgnorable separator = false := not_inRanges_of_areApart solid separates
  rw [startsCased, List.dropWhile_cons_of_neg (Bool.eq_false_iff.mp solid)]
  exact not_inRanges_of_areApart uncased separates

private theorem lowerBetween_separator (before after : List Char) :
    lowerBetween before separator after = [separator] := by
  obtain ⟨⟨_, apart⟩, _⟩ := by simpa only [Bool.and_eq_true] using tables_areApart
  have other {character : Char} (outside : inRanges separators character = false) : separator ≠ character :=
    fun same => Bool.false_ne_true (outside.symm.trans (same ▸ separates))
  have unchanged : lowerRuns.find? (·.holds separator.toNat) = none := by
    refine List.find?_eq_none.mpr fun run listed inside => ?_
    have outside := List.any_eq_false.mp (not_inRanges_of_areApart apart separates) _
      (List.mem_map_of_mem listed)
    simp only [CaseRun.holds, Bool.and_eq_true, decide_eq_true_iff] at inside outside
    exact outside inside.1
  rw [lowerBetween, if_neg (other (by decide)), if_neg (other (by decide)), lowerCharacter, unchanged]

end Separator

section Blank

variable {blank : Char} (isBlank' : isBlank blank = true)
include isBlank'

private theorem separates_blank : inRanges separators blank = true :=
  Bool.or_eq_true_iff.mpr (.inr isBlank')

theorem startsCased_blank (rest : List Char) : startsCased (blank :: rest) = false :=
  startsCased_separator (separates_blank isBlank') rest

theorem lowerBetween_blank (before after : List Char) : lowerBetween before blank after = [blank] :=
  lowerBetween_separator (separates_blank isBlank') before after

end Blank

theorem startsCased_hyphen (rest : List Char) : startsCased ('-' :: rest) = false :=
  startsCased_separator (by decide) rest

theorem lowerBetween_hyphen (before after : List Char) : lowerBetween before '-' after = ['-'] :=
  lowerBetween_separator (by decide) before after

theorem isBlank_of_mem_lowerBetween {before after : List Char} {character lowered : Char}
    (solid : isBlank character = false) (member : lowered ∈ lowerBetween before character after) :
    isBlank lowered = false := by
  unfold lowerBetween at member
  split at member
  · rw [List.mem_singleton.mp member]
    split <;> decide
  · split at member
    · rcases List.mem_cons.mp member with rfl | further
      · decide
      · rw [List.mem_singleton.mp further]
        decide
    · rw [List.mem_singleton.mp member]
      exact isBlank_lowerCharacter solid

end Tables

section Words

variable {before after text : List Char}

theorem isBlank_of_mem_lowerAmid (solid : ∀ character ∈ text, isBlank character = false) :
    ∀ lowered ∈ lowerAmid before after text, isBlank lowered = false := by
  induction text generalizing before with
  | nil => exact fun _ impossible => absurd impossible List.not_mem_nil
  | cons character rest ih =>
    obtain ⟨first, further⟩ := List.forall_mem_cons.mp solid
    intro lowered member
    rcases List.mem_append.mp member with here | later
    · exact isBlank_of_mem_lowerBetween first here
    · exact ih further lowered later

theorem lowerAmid_eq_nil_iff : lowerAmid before after text = [] ↔ text = [] := by
  cases text with
  | nil => exact iff_of_true rfl rfl
  | cons character rest =>
    refine iff_of_false (fun empty => ?_) (List.cons_ne_nil _ _)
    have none := (List.append_eq_nil_iff.mp empty).1
    unfold lowerBetween at none
    split at none
    · cases none
    · split at none <;> cases none

theorem startsCased_of_startsBlank (starts : startsBlank text = true) : startsCased text = false := by
  cases text with
  | nil => rfl
  | cons blank rest => exact startsCased_blank starts rest

theorem startsCased_of_endsBlank (ends : endsBlank text = true) : startsCased text.reverse = false := by
  refine startsCased_of_startsBlank ?_
  rwa [startsBlank, List.head?_reverse]

theorem startsBlank_lowerAmid (starts : startsBlank text = true) :
    startsBlank (lowerAmid before after text) = true := by
  cases text with
  | nil => rfl
  | cons blank rest =>
    rw [lowerAmid, lowerBetween_blank starts]
    exact starts

theorem endsBlank_lowerAmid (ends : endsBlank text = true) :
    endsBlank (lowerAmid before after text) = true := by
  rcases List.eq_nil_or_concat text with rfl | ⟨front, blank, rfl⟩
  · rfl
  · rw [endsBlank, List.concat_eq_append, List.getLast?_concat] at ends
    have last : lowerAmid (front.reverse ++ before) after [blank] = [blank] :=
      (List.append_nil _).trans (lowerBetween_blank ends _ _)
    rw [List.concat_eq_append, lowerAmid_append, last, endsBlank, List.getLast?_concat]
    exact ends

end Words
end SelectorEngine.Text
