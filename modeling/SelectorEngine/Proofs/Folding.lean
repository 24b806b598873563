import SelectorEngine.Proofs.Compile.Alone
import SelectorEngine.Proofs.Meaning.Attribute
import SelectorEngine.Proofs.Transparency

/-! Comparing without case. Texts are lower-cased as wholes before they are compared, so what is found with
case is found without it where no capital sigma of the value changes its form. Next to blanks, hyphens and the
ends of a text none does; in front of a text, at its end or inside of it one may. -/
namespace SelectorEngine

variable {ν σ : Type}

theorem Text.lower_infix_of_stays {piece whole : String} {front rest : List Char}
    (split : whole.toList = front ++ (piece.toList ++ rest))
    (stay : SigmasStay front.reverse piece.toList rest) : (lower piece).toList <:+: (lower whole).toList := by
  rw [lower_split split, (lowerAmid_eq_iff _).mpr stay, toList_lower, ← List.append_assoc]
  exact List.infix_append _ _ _

namespace AttributeSelector

variable {basis : Basis ν} {selector : AttributeSelector} {node : ν} {front rest : List Char}

def inMode (selector : AttributeSelector) (caseMode : CaseMode) : AttributeSelector :=
  { selector with caseMode }

/-- The attribute that the selector names, in letters as the flags have them. -/
def found (basis : Basis ν) (selector : AttributeSelector) (node : ν) : Option String :=
  basis.tree.attributeValue node (AttributeTest.fold basis.flags.foldsAttributeNames selector.name)

/-- The value stands at a place of the action, letter for letter. -/
def StandsAt (basis : Basis ν) (selector : AttributeSelector) (node : ν) (front rest : List Char) : Prop :=
  (∃ whole, selector.found basis node = some whole ∧
    whole.toList = front ++ (selector.value.toList ++ rest)) ∧ selector.action.fits front rest = true

theorem holds_sensitive_iff (placed : selector.action.isPlaced) :
    (selector.inMode .sensitive).Holds basis node ↔ (selector.inMode .sensitive).IsUsable basis.flags ∧
      ∃ front rest, selector.StandsAt basis node front rest := by
  have placed' : (selector.inMode .sensitive).action.isPlaced := placed
  exact holds_iff_place placed'

theorem holds_insensitive_iff (placed : selector.action.isPlaced) :
    (selector.inMode .insensitive).Holds basis node ↔ (selector.inMode .insensitive).IsUsable basis.flags ∧
      ∃ front rest, (∃ whole, selector.found basis node = some whole ∧
        (Text.lower whole).toList = front ++ ((Text.lower selector.value).toList ++ rest)) ∧
          selector.action.fits front rest = true := by
  have placed' : (selector.inMode .insensitive).action.isPlaced := placed
  exact holds_iff_place placed'

theorem isUsable_insensitive {flags : Flags} (usable : (selector.inMode .sensitive).IsUsable flags) :
    (selector.inMode .insensitive).IsUsable flags := by
  have filled : selector.value.toList ≠ [] → (Text.lower selector.value).toList ≠ [] := by
    rw [Text.toList_lower, ne_eq, ne_eq, Text.lowerAmid_eq_nil_iff]
    exact id
  have solid (characters : ∀ character ∈ selector.value.toList, Text.isBlank character = false) :
      ∀ character ∈ (Text.lower selector.value).toList, Text.isBlank character = false := by
    rw [Text.toList_lower]
    exact Text.isBlank_of_mem_lowerAmid characters
  obtain ⟨name, action, value, caseMode, space⟩ := selector
  rw [isUsable_iff] at usable ⊢
  cases action with
  | element => exact usable.imp filled solid
  | start => exact filled usable
  | «end» => exact filled usable
  | any => exact filled usable
  | _ => trivial

/-- What is found with case is found without it at a place where the sigmas of the value stay. -/
theorem holds_insensitive_of_stays (placed : selector.action.isPlaced)
    (holds : (selector.inMode .sensitive).Holds basis node) (stands : selector.StandsAt basis node front rest)
    (stay : Text.SigmasStay front.reverse selector.value.toList rest) :
    (selector.inMode .insensitive).Holds basis node := by
  have usable := isUsable_insensitive ((holds_sensitive_iff placed).mp holds).1
  obtain ⟨⟨whole, has, split⟩, fits⟩ := stands
  refine (holds_insensitive_iff placed).mpr ⟨usable, _, _, ⟨whole, has, ?_⟩,
    AttributeAction.fits_lowerAmid fits [] (selector.value.toList ++ rest)
      (selector.value.toList.reverse ++ front.reverse) []⟩
  rw [Text.lower_split split, (Text.lowerAmid_eq_iff _).mpr stay, ← Text.toList_lower]

theorem holds_insensitive_of_free (placed : selector.action.isPlaced) (free : 'Σ' ∉ selector.value.toList)
    (holds : (selector.inMode .sensitive).Holds basis node) :
    (selector.inMode .insensitive).Holds basis node := by
  obtain ⟨_, front, rest, stands⟩ := (holds_sensitive_iff placed).mp holds
  exact holds_insensitive_of_stays placed holds stands (Text.sigmasStay_of_free free)

theorem holds_insensitive_of_bounded (bounded : selector.action.isBounded)
    (holds : (selector.inMode .sensitive).Holds basis node) :
    (selector.inMode .insensitive).Holds basis node := by
  obtain ⟨_, front, rest, stands⟩ := (holds_sensitive_iff bounded.isPlaced).mp holds
  obtain ⟨before, after⟩ := AttributeAction.startsCased_of_fits bounded stands.2
  exact holds_insensitive_of_stays bounded.isPlaced holds stands
    (Text.sigmasStay_of_uncased before after _)

/-- At the start and at the end there is one place only, so there the sigmas decide. -/
theorem stays_of_holds_insensitive (outer : selector.action = .start ∨ selector.action = .end)
    (stands : selector.StandsAt basis node front rest)
    (folded : (selector.inMode .insensitive).Holds basis node) :
    Text.SigmasStay front.reverse selector.value.toList rest := by
  have placed : selector.action.isPlaced := by
    rcases outer with action | action <;> rw [action] <;> exact ⟨nofun, nofun⟩
  obtain ⟨⟨whole, has, split⟩, fits⟩ := stands
  obtain ⟨_, front', rest', ⟨_, has', split'⟩, fits'⟩ := (holds_insensitive_iff placed).mp folded
  cases has.symm.trans has'
  have length := Text.length_lowerAmid front.reverse rest selector.value.toList
  rw [Text.lower_split split, Text.toList_lower selector.value] at split'
  rw [← Text.lowerAmid_eq_iff]
  rcases outer with action | action <;> rw [action] at fits fits'
  · have first : front = [] := List.isEmpty_iff.mp fits
    have first' : front' = [] := List.isEmpty_iff.mp fits'
    subst first first'
    exact (List.append_inj (List.append_cancel_left (split' : [] ++ _ = [] ++ _)) length).1
  · have last : rest = [] := List.isEmpty_iff.mp fits
    have last' : rest' = [] := List.isEmpty_iff.mp fits'
    subst last last'
    have ends : _ ++ (_ ++ []) = front' ++ (_ ++ []) := split'
    simp only [List.append_nil] at ends
    exact (List.append_inj' ends length).2

end AttributeSelector

namespace SelectorList

/-- What is matched with case is matched without it, except where a capital sigma of the value takes another
form in the text that was found than it takes in the value alone. At the start and at the end of an attribute
it is then not matched; as a whole, in front of a hyphen or as a word it always is. -/
theorem insensitive_matches_of_sensitive {options : Options ν σ} (builtin : options.custom = {})
    (root : options.root = .alwaysTrue) (free : options.context = none) :
    (∀ selector : AttributeSelector, selector.action.isPlaced → ∃ cased folded : ν → Bool,
      Matches [[.attribute { selector with caseMode := .sensitive }]] options none cased ∧
      Matches [[.attribute { selector with caseMode := .insensitive }]] options none folded ∧
      ∀ node, cased node = true →
        (selector.action.isBounded ∨ 'Σ' ∉ selector.value.toList → folded node = true) ∧
        ∀ front rest, selector.StandsAt options.toBasis node front rest →
          (Text.SigmasStay front.reverse selector.value.toList rest → folded node = true) ∧
          (selector.action = .start ∨ selector.action = .end → folded node = true →
            Text.SigmasStay front.reverse selector.value.toList rest)) ∧
    (options.flags.cacheResults = false → ∀ piece, ∃ cased folded : ν → Bool,
      Matches [[Selector.pseudoWith "contains" piece]] options none cased ∧
      Matches [[Selector.pseudoWith "icontains" piece]] options none folded ∧
      ∀ node, cased node = true →
        ('Σ' ∉ piece.toList → folded node = true) ∧
        ∀ front rest, (options.tree.text node).toList = front ++ (piece.toList ++ rest) →
          Text.SigmasStay front.reverse piece.toList rest → folded node = true) := by
  constructor
  · intro selector placed
    obtain ⟨cased, casedly, meansCased⟩ :=
      matchesWhere_attribute builtin root free (selector.inMode .sensitive)
    obtain ⟨folded, foldedly, meansFolded⟩ :=
      matchesWhere_attribute builtin root free (selector.inMode .insensitive)
    refine ⟨cased, folded, casedly, foldedly, fun node passes => ?_⟩
    obtain ⟨element, holds⟩ := (meansCased node).mp passes
    have passesFolded := (meansFolded node).trans (and_iff_right element)
    refine ⟨fun tame => passesFolded.mpr ?_, fun front rest stands =>
      ⟨fun stay => passesFolded.mpr ?_, fun outer foldedPasses => ?_⟩⟩
    · rcases tame with bounded | sigmaFree
      · exact AttributeSelector.holds_insensitive_of_bounded bounded holds
      · exact AttributeSelector.holds_insensitive_of_free placed sigmaFree holds
    · exact AttributeSelector.holds_insensitive_of_stays placed holds stands stay
    · exact AttributeSelector.stays_of_holds_insensitive outer stands (passesFolded.mp foldedPasses)
  · intro forgets piece
    obtain ⟨cased, casedly, meansCased⟩ :=
      matchesWhere_text builtin root free forgets (.inl ⟨rfl, rfl⟩) piece
    obtain ⟨folded, foldedly, meansFolded⟩ :=
      matchesWhere_text builtin root free forgets (.inr ⟨rfl, rfl⟩) piece
    refine ⟨cased, folded, casedly, foldedly, fun node passes => ?_⟩
    obtain ⟨element, front, rest, split⟩ := (meansCased node).mp passes
    have passesFolded := (meansFolded node).trans (and_iff_right element)
    rw [List.append_assoc] at split
    exact ⟨fun sigmaFree => passesFolded.mpr
        (Text.lower_infix_of_stays split.symm (Text.sigmasStay_of_free sigmaFree)),
      fun front rest split stay => passesFolded.mpr (Text.lower_infix_of_stays split stay)⟩

theorem insensitive_matches_of_sensitive_for_word :
    ∃ arena : Arena, Arena.build? [(0, .element "p" [("title", "ΟΔΟΣ ΑΒΓ")]), (1, .text "ÄÖÜ")] =
        some arena ∧
      let options : Options Nat Unit := (Options.ofTree arena.view).remembering false
      let word : AttributeSelector := { name := "title", action := .element, value := "ΟΔΟΣ" }
      (∃ cased folded : Nat → Bool,
        Matches [[.attribute { word with caseMode := .sensitive }]] options none cased ∧
        Matches [[.attribute { word with caseMode := .insensitive }]] options none folded ∧
        ∀ node, cased node = true → folded node = true) ∧
      ∃ cased folded : Nat → Bool,
        Matches [[Selector.pseudoWith "contains" "ÖÜ"]] options none cased ∧
        Matches [[Selector.pseudoWith "icontains" "ÖÜ"]] options none folded ∧
        ∀ node, cased node = true → folded node = true := by
  obtain ⟨arena, built⟩ : ∃ arena, Arena.build? [(0, .element "p" [("title", "ΟΔΟΣ ΑΒΓ")]),
      (1, .text "ÄÖÜ")] = some arena := ⟨_, rfl⟩
  refine ⟨arena, built, ?_⟩
  intro options word
  obtain ⟨attributes, texts⟩ := insensitive_matches_of_sensitive (rfl : options.custom = {}) rfl rfl
  obtain ⟨cased, folded, casedly, foldedly, keeps⟩ := attributes word ⟨nofun, nofun⟩
  obtain ⟨cased', folded', casedly', foldedly', keeps'⟩ := texts rfl "ÖÜ"
  have bounded : word.action.isBounded := .inr (.inr rfl)
  exact ⟨⟨cased, folded, casedly, foldedly, fun node passes => (keeps node passes).1 (.inl bounded)⟩,
    cased', folded', casedly', foldedly', fun node passes => (keeps' node passes).1 (by decide)⟩

/-- The value ends in a sigma that is not the last letter of the word that was found. -/
theorem insensitive_misses_final_sigma :
    ∃ arena : Arena, Arena.build? [(0, .element "a" [("title", "ΟΔΟΣΑ")]), (1, .text "ΟΔΟΣΑ")] =
        some arena ∧
      let options : Options Nat Unit := (Options.ofTree arena.view).remembering false
      let start : AttributeSelector := { name := "title", action := .start, value := "ΟΔΟΣ" }
      (∃ cased folded : Nat → Bool,
        Matches [[.attribute { start with caseMode := .sensitive }]] options none cased ∧
        Matches [[.attribute { start with caseMode := .insensitive }]] options none folded ∧
        cased 1 = true ∧ folded 1 = false) ∧
      ∃ cased folded : Nat → Bool,
        Matches [[Selector.pseudoWith "contains" "ΟΔΟΣ"]] options none cased ∧
        Matches [[Selector.pseudoWith "icontains" "ΟΔΟΣ"]] options none folded ∧
        cased 1 = true ∧ folded 1 = false := by
  refine ⟨_, rfl, ?_⟩
  intro options start
  obtain ⟨cased, casedly, meansCased⟩ :=
    matchesWhere_attribute (rfl : options.custom = {}) rfl rfl (start.inMode .sensitive)
  obtain ⟨folded, foldedly, meansFolded⟩ :=
    matchesWhere_attribute (rfl : options.custom = {}) rfl rfl (start.inMode .insensitive)
  obtain ⟨casedText, casedTextly, meansCasedText⟩ :=
    matchesWhere_text (rfl : options.custom = {}) rfl rfl rfl (.inl ⟨rfl, rfl⟩) "ΟΔΟΣ"
  obtain ⟨foldedText, foldedTextly, meansFoldedText⟩ :=
    matchesWhere_text (rfl : options.custom = {}) rfl rfl rfl (.inr ⟨rfl, rfl⟩) "ΟΔΟΣ"
  have inText : "ΟΔΟΣ".toList <:+: "ΟΔΟΣΑ".toList := by decide
  have lost : ¬ (Text.lower "ΟΔΟΣ").toList <:+: (Text.lower "ΟΔΟΣΑ").toList := by
    rw [← Text.contains_iff]
    set_option maxRecDepth 2000 in decide
  refine ⟨⟨cased, folded, casedly, foldedly, (meansCased 1).mpr ⟨rfl, ?_⟩, ?_⟩, casedText, foldedText,
    casedTextly, foldedTextly, (meansCasedText 1).mpr ⟨rfl, inText⟩, ?_⟩
  · rw [AttributeSelector.holds_iff]
    decide
  · rw [← Bool.not_eq_true, meansFolded]
    rintro ⟨_, holds⟩
    have placed : start.action.isPlaced := ⟨nofun, nofun⟩
    have title : start.found options.toBasis 1 = some "ΟΔΟΣΑ" := by decide
    obtain ⟨_, front, rest, ⟨whole, has, split⟩, _⟩ :=
      (AttributeSelector.holds_insensitive_iff placed).mp holds
    cases title.symm.trans has
    exact lost ⟨front, rest, (List.append_assoc _ _ _).trans split.symm⟩
  · rw [← Bool.not_eq_true, meansFoldedText]
    exact fun passes => lost passes.2

end SelectorList
end SelectorEngine
