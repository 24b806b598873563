import SelectorEngine.Proofs.Likeness
import SelectorEngine.Proofs.Meaning.Position
import SelectorEngine.Proofs.Tree.Growth

/-! Positional pseudo-classes. Inside of an element they say at which positions an element stands among its
siblings, and nothing else. Elsewhere a formula that every position fits may match nothing: it does, if it is
spelled with a multiple of one and an offset that is not positive. -/
namespace SelectorEngine

variable {σ : Type}

/-- The default options of the tree, with other flags. -/
def Arena.optionsWith (arena : Arena) (flags : Flags) : Options Nat σ :=
  { Options.ofTree arena.view with flags }

namespace SelectorList

open CompileM

theorem isRefused_counting {ν : Type} (options : Options ν σ) (counting : Counting) {text : String}
    {formula : Formula} (reads : Formula.read? text = some formula) :
    isRefused options [[Selector.pseudoWith counting.name text]] = false := by
  have simple : (Selector.pseudoWith counting.name text).isCombinator = false := rfl
  have faultless : isFaultyClass counting.name (some text) = false := by
    obtain ⟨noAlias, named⟩ := counting.named
    simp [isFaultyClass, noAlias, named, BuiltinFilter.isFaulty, reads]
  rw [isRefused_token options simple, Selector.pseudoWith, Token.survey, faultless]

/-- A positional pseudo-class matches where its formula holds. -/
theorem matchesWhere_counting {appended : List Nat} {arena : Arena} (grown : arena.Grown appended)
    (acyclic : arena.IsAcyclic) (flags : Flags) (counting : Counting) {text : String} {formula : Formula}
    (reads : Formula.read? text = some formula) :
    MatchesWhere [[Selector.pseudoWith counting.name text]] (arena.optionsWith flags : Options Nat σ) none
      (counting.Holds (arena.optionsWith flags : Options Nat σ).core.toBasis text) := by
  have unfolded : uses (· == "icontains") [[Selector.pseudoWith counting.name text]] = false := by
    rcases counting with ⟨_ | _, _ | _⟩ <;> rfl
  have bears : (arena.optionsWith flags : Options Nat σ).tree.Remembers := grown.view_remembers acyclic
  have matched := matchesWhere_group_of_accepted rfl rfl bears rfl unfolded
    (isRefused_counting (arena.optionsWith flags) counting reads) rfl
  refine matched.congr fun node _ => ?_
  rw [← (Options.reading_basis (arena.optionsWith flags : Options Nat σ).core depth),
    ← Reading.classHolds_counting _ none]
  exact and_iff_left trivial

/-- Inside of an element, a positional pseudo-class matches the elements with a position that its formula
selects. The position is one more than the number of siblings that count before the element, or after it. -/
theorem matches_at_position {appended : List Nat} {arena : Arena} (grown : arena.Grown appended)
    (once : appended.Nodup) (acyclic : arena.IsAcyclic) (flags : Flags) (counting : Counting)
    {text : String} {formula : Formula} (reads : Formula.read? text = some formula) :
    ∃ answer : Nat → Bool,
      Matches [[Selector.pseudoWith counting.name text]] (arena.optionsWith flags : Options Nat σ) none
        answer ∧
      ∀ node parent, arena.view.isElement node = true → arena.view.elementParent node = some parent →
        ∃ before after, arena.children parent = before ++ node :: after ∧ node ∉ before ∧ node ∉ after ∧
          (answer node = true ↔ ∃ count : Nat, formula.step * count + formula.offset =
            (if counting.fromEnd then after else before).countP (counting.counts arena.view node) + 1) := by
  obtain ⟨answer, answers, meant⟩ := matchesWhere_counting grown acyclic flags counting reads
  refine ⟨answer, answers, fun node parent element climbs => ?_⟩
  have forest := grown.view_isForest once acyclic
  obtain ⟨before, after, split, fresh, rest⟩ := forest.siblings_split node
  have siblings : arena.view.siblings node = arena.children parent := by
    rw [forest.siblings_eq, (Option.filter_eq_some_iff.mp climbs).1]
    rfl
  have counted : counting.position (arena.optionsWith flags : Options Nat σ).core.toBasis node =
      (if counting.fromEnd then after else before).countP (counting.counts arena.view node) :=
    counting.position_eq (fun _ _ => beq_iff_eq) fresh rest split
  refine ⟨before, after, siblings ▸ split, fresh, rest, (meant node).trans ?_⟩
  have inside : (arena.view.elementParent node).isSome = true := Option.isSome_iff_exists.mpr ⟨parent, climbs⟩
  rw [counting.holds_iff_selects reads inside, counted, Formula.Selects]
  exact (and_iff_right element).trans (exists_congr fun _ => eq_comm)

theorem matches_at_position_from_end : ∃ answer : Nat → Bool,
    Matches [[Selector.pseudoWith "nth-last-child" "-n+2"]]
      (Arena.withCousin.optionsWith {} : Options Nat Unit) none answer ∧ answer 3 = true := by
  obtain ⟨appended, sprouted⟩ := Arena.exists_sprouted_withCousin
  have reads : Formula.read? "-n+2" = some ⟨-1, 2⟩ := by decide
  obtain ⟨answer, answers, meant⟩ := matches_at_position (σ := Unit) sprouted.grown sprouted.once
    sprouted.ordered.isAcyclic {} ⟨true, false⟩ reads
  obtain ⟨before, after, split, fresh, rest, selected⟩ := meant 3 1 rfl rfl
  have last : after = [4] := by
    have siblings : [2] ++ 3 :: [4] = before ++ 3 :: after := split
    have apart := (List.append_cons_inj_of_notMem (by decide : 3 ∉ [2]) (by decide : 3 ∉ [4])).mp siblings
    exact apart.2.2.symm
  refine ⟨answer, answers, selected.mpr ⟨0, ?_⟩⟩
  rw [last]
  rfl

/-- Two formulas that select the same positions match the same elements inside of an element. They match the
same elements elsewhere too, unless just one of them has a multiple of one and an offset that is not positive:
then they differ at each of those, because such a formula wants an element above. -/
theorem matches_alike_by_positions {appended : List Nat} {arena : Arena} (grown : arena.Grown appended)
    (acyclic : arena.IsAcyclic) (flags : Flags) (counting : Counting) {text text' : String}
    {formula formula' : Formula} (reads : Formula.read? text = some formula)
    (reads' : Formula.read? text' = some formula')
    (same : ∀ place : Int, 1 ≤ place → ((∃ count : Nat, formula.step * count + formula.offset = place) ↔
      ∃ count : Nat, formula'.step * count + formula'.offset = place)) :
    ∃ answer counterpart : Nat → Bool,
      Matches [[Selector.pseudoWith counting.name text]] (arena.optionsWith flags : Options Nat σ) none
        answer ∧
      Matches [[Selector.pseudoWith counting.name text']] (arena.optionsWith flags : Options Nat σ) none
        counterpart ∧
      ∀ node, arena.view.isElement node = true →
        (answer node = counterpart node ↔ (arena.view.elementParent node).isSome = true ∨
          (formula.step = 1 ∧ formula.offset ≤ 0 ↔ formula'.step = 1 ∧ formula'.offset ≤ 0)) := by
  obtain ⟨answer, answers, meant⟩ := matchesWhere_counting (σ := σ) grown acyclic flags counting reads
  obtain ⟨counterpart, answers', meant'⟩ :=
    matchesWhere_counting (σ := σ) grown acyclic flags counting reads'
  refine ⟨answer, counterpart, answers, answers', fun node element => ?_⟩
  have holds := (meant node).trans (and_iff_right element)
  have holds' := (meant' node).trans (and_iff_right element)
  have selects (index : Nat) : formula.Selects index ↔ formula'.Selects index := by
    simpa only [Formula.Selects, eq_comm] using same (index + 1) (by omega)
  rw [Bool.eq_iff_iff, holds, holds', counting.holds_iff_of_reads reads, counting.holds_iff_of_reads reads',
    ← selects]
  by_cases all : formula.step = 1 ∧ formula.offset ≤ 0
  · have selected := Formula.selects_of_all all
      (counting.position (arena.optionsWith flags : Options Nat σ).core.toBasis node)
    by_cases all' : formula'.step = 1 ∧ formula'.offset ≤ 0
    · rw [if_pos all, if_pos all']
      exact iff_of_true Iff.rfl (.inr (iff_of_true all all'))
    · rw [if_pos all, if_neg all', iff_true_right selected]
      exact (or_iff_left fun alike => all' (alike.mp all)).symm
  · by_cases all' : formula'.step = 1 ∧ formula'.offset ≤ 0
    · have selected := (selects _).mpr (Formula.selects_of_all all'
        (counting.position (arena.optionsWith flags : Options Nat σ).core.toBasis node))
      rw [if_neg all, if_pos all', iff_true_left selected]
      exact (or_iff_left fun alike => all (alike.mpr all')).symm
    · rw [if_neg all, if_neg all']
      exact iff_of_true Iff.rfl (.inr (iff_of_false all all'))

theorem matches_alike_by_positions_for_odd : ∃ answer counterpart : Nat → Bool,
    Matches [[Selector.pseudoWith "nth-of-type" "odd"]] (Arena.withCousin.optionsWith {} : Options Nat Unit)
      none answer ∧
    Matches [[Selector.pseudoWith "nth-of-type" "2n-5"]] (Arena.withCousin.optionsWith {} : Options Nat Unit)
      none counterpart ∧
    answer 1 = counterpart 1 := by
  obtain ⟨appended, sprouted⟩ := Arena.exists_sprouted_withCousin
  have reads : Formula.read? "odd" = some ⟨2, 1⟩ := by decide
  have reads' : Formula.read? "2n-5" = some ⟨2, -5⟩ := by decide
  have same (place : Int) (exists' : 1 ≤ place) :
      (∃ count : Nat, (2 : Int) * count + 1 = place) ↔ ∃ count : Nat, (2 : Int) * count + -5 = place := by
    constructor
    · intro known
      obtain ⟨count, reached⟩ := known
      exact ⟨count + 3, by omega⟩
    · intro known
      obtain ⟨count, reached⟩ := known
      exact ⟨count - 3, by omega⟩
  obtain ⟨answer, counterpart, answers, answers', alike⟩ := matches_alike_by_positions (σ := Unit)
    sprouted.grown sprouted.ordered.isAcyclic {} ⟨false, true⟩ reads reads' same
  exact ⟨answer, counterpart, answers, answers', (alike 1 rfl).mpr (.inr (by decide))⟩

/-- Every position is selected by `n` and by `n+1`, but the first of these wants an element above. -/
theorem formula_overlooks_top :
    (∃ appended, Arena.withElementsInside.Grown appended) ∧ Arena.withElementsInside.IsAcyclic ∧
      (∃ (formula formula' : Formula), Formula.read? "n" = some formula ∧
        Formula.read? "n+1" = some formula' ∧ ∀ place : Int, 1 ≤ place →
          ((∃ count : Nat, formula.step * count + formula.offset = place) ↔
            ∃ count : Nat, formula'.step * count + formula'.offset = place)) ∧
      (∃ (query : Query Nat Unit) (after : Session Unit),
        Gives (compile [[Selector.pseudoWith "nth-child" "n"]] (Options.ofTree Arena.withElementsInside.view)
          none) { host := () } query after ∧
        ((query.test 1).run after).1 = false) ∧
      ∃ (query : Query Nat Unit) (after : Session Unit),
        Gives (compile [[Selector.pseudoWith "nth-child" "n+1"]]
          (Options.ofTree Arena.withElementsInside.view) none) { host := () } query after ∧
        ((query.test 1).run after).1 = true := by
  obtain ⟨appended, sprouted⟩ := Arena.exists_sprouted_withElementsInside
  refine ⟨⟨appended, sprouted.grown⟩, sprouted.ordered.isAcyclic,
    ⟨⟨1, 0⟩, ⟨1, 1⟩, by decide, by decide, fun place exists' => ?_⟩, ⟨_, _, rfl, rfl⟩, ⟨_, _, rfl, rfl⟩⟩
  -- The position is reached by `n` after as many steps, and by `n+1` after one less.
  exact iff_of_true ⟨place.toNat, by dsimp only; omega⟩ ⟨(place - 1).toNat, by dsimp only; omega⟩

end SelectorList
end SelectorEngine
