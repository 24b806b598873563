import SelectorEngine.Proofs.Positions

/-! What the structural pseudo-classes abbreviate. Being the first of the siblings, having none of them before
and standing at position one are the same, for whatever siblings count; so the pseudo-classes, the formula `1` and
the sibling combinators can be put for each other. -/
namespace SelectorEngine

variable {ν σ : Type}

namespace Reading

variable (reading : Reading ν) (context : Option (MatchContext ν)) (kind : Combinator) (node : ν)

theorem holds_universals_iff :
    reading.Holds context [Selector.universal, .combinator kind, Selector.universal] node ↔
      ∃ next, reading.leads kind node next := by
  simp [Holds, part, plainPart, Part.chain, Selector.universal]

/-- Where the combinator leads, the tag is the one that the element itself has. -/
theorem holds_tags_iff (name : String) :
    reading.Holds context [Selector.tag name, .combinator kind, Selector.tag name] node ↔
      (∃ next, reading.leads kind node next ∧
        reading.basis.tree.name next = reading.basis.tree.name node) ∧
      reading.Holds context [Selector.tag name] node := by
  simp only [Holds, part, plainPart, Part.chain, Selector.tag, List.map_cons, List.map_nil, List.reverse_cons,
    List.reverse_nil, List.nil_append, List.cons_append, and_true]
  constructor
  · intro known
    obtain ⟨named, next, leads, alike⟩ := known
    exact ⟨⟨next, leads, alike.trans named.symm⟩, named⟩
  · intro known
    obtain ⟨⟨next, leads, alike⟩, named⟩ := known
    exact ⟨named, next, leads, alike.trans named⟩

theorem holds_class_iff (kind : StructuralClass) :
    reading.Holds context [Selector.pseudo kind.name] node ↔ kind.holds reading.basis node = true := by
  rw [← reading.classHolds_structural context]
  exact and_iff_left trivial

theorem holds_not_class_iff (left : Group) (kind : StructuralClass) :
    reading.Holds context (left ++ [Selector.noneOf [[Selector.pseudo kind.name]]]) node ↔
      ¬ kind.holds reading.basis node = true ∧ reading.Holds context left node := by
  rw [holds_noneOf, someHolds_compound _ _ (List.forall_mem_singleton.mpr rfl), holds_class_iff]

end Reading

/-- The tree with its own identity, and the default flags. -/
def Basis.ofTree (tree : TreeView ν) : Basis ν where
  tree := tree
  same := tree.same
  flags := {}

namespace SelectorList

section Default

variable {appended : List Nat} {arena : Arena} (grown : arena.Grown appended) (acyclic : arena.IsAcyclic)
include grown acyclic

private theorem matchesWhere_default {group : Group} (plain : Selector.startsWithCombinator group = false)
    (unfolded : uses (· == "icontains") [group] = false)
    (accepted : isRefused (Options.ofTree arena.view : Options Nat σ) [group] = false) :
    MatchesWhere [group] (Options.ofTree arena.view : Options Nat σ) none
      (((Options.ofTree arena.view : Options Nat σ).core.reading depth).Holds none group) := by
  have bears : (Options.ofTree arena.view : Options Nat σ).tree.Remembers := grown.view_remembers acyclic
  exact matchesWhere_group_of_accepted rfl rfl bears rfl unfolded accepted plain

theorem matchesWhere_one (counting : Counting) :
    MatchesWhere [[Selector.pseudoWith counting.name "1"]] (Options.ofTree arena.view : Options Nat σ) none
      fun node => counting.position (Basis.ofTree arena.view) node = 0 := by
  have reads : Formula.read? "1" = some ⟨0, 1⟩ := by decide
  exact (matchesWhere_counting (σ := σ) grown acyclic {} counting reads).congr fun node _ =>
    counting.holds_one_iff

private theorem matchesWhere_class (kind : StructuralClass) :
    MatchesWhere [[Selector.pseudo kind.name]] (Options.ofTree arena.view : Options Nat σ) none
      fun node => kind.holds (Basis.ofTree arena.view) node = true := by
  have unfolded : uses (· == "icontains") [[Selector.pseudo kind.name]] = false := by
    cases kind <;> rfl
  have accepted : isRefused (Options.ofTree arena.view : Options Nat σ)
      [[Selector.pseudo kind.name]] = false := by cases kind <;> rfl
  refine (matchesWhere_default grown acyclic rfl unfolded accepted).congr fun node _ => ?_
  rw [Reading.holds_class_iff, Options.reading_basis]
  rfl

theorem matchesWhere_siblings :
    MatchesWhere [[Selector.universal, Selector.sibling, Selector.universal]]
      (Options.ofTree arena.view : Options Nat σ) none
      fun node => Counting.position ⟨false, false⟩ (Basis.ofTree arena.view) node ≠ 0 := by
  refine (matchesWhere_default grown acyclic rfl rfl rfl).congr fun node _ => ?_
  rw [Selector.sibling, Reading.holds_universals_iff, Options.reading_leads]
  exact Counting.exists_sibling_iff _ _

theorem matchesWhere_adjacent :
    MatchesWhere [[Selector.universal, Selector.adjacent, Selector.universal]]
      (Options.ofTree arena.view : Options Nat σ) none
      fun node => Counting.position ⟨false, false⟩ (Basis.ofTree arena.view) node ≠ 0 := by
  refine (matchesWhere_default grown acyclic rfl rfl rfl).congr fun node _ => ?_
  rw [Selector.adjacent, Reading.holds_universals_iff, Options.reading_leads]
  exact (Counting.exists_adjacent_iff _ _).trans (Counting.exists_sibling_iff _ _)

theorem matchesWhere_tag_siblings (name : String) :
    MatchesWhere [[Selector.tag name, Selector.sibling, Selector.tag name]]
      (Options.ofTree arena.view : Options Nat σ) none
      fun node => Counting.position ⟨false, true⟩ (Basis.ofTree arena.view) node ≠ 0 ∧
        ((Options.ofTree arena.view : Options Nat σ).core.reading depth).Holds none
          [Selector.tag name] node := by
  refine (matchesWhere_default grown acyclic rfl rfl rfl).congr fun node _ => ?_
  rw [Selector.sibling, Reading.holds_tags_iff, Options.reading_leads, Options.reading_basis]
  exact and_congr_left fun _ => Counting.exists_sibling_of_name_iff _ _

variable (once : appended.Nodup)
include once

theorem matchesWhere_first (counting : Counting) :
    MatchesWhere [[Selector.pseudo counting.first.name]] (Options.ofTree arena.view : Options Nat σ) none
      fun node => counting.position (Basis.ofTree arena.view) node = 0 :=
  (matchesWhere_class grown acyclic counting.first).congr fun _ element =>
    counting.first_holds_iff (fun _ _ => beq_iff_eq) (grown.view_isForest once acyclic) element

theorem matchesWhere_only (sameName : Bool) :
    MatchesWhere [[Selector.pseudo (Counting.only sameName).name]] (Options.ofTree arena.view : Options Nat σ)
      none fun node => ∀ fromEnd, Counting.position ⟨fromEnd, sameName⟩ (Basis.ofTree arena.view) node = 0 :=
  (matchesWhere_class grown acyclic (Counting.only sameName)).congr fun _ _ =>
    Counting.only_holds_iff (fun _ _ => beq_iff_eq) (grown.view_isForest once acyclic) sameName

private theorem matchesWhere_not_first (left : Group) (counting : Counting)
    (plain : Selector.startsWithCombinator
      (left ++ [Selector.noneOf [[Selector.pseudo counting.first.name]]]) = false)
    (unfolded : uses (· == "icontains")
      [left ++ [Selector.noneOf [[Selector.pseudo counting.first.name]]]] = false)
    (accepted : isRefused (Options.ofTree arena.view : Options Nat σ)
      [left ++ [Selector.noneOf [[Selector.pseudo counting.first.name]]]] = false) :
    MatchesWhere [left ++ [Selector.noneOf [[Selector.pseudo counting.first.name]]]]
      (Options.ofTree arena.view : Options Nat σ) none
      fun node => counting.position (Basis.ofTree arena.view) node ≠ 0 ∧
        ((Options.ofTree arena.view : Options Nat σ).core.reading depth).Holds none left node := by
  refine (matchesWhere_default grown acyclic plain unfolded accepted).congr fun node element => ?_
  rw [Reading.holds_not_class_iff, Options.reading_basis]
  exact and_congr_left fun _ => not_congr (counting.first_holds_iff (fun _ _ => beq_iff_eq)
    (grown.view_isForest once acyclic) element)

theorem matchesWhere_not_first_child :
    MatchesWhere [[Selector.noneOf [[Selector.pseudo "first-child"]]]]
      (Options.ofTree arena.view : Options Nat σ) none
      fun node => Counting.position ⟨false, false⟩ (Basis.ofTree arena.view) node ≠ 0 :=
  (matchesWhere_not_first grown acyclic once [] ⟨false, false⟩ rfl rfl rfl).congr
    fun _ _ => and_iff_left trivial

theorem matchesWhere_tag_not_first (name : String) :
    MatchesWhere [[Selector.tag name, Selector.noneOf [[Selector.pseudo "first-of-type"]]]]
      (Options.ofTree arena.view : Options Nat σ) none
      fun node => Counting.position ⟨false, true⟩ (Basis.ofTree arena.view) node ≠ 0 ∧
        ((Options.ofTree arena.view : Options Nat σ).core.reading depth).Holds none
          [Selector.tag name] node :=
  matchesWhere_not_first grown acyclic once [Selector.tag name] ⟨false, true⟩ rfl rfl rfl

theorem first_matches_alike_one (counting : Counting) :
    MatchAlike [[Selector.pseudo counting.first.name]] [[Selector.pseudoWith counting.name "1"]]
      (Options.ofTree arena.view : Options Nat σ) none :=
  (matchesWhere_first grown acyclic once counting).alike (matchesWhere_one grown acyclic counting)
    fun _ _ => Iff.rfl

/-- Standing alone is being the first from either end. -/
theorem only_matches_first_both_ways (sameName : Bool) :
    ∃ alone first last : Nat → Bool,
      Matches [[Selector.pseudo (Counting.only sameName).name]] (Options.ofTree arena.view : Options Nat σ)
        none alone ∧
      Matches [[Selector.pseudo (Counting.first ⟨false, sameName⟩).name]]
        (Options.ofTree arena.view : Options Nat σ) none first ∧
      Matches [[Selector.pseudo (Counting.first ⟨true, sameName⟩).name]]
        (Options.ofTree arena.view : Options Nat σ) none last ∧
      ∀ node, alone node = (first node && last node) := by
  obtain ⟨alone, answers, meant⟩ := matchesWhere_only (σ := σ) grown acyclic once sameName
  obtain ⟨first, answersFirst, meantFirst⟩ :=
    matchesWhere_first (σ := σ) grown acyclic once ⟨false, sameName⟩
  obtain ⟨last, answersLast, meantLast⟩ := matchesWhere_first (σ := σ) grown acyclic once ⟨true, sameName⟩
  refine ⟨alone, first, last, answers, answersFirst, answersLast, fun node => ?_⟩
  rw [Bool.eq_iff_iff, Bool.and_eq_true, meant, meantFirst, meantLast, ← and_and_left]
  exact and_congr_right fun _ => Bool.forall_bool

end Default

/-- The structural pseudo-classes match what the formulas and the sibling combinators match that they stand
for, wherever the element is. -/
theorem structural_matches_alike {appended : List Nat} {arena : Arena} (grown : arena.Grown appended)
    (once : appended.Nodup) (acyclic : arena.IsAcyclic) (name : String) :
    let options : Options Nat σ := Options.ofTree arena.view
    let notFirst := [[Selector.noneOf [[Selector.pseudo "first-child"]]]]
    MatchAlike [[Selector.pseudo "first-child"]] [[Selector.pseudoWith "nth-child" "1"]] options none ∧
    MatchAlike [[Selector.pseudo "last-child"]] [[Selector.pseudoWith "nth-last-child" "1"]] options none ∧
    MatchAlike [[Selector.pseudo "first-of-type"]] [[Selector.pseudoWith "nth-of-type" "1"]] options none ∧
    MatchAlike [[Selector.pseudo "last-of-type"]] [[Selector.pseudoWith "nth-last-of-type" "1"]] options
      none ∧
    (∃ alone first last : Nat → Bool, Matches [[Selector.pseudo "only-child"]] options none alone ∧
      Matches [[Selector.pseudo "first-child"]] options none first ∧
      Matches [[Selector.pseudo "last-child"]] options none last ∧
      ∀ node, alone node = (first node && last node)) ∧
    (∃ alone first last : Nat → Bool, Matches [[Selector.pseudo "only-of-type"]] options none alone ∧
      Matches [[Selector.pseudo "first-of-type"]] options none first ∧
      Matches [[Selector.pseudo "last-of-type"]] options none last ∧
      ∀ node, alone node = (first node && last node)) ∧
    MatchAlike [[Selector.universal, Selector.sibling, Selector.universal]] notFirst options none ∧
    MatchAlike [[Selector.universal, Selector.adjacent, Selector.universal]] notFirst options none ∧
    MatchAlike [[Selector.tag name, Selector.sibling, Selector.tag name]]
      [[Selector.tag name, Selector.noneOf [[Selector.pseudo "first-of-type"]]]] options none := by
  intro options notFirst
  have one := first_matches_alike_one (σ := σ) grown acyclic once
  have alone := only_matches_first_both_ways (σ := σ) grown acyclic once
  have notFirstChild := matchesWhere_not_first_child (σ := σ) grown acyclic once
  refine ⟨one ⟨false, false⟩, one ⟨true, false⟩, one ⟨false, true⟩, one ⟨true, true⟩, alone false, alone true,
    ?_, ?_, ?_⟩
  · exact (matchesWhere_siblings grown acyclic).alike notFirstChild fun _ _ => Iff.rfl
  · exact (matchesWhere_adjacent grown acyclic).alike notFirstChild fun _ _ => Iff.rfl
  · exact (matchesWhere_tag_siblings grown acyclic name).alike
      (matchesWhere_tag_not_first grown acyclic once name) fun _ _ => Iff.rfl

theorem structural_matches_alike_for_cousin :
    ∃ answer : Nat → Bool,
      Matches [[Selector.tag "b", Selector.sibling, Selector.tag "b"]]
        (Options.ofTree Arena.withCousin.view : Options Nat Unit) none answer ∧
      Matches [[Selector.tag "b", Selector.noneOf [[Selector.pseudo "first-of-type"]]]]
        (Options.ofTree Arena.withCousin.view : Options Nat Unit) none answer := by
  obtain ⟨appended, sprouted⟩ := Arena.exists_sprouted_withCousin
  obtain ⟨_, _, _, _, _, _, _, _, tags⟩ := structural_matches_alike (σ := Unit) sprouted.grown sprouted.once
    sprouted.ordered.isAcyclic "b"
  exact tags

end SelectorList
end SelectorEngine
