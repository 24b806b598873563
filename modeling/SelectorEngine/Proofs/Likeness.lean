import SelectorEngine.Proofs.Compile.Fronted
import SelectorEngine.Proofs.Meaning.Compound
import SelectorEngine.Proofs.Union.Compiling

/-! Lists that match the same. What a list matches follows from what its groups say; so two lists match the
same if their groups say the same of every element, however different they are compiled. -/
namespace SelectorEngine

variable {ν σ : Type}

namespace SelectorList

open CompileM

/-- Whatever was remembered, both lists can be compiled, and they give the same answers. -/
def MatchAlike (first second : SelectorList) (options : Options ν σ) (given : Option (MatchContext ν)) :
    Prop :=
  ∃ answer, first.Matches options given answer ∧ second.Matches options given answer

section

variable {options : Options ν σ} {given : Option (MatchContext ν)} {first second : SelectorList}
  {holds holds' : ν → Prop}

theorem MatchesWhere.alike (matches' : first.MatchesWhere options given holds)
    (matches'' : second.MatchesWhere options given holds')
    (same : ∀ node, options.tree.isElement node = true → (holds node ↔ holds' node)) :
    MatchAlike first second options given := by
  obtain ⟨answer, answers, meant⟩ := matches'
  obtain ⟨counterpart, answers', meant'⟩ := matches''
  have equal : answer = counterpart := by
    funext node
    rw [Bool.eq_iff_iff, meant, meant']
    exact and_congr_right (same node)
  exact ⟨answer, answers, equal ▸ answers'⟩

theorem MatchesWhere.congr (matches' : first.MatchesWhere options given holds)
    (same : ∀ node, options.tree.isElement node = true → (holds node ↔ holds' node)) :
    first.MatchesWhere options given holds' := by
  obtain ⟨answer, answers, meant⟩ := matches'
  exact ⟨answer, answers, fun node => (meant node).trans (and_congr_right (same node))⟩

/-- Without a session nothing is ever compiled, so that there may as well be one. -/
theorem MatchesWhere.of_session (each : Session σ → first.MatchesWhere options given holds) :
    first.MatchesWhere options given holds := by
  classical
  refine ⟨fun node => decide (options.tree.isElement node = true ∧ holds node), fun session tidy made => ?_,
    fun node => decide_eq_true_iff⟩
  obtain ⟨answer, answers, meant⟩ := each session
  have same : answer = fun node => decide (options.tree.isElement node = true ∧ holds node) := by
    funext node
    rw [Bool.eq_iff_iff, decide_eq_true_iff, meant]
  exact same ▸ answers session tidy made

end

section Default

variable {options : Options ν σ} (builtin : options.custom = {}) (root : options.root = .alwaysTrue)
  (bears : options.tree.Remembers)
include builtin root bears

/-- Compounds that say the same, in every context, match the same in the given one. -/
theorem MatchAlike.of_compounds (relative : options.flags.relativeSelector = true) {group other : Group}
    (compound : Selector.isRelative [group] = false) (compound' : Selector.isRelative [other] = false)
    (unfolded : uses (· == "icontains") [group] = false)
    (unfolded' : uses (· == "icontains") [other] = false)
    (mention : group.any Token.mentionsScope = other.any Token.mentionsScope)
    {given : Option (MatchContext ν)} (same : ∀ context node,
      (options.core.reading depth).Holds context group node ↔
        (options.core.reading depth).Holds context other node)
    (compiles : Compiles [group] options given) (compiles' : Compiles [other] options given) :
    MatchAlike [group] [other] options given :=
  (matchesWhere_of_compiles builtin root relative bears unfolded compiles).alike
    (matchesWhere_of_compiles builtin root relative bears unfolded' compiles') fun node _ =>
      Reading.someHolds_congr_of_compounds
        (Selector.compound_of_isRelative compound (List.mem_singleton_self group))
        (Selector.compound_of_isRelative compound' (List.mem_singleton_self other)) mention (same _ node)

variable {selectors : SelectorList} (unfolded : selectors.uses (· == "icontains") = false)
  (free : options.context = none) (accepted : isRefused options selectors = false)
include unfolded free accepted

/-- Without a context nothing is anchored, so that relative selectors being allowed makes no difference. -/
theorem matchesWhere_of_accepted
    (plain : ∀ group ∈ selectors, Selector.startsWithCombinator group = false) :
    selectors.MatchesWhere options none ((options.core.reading depth).someHolds none false selectors) := by
  refine .of_session fun session => ?_
  cases relative : options.flags.relativeSelector with
  | true =>
    have compiles : selectors.Compiles options none :=
      ⟨session, gives_of_accepted builtin (root ▸ rfl) accepted session⟩
    have matched := matchesWhere_of_compiles builtin root relative bears unfolded compiles
    rwa [Option.map_none, Prepared.anchors_eq_false free, free] at matched
  | false =>
    -- What is compiled without relative selectors is known through what is compiled unanchored.
    let wide : Options ν σ := { options with flags := { options.flags with relativeSelector := true } }
    have builtinWide : wide.custom = {} := builtin
    have rootWide : wide.root = .alwaysTrue := root
    have builtinLoose : wide.unanchored.custom = {} := builtin
    have rootLoose : wide.unanchored.root = .alwaysTrue := root
    have acceptedLoose : isRefused wide.unanchored selectors = false := by
      unfold isRefused at accepted ⊢
      exact (Bool.or_eq_false_iff.mp accepted).2
    obtain ⟨query, after, compiled⟩ : ∃ query after,
        Gives (selectors.compile wide.unanchored none) session query after :=
      gives_of_accepted builtinLoose (rootLoose ▸ rfl) acceptedLoose session
    have narrow : wide.withoutRelative = options := by
      simp only [wide, Options.withoutRelative, ← relative]
    have agree : Agree Query.Alike (selectors.compile wide.unanchored none)
        (selectors.compile wide.withoutRelative none) :=
      agree_unanchored_withoutRelative builtinWide rfl rootWide plain none
    rw [narrow] at agree
    have meant := passes_compile builtinLoose rootLoose rfl compiled none
    have unscoped : wide.unanchored.context.or none = none := by
      simp [wide, Options.unanchored, free]
    rw [unscoped] at meant
    exact ⟨_, (compilesTo_of_agree builtin root bears unfolded agree compiled).matches, meant⟩

end Default

theorem matchesWhere_group_of_accepted {options : Options ν σ} (builtin : options.custom = {})
    (root : options.root = .alwaysTrue) (bears : options.tree.Remembers) (free : options.context = none)
    {group : Group} (unfolded : uses (· == "icontains") [group] = false)
    (accepted : isRefused options [group] = false) (plain : Selector.startsWithCombinator group = false) :
    MatchesWhere [group] options none ((options.core.reading depth).Holds none group) := by
  refine (matchesWhere_of_accepted builtin root bears unfolded free accepted
    (List.forall_mem_singleton.mpr plain)).congr fun node _ => ?_
  rw [Reading.someHolds_singleton, Option.any_none,
    Selector.written_of_absolute (Selector.startsRelative_of_plain plain)]

end SelectorList
end SelectorEngine
