import SelectorEngine.Proofs.Meaning.Documented
import SelectorEngine.Proofs.Selector.Occurrence

/-! Abbreviations in the documented reading. What an abbreviation stands for may have further abbreviations
in it, but this ends before the reading stops expanding them: an abbreviation means its list. -/
namespace SelectorEngine

variable {ν : Type}

namespace Selector

/-- Without abbreviations after so many expansions of the name. -/
def expandsWithin : Nat → String → Bool
  | 0, name => (abbreviations.lookup name).isNone
  | steps + 1, name => (abbreviations.lookup name).all fun selectors =>
    !selectors.uses fun inner => !expandsWithin steps inner

theorem uses_of_expandsWithin {steps : Nat} {name : String} {selectors : SelectorList}
    (stands : abbreviations.lookup name = some selectors) (expands : expandsWithin (steps + 1) name = true) :
    selectors.uses (fun inner => !expandsWithin steps inner) = false := by
  simpa [expandsWithin, stands] using expands

theorem expandsWithin_abbreviations {name : String} {selectors : SelectorList}
    (stands : abbreviations.lookup name = some selectors) :
    expandsWithin abbreviations.length name = true := by
  have every : ∀ entry ∈ abbreviations, expandsWithin abbreviations.length entry.1 = true := by
    decide
  exact every _ (mem_abbreviations stands)

end Selector

namespace Basis

variable (basis : Basis ν) {first second : SelectorList → Option (MatchContext ν) → ν → Prop}

theorem someHolds_congr {context : Option (MatchContext ν)} {anchored : Bool} {groups : SelectorList}
    (same : ∀ group ∈ groups, ∀ token ∈ group,
      (basis.documentedWith first).part context token =
        (basis.documentedWith second).part context token) :
    (basis.documentedWith first).someHolds context anchored groups =
      (basis.documentedWith second).someHolds context anchored groups := by
  ext node
  rw [Reading.someHolds_iff, Reading.someHolds_iff]
  apply exists_congr
  intro group
  apply and_congr_right
  intro listed
  have parts (token : Token)
      (member : token ∈ Selector.written (context.any MatchContext.isCollection) anchored group) :
      (basis.documentedWith first).part context token =
        (basis.documentedWith second).part context token := by
    rcases Selector.mem_written member with own | rfl | ⟨kind, rfl⟩
    · exact same group listed token own
    · rfl
    · rfl
  rw [Reading.holds_congr_of_part parts]

theorem documented_someHolds_congr {context : Option (MatchContext ν)} {anchored : Bool}
    {groups : SelectorList} {depth other : Nat}
    (same : ∀ group ∈ groups, ∀ token ∈ group,
      (basis.documented depth).part context token = (basis.documented other).part context token) :
    (basis.documented depth).someHolds context anchored groups =
      (basis.documented other).someHolds context anchored groups := by
  cases depth <;> cases other <;> exact someHolds_congr basis same

theorem part_congr {steps : Nat}
    (each : ∀ name selectors, Selector.abbreviations.lookup name = some selectors →
      Selector.expandsWithin steps name = true →
        ∀ context, first selectors context = second selectors context)
    {token : Token} (expands : token.uses (fun name => !Selector.expandsWithin steps name) = false)
    (context : Option (MatchContext ν)) :
    (basis.documentedWith first).part context token =
      (basis.documentedWith second).part context token := by
  induction token using Token.induct generalizing context with
  | pseudoClass name argument =>
    have within : Selector.expandsWithin steps name = true := by simpa [Token.uses] using expands
    have same : (basis.documentedWith first).ClassHolds name argument context =
        (basis.documentedWith second).ClassHolds name argument context := by
      unfold Reading.ClassHolds
      cases stands : Selector.abbreviations.lookup name with
      | some selectors => exact each name selectors stands within context
      | none => rfl
    exact congrArg Part.test same
  | subselect name groups ih =>
    have inside (context : Option (MatchContext ν)) (anchored : Bool) :
        (basis.documentedWith first).someHolds context anchored groups =
          (basis.documentedWith second).someHolds context anchored groups := by
      apply someHolds_congr
      intro group listed token member
      have inGroups := (Token.uses_subselect_eq_false expands).2
      exact ih group listed token member (SelectorList.uses_of_mem inGroups listed member) context
    rw [Reading.part, Reading.part]
    cases Subselect.ofName? name with
    | none => rfl
    | some kind =>
      cases kind with
      | anyOf => simp only [inside]
      | noneOf => simp only [inside]
      | has =>
        simp only [inside]
        rfl
  | _ => rfl

theorem documented_succ_part {steps : Nat} {token : Token}
    (expands : token.uses (fun name => !Selector.expandsWithin steps name) = false)
    (context : Option (MatchContext ν)) :
    (basis.documented (steps + 1)).part context token = (basis.documented steps).part context token := by
  induction steps generalizing token context with
  | zero =>
    apply part_congr basis _ expands
    intro name selectors stands within
    rw [Selector.expandsWithin, stands] at within
    cases within
  | succ steps ih =>
    apply part_congr basis _ expands
    intro name selectors stands within context
    have unfolded := Selector.uses_of_expandsWithin stands within
    exact basis.documented_someHolds_congr fun group listed token member =>
      ih (SelectorList.uses_of_mem unfolded listed member) context

/-- An abbreviation holds where its list holds. -/
theorem documented_expand {name : String} {selectors : SelectorList}
    (stands : Selector.abbreviations.lookup name = some selectors) (context : Option (MatchContext ν)) :
    (basis.documented Selector.abbreviations.length).expand selectors context =
      (basis.documented Selector.abbreviations.length).someHolds context false selectors := by
  obtain ⟨steps, length⟩ : ∃ steps, Selector.abbreviations.length = steps + 1 := ⟨_, rfl⟩
  have within := Selector.expandsWithin_abbreviations stands
  rw [length] at within ⊢
  have unfolded := Selector.uses_of_expandsWithin stands within
  apply basis.documented_someHolds_congr
  intro group listed token member
  exact (basis.documented_succ_part (SelectorList.uses_of_mem unfolded listed member) context).symm

end Basis
end SelectorEngine
