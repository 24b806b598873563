import SelectorEngine.Proofs.Selector.Spelled

/-! What can be told of a selector with an alias in it, compared with the selector spelled out. An alias has
another rank than `:is()` of its list, so tokens after one that is known never to match may be looked at in
one and left out in the other; but both are known to match everything, or nothing, alike. -/
namespace SelectorEngine

namespace Verdict

instance : LeftCommutative Verdict.and where
  left_comm first second third := by cases first <;> cases second <;> cases third <;> rfl

theorem foldr_and_eq_never_iff (verdicts : List Verdict) :
    verdicts.foldr and always = never ↔ never ∈ verdicts := by
  induction verdicts with
  | nil => simp
  | cons first rest ih => rw [List.foldr_cons, and_eq_never_iff, ih, List.mem_cons, eq_comm]

theorem or_eq_never_iff (first second : Verdict) :
    first.or second = never ↔ first = never ∧ second = never := by
  cases first <;> cases second <;> simp [or]

end Verdict

namespace Finding

theorem verdict_sequence (findings : List Finding) :
    (sequence findings).verdict = (findings.map verdict).foldr Verdict.and .always := by
  induction findings with
  | nil => rfl
  | cons first rest ih => rw [sequence_cons, followedBy, ih, List.map_cons, List.foldr_cons]

theorem verdict_choice (findings : List Finding) :
    (choice findings).verdict = (findings.map verdict).foldr Verdict.or .never := by
  induction findings with
  | nil => rfl
  | cons first rest ih => rw [choice_cons, ih, List.map_cons, List.foldr_cons]

theorem verdict_choice_eq_never_iff (findings : List Finding) :
    (choice findings).verdict = .never ↔ ∀ finding ∈ findings, finding.verdict = .never := by
  induction findings with
  | nil => simp [choice]
  | cons first rest ih => rw [choice_cons, Verdict.or_eq_never_iff, ih, List.forall_mem_cons]

/-- The verdict on a group does not depend on how it is arranged. -/
theorem verdict_group (front : Selector.Front) (items : List (Int × Finding)) :
    (group front items).verdict = (front.tokens.map (fun _ => Verdict.unknown) ++
      items.map fun item => item.2.verdict).foldr Verdict.and .always := by
  have order : ((arrange Prod.fst items).map fun item => item.2.verdict).Perm
      (items.map fun item => item.2.verdict) := (arrange_perm Prod.fst items).map _
  have same : ((arrange Prod.fst items).map fun item => item.2.verdict).foldr Verdict.and .always =
      (items.map fun item => item.2.verdict).foldr Verdict.and .always := order.foldr_eq _
  rw [group, verdict_sequence, List.map_append, List.map_map, List.map_map, List.foldr_append,
    List.foldr_append, ← same]
  rfl

theorem verdict_group_eq_never_iff (front : Selector.Front) (items : List (Int × Finding)) :
    (group front items).verdict = .never ↔ ∃ item ∈ items, item.2.verdict = .never := by
  rw [verdict_group, Verdict.foldr_and_eq_never_iff, List.mem_append, List.mem_map]
  have unfronted : ¬ ∃ token ∈ front.tokens, Verdict.unknown = .never :=
    fun ⟨_, _, impossible⟩ => nomatch impossible
  rw [or_iff_right unfronted, List.mem_map]

/-- Where nothing is known never to match, everything is looked at. -/
theorem refused_group_of_open (front : Selector.Front) {items : List (Int × Finding)}
    (may : ∀ item ∈ items, item.2.verdict ≠ .never) :
    (group front items).refused = items.any fun item => item.2.refused := by
  have order := arrange_perm Prod.fst items
  rw [refused_group, Bool.eq_iff_iff, List.any_eq_true]
  change (sequence ((arrange Prod.fst items).map Prod.snd)).refused = true ↔ _
  rw [refused_sequence_iff]
  constructor
  · intro known
    obtain ⟨before, finding, after, split, _, refused⟩ := known
    have member : finding ∈ (arrange Prod.fst items).map Prod.snd := by
      rw [split]
      simp
    obtain ⟨item, listed, rfl⟩ := List.mem_map.mp member
    exact ⟨item, order.mem_iff.mp listed, refused⟩
  · intro known
    obtain ⟨item, listed, refused⟩ := known
    obtain ⟨before, after, split⟩ := List.append_of_mem (List.mem_map_of_mem (order.mem_iff.mpr listed))
    refine ⟨before, item.2, after, split, fun earlier inside => ?_, refused⟩
    have member : earlier ∈ (arrange Prod.fst items).map Prod.snd := by
      rw [split]
      exact List.mem_append_left _ inside
    obtain ⟨other, listed, rfl⟩ := List.mem_map.mp member
    exact may other (order.mem_iff.mp listed)

end Finding

namespace Alias

mutual

/-- What is found out about the token if the pseudo-class stands for its list. -/
def survey (entry : Alias) (outlook : Outlook) : Token → Finding
  | .subselect name groups =>
    match Subselect.ofName? name with
    | none => .fault
    | some kind => kind.finding (.choice (surveyGroups entry outlook (kind.anchorsArgument groups) groups))
  | token => (entry.spell token).survey outlook

def surveyGroups (entry : Alias) (outlook : Outlook) (anchored : Bool) : List (List Token) → List Finding
  | [] => []
  | group :: rest => .group (Selector.front anchored group) (surveyGroup entry outlook group) ::
    surveyGroups entry outlook anchored rest

def surveyGroup (entry : Alias) (outlook : Outlook) : List Token → List (Int × Finding)
  | [] => []
  | token :: rest => (token.rank, survey entry outlook token) :: surveyGroup entry outlook rest

end

variable (entry : Alias) (outlook : Outlook)

theorem surveyGroup_eq_map (group : Group) :
    entry.surveyGroup outlook group = group.map fun token => (token.rank, entry.survey outlook token) := by
  induction group with
  | nil => rfl
  | cons token rest ih => rw [surveyGroup, ih, List.map_cons]

theorem surveyGroups_eq_map (anchored : Bool) (groups : SelectorList) :
    entry.surveyGroups outlook anchored groups = groups.map fun group =>
      .group (Selector.front anchored group)
        (group.map fun token => (token.rank, entry.survey outlook token)) := by
  induction groups with
  | nil => rfl
  | cons group rest ih => rw [surveyGroups, ih, surveyGroup_eq_map, List.map_cons]

theorem survey_of_unused {token : Token} (unused : token.uses (· == entry.name) = false) :
    entry.survey outlook token = token.survey outlook := by
  induction token using Token.induct with
  | subselect name groups ih =>
    have inside := (Token.uses_subselect_eq_false unused).2
    have same (anchored : Bool) :
        entry.surveyGroups outlook anchored groups = Token.surveyGroups outlook anchored groups := by
      rw [surveyGroups_eq_map, Token.surveyGroups_eq_map]
      refine List.map_congr_left fun group listed => congrArg _ ?_
      rw [Token.surveyGroup_eq_map]
      exact List.map_congr_left fun token member => congrArg _
        (ih group listed token member (SelectorList.uses_of_mem inside listed member))
    rw [survey, Token.survey]
    cases Subselect.ofName? name with
    | none => rfl
    | some kind => exact congrArg (fun found => kind.finding (.choice found)) (same _)
  | _ => exact congrArg (Token.survey outlook) (entry.spell_of_unused unused)

/-- The alias does not take an argument. -/
theorem refused_survey_some (text : String) :
    (entry.survey outlook (.pseudoClass entry.name (some text))).refused = true := by
  have own := entry.own
  simp only [Selector.isBuiltin, Bool.or_eq_false_iff, Option.isSome_eq_false_iff,
    Option.isNone_iff_eq_none] at own
  change isFaultyClass entry.name (some text) = true
  rw [isFaultyClass, own.1.1.1, own.1.1.2]
  exact Bool.or_true _

section Groups

variable {entry outlook} {groups : SelectorList}

/-- Anchored alike, the groups are known to match everything, or nothing, as they are spelled out. -/
theorem verdict_surveyGroups {anchored : Bool}
    (keeps : ∀ group ∈ groups, Selector.KeepsFront entry anchored group)
    (each : ∀ group ∈ groups, ∀ token ∈ group,
      (entry.survey outlook token).verdict = ((entry.spell token).survey outlook).verdict) :
    (Finding.choice (entry.surveyGroups outlook anchored groups)).verdict =
      (Finding.choice (Token.surveyGroups outlook anchored (groups.map (List.map entry.spell)))).verdict := by
  rw [Finding.verdict_choice, Finding.verdict_choice, surveyGroups_eq_map, Token.surveyGroups_eq_map,
    List.map_map, List.map_map, List.map_map]
  refine congrArg _ (List.map_congr_left fun group listed => ?_)
  simp only [Function.comp_apply, Finding.verdict_group, Token.surveyGroup_eq_map, List.map_map]
  rw [keeps group listed]
  exact congrArg (fun verdicts => List.foldr _ _ (_ ++ verdicts)) (List.map_congr_left (each group listed))

/-- Whatever they are anchored with, the groups are known to match nothing as they are spelled out. -/
theorem verdict_surveyGroups_eq_never_iff {anchored fronted : Bool}
    (each : ∀ group ∈ groups, ∀ token ∈ group,
      (entry.survey outlook token).verdict = ((entry.spell token).survey outlook).verdict) :
    (Finding.choice (entry.surveyGroups outlook anchored groups)).verdict = .never ↔
      (Finding.choice (Token.surveyGroups outlook fronted
        (groups.map (List.map entry.spell)))).verdict = .never := by
  rw [Finding.verdict_choice_eq_never_iff, Finding.verdict_choice_eq_never_iff, surveyGroups_eq_map,
    Token.surveyGroups_eq_map, List.map_map, List.forall_mem_map, List.forall_mem_map]
  refine forall₂_congr fun group listed => ?_
  rw [Function.comp_apply, Finding.verdict_group_eq_never_iff, Finding.verdict_group_eq_never_iff,
    Token.surveyGroup_eq_map]
  simp only [List.mem_map, exists_exists_and_eq_and]
  exact exists_congr fun token => and_congr_right fun member => by rw [each group listed token member]

theorem refused_surveyGroups {anchored fronted : Bool}
    (may : ∀ inner : Token, inner.OccursIn (groups.map (List.map entry.spell)) →
      (inner.survey outlook).verdict ≠ .never)
    (verdicts : ∀ token, (entry.survey outlook token).verdict = ((entry.spell token).survey outlook).verdict)
    (each : ∀ group ∈ groups, ∀ token ∈ group,
      (entry.survey outlook token).refused = ((entry.spell token).survey outlook).refused) :
    (Finding.choice (entry.surveyGroups outlook anchored groups)).refused =
      (Finding.choice (Token.surveyGroups outlook fronted (groups.map (List.map entry.spell)))).refused := by
  rw [Finding.refused_choice, Finding.refused_choice, surveyGroups_eq_map, Token.surveyGroups_eq_map,
    List.any_map, List.any_map, List.any_map]
  refine Token.any_congr_of_mem fun group listed => ?_
  have open' (token : Token) (member : token ∈ group) :
      ((entry.spell token).survey outlook).verdict ≠ .never :=
    may _ (.here (List.mem_map_of_mem listed) (List.mem_map_of_mem member))
  simp only [Function.comp_apply]
  rw [Finding.refused_group_of_open _ ?_, Finding.refused_group_of_open _ ?_, Token.surveyGroup_eq_map,
    List.any_map, List.any_map, List.any_map]
  · exact Token.any_congr_of_mem (each group listed)
  · rw [Token.surveyGroup_eq_map, List.map_map]
    exact List.forall_mem_map.mpr open'
  · exact List.forall_mem_map.mpr fun token member => (verdicts token).symm ▸ open' token member

end Groups

theorem verdict_survey (token : Token) :
    (entry.survey outlook token).verdict = ((entry.spell token).survey outlook).verdict := by
  induction token using Token.induct with
  | subselect name groups ih =>
    rw [spell_subselect, survey, Token.survey]
    cases Subselect.ofName? name with
    | none => rfl
    | some kind =>
      have unanchored := verdict_surveyGroups (fun group _ => Selector.keepsFront_false entry group) ih
      cases kind with
      | anyOf => exact unanchored
      | noneOf => exact congrArg Verdict.not unanchored
      | has =>
        have alike : (Finding.choice (entry.surveyGroups outlook
              (Subselect.has.anchorsArgument groups) groups)).verdict = .never ↔
            (Finding.choice (Token.surveyGroups outlook
              (Subselect.has.anchorsArgument (groups.map (List.map entry.spell)))
              (groups.map (List.map entry.spell)))).verdict = .never :=
          verdict_surveyGroups_eq_never_iff ih
        simp only [Subselect.finding, alike]
  | _ => rfl

/-- Where nothing is known never to match, the same cannot be compiled. -/
theorem refused_survey {token : Token}
    (may : ∀ inner : Token, inner.OccursIn [[entry.spell token]] → (inner.survey outlook).verdict ≠ .never) :
    (entry.survey outlook token).refused = ((entry.spell token).survey outlook).refused := by
  induction token using Token.induct with
  | subselect name groups ih =>
    rw [spell_subselect] at may ⊢
    have inside (inner : Token) (occurs : inner.OccursIn (groups.map (List.map entry.spell))) :
        (inner.survey outlook).verdict ≠ .never :=
      may inner (.deeper (List.mem_singleton_self _) (List.mem_singleton_self _) occurs)
    rw [survey, Token.survey]
    cases Subselect.ofName? name with
    | none => rfl
    | some kind =>
      dsimp only
      rw [Subselect.refused_finding, Subselect.refused_finding]
      refine refused_surveyGroups inside (entry.verdict_survey outlook) fun group listed token member => ?_
      exact ih group listed token member fun inner occurs =>
        inside inner (occurs.of_singleton (List.mem_map_of_mem listed) (List.mem_map_of_mem member))
  | _ => rfl

variable {entry outlook} in
theorem refused_surveyGroups_of_open {selectors : SelectorList}
    (may : ∀ inner : Token, inner.OccursIn (selectors.map (List.map entry.spell)) →
      (inner.survey outlook).verdict ≠ .never) (anchored fronted : Bool) :
    (Finding.choice (entry.surveyGroups outlook anchored selectors)).refused =
      (Finding.choice (Token.surveyGroups outlook fronted (selectors.map (List.map entry.spell)))).refused :=
  refused_surveyGroups may (entry.verdict_survey outlook) fun _ listed _ member =>
    entry.refused_survey outlook fun inner occurs =>
      may inner (occurs.of_singleton (List.mem_map_of_mem listed) (List.mem_map_of_mem member))

end Alias
end SelectorEngine
