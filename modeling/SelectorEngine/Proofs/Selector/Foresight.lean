import Mathlib.Tactic.FinCases
import SelectorEngine.Proofs.Selector.Arrangement
import SelectorEngine.Proofs.Selector.Occurrence
import SelectorEngine.Proofs.Meaning.Reading

/-! What can be told of a selector before any node is seen: whether it matches nothing or everything, and
whether it cannot be compiled. Groups are gone through as they are compiled, arranged and from left to
right, up to the first token that matches nothing; what comes after it is not looked at. -/
namespace SelectorEngine

variable {ν : Type}

/-- An answer known beforehand, or none. -/
inductive Verdict where
  | never
  | always
  | unknown
deriving DecidableEq, Repr

namespace Verdict

def and : Verdict → Verdict → Verdict
  | never, _ => never
  | always, second => second
  | unknown, never => never
  | unknown, _ => unknown

def or : Verdict → Verdict → Verdict
  | always, _ => always
  | never, second => second
  | unknown, always => always
  | unknown, _ => unknown

def not : Verdict → Verdict
  | never => always
  | always => never
  | unknown => unknown

@[simp] theorem and_always (first : Verdict) : first.and always = first := by cases first <;> rfl

@[simp] theorem or_never (first : Verdict) : first.or never = first := by cases first <;> rfl

theorem and_comm (first second : Verdict) : first.and second = second.and first := by
  cases first <;> cases second <;> rfl

theorem and_assoc (first second third : Verdict) :
    (first.and second).and third = first.and (second.and third) := by
  cases first <;> cases second <;> cases third <;> rfl

theorem or_assoc (first second third : Verdict) :
    (first.or second).or third = first.or (second.or third) := by
  cases first <;> cases second <;> cases third <;> rfl

theorem and_eq_never_iff (first second : Verdict) :
    first.and second = never ↔ first = never ∨ second = never := by
  cases first <;> cases second <;> simp [and]

theorem or_eq_always_iff (first second : Verdict) :
    first.or second = always ↔ first = always ∨ second = always := by
  cases first <;> cases second <;> simp [or]

end Verdict

/-- What is known of the tree and the options before any node is seen. -/
structure Outlook where
  /-- The attribute selector is one that no value passes. -/
  inert : AttributeSelector → Bool
  supports : ElementState → Bool

def Basis.outlook (basis : Basis ν) : Outlook where
  inert selector := (AttributeTest.ofSelector selector basis.flags).neverPasses
  supports := basis.tree.supports

/-- What is found out about a token, a group or a list without a node. -/
structure Finding where
  verdict : Verdict
  refused : Bool
deriving DecidableEq, Repr

namespace Finding

def fault : Finding := ⟨.unknown, true⟩

def test : Finding := ⟨.unknown, false⟩

/-- Both have to match; the second is not looked at once the first is known never to match. -/
def followedBy (first second : Finding) : Finding :=
  ⟨first.verdict.and second.verdict, first.refused || first.verdict != .never && second.refused⟩

def sequence (findings : List Finding) : Finding := findings.foldr followedBy ⟨.always, false⟩

/-- One has to match, and all are looked at. -/
def choice (findings : List Finding) : Finding :=
  findings.foldr (fun first second => ⟨first.verdict.or second.verdict, first.refused || second.refused⟩)
    ⟨.never, false⟩

/-- Items with their ranks, arranged and behind what they are fronted with. -/
def group (front : Selector.Front) (items : List (Int × Finding)) : Finding :=
  sequence (front.tokens.map (fun _ => test) ++ (arrange Prod.fst items).map Prod.snd)

theorem sequence_cons (first : Finding) (rest : List Finding) :
    sequence (first :: rest) = first.followedBy (sequence rest) := rfl

theorem choice_cons (first : Finding) (rest : List Finding) :
    choice (first :: rest) =
      ⟨first.verdict.or (choice rest).verdict, first.refused || (choice rest).refused⟩ := rfl

theorem refused_sequence_iff (findings : List Finding) : (sequence findings).refused = true ↔
    ∃ before finding after, findings = before ++ finding :: after ∧
      (∀ earlier ∈ before, earlier.verdict ≠ .never) ∧ finding.refused = true := by
  induction findings with
  | nil => simp [sequence]
  | cons first rest ih =>
    rw [sequence_cons, followedBy, Bool.or_eq_true, Bool.and_eq_true, bne_iff_ne, ih]
    constructor
    · intro either
      rcases either with refused | ⟨open', before, finding, after, rfl, earlier, refused⟩
      · exact ⟨[], first, rest, rfl, fun _ member => absurd member List.not_mem_nil, refused⟩
      · exact ⟨first :: before, finding, after, rfl, List.forall_mem_cons.mpr ⟨open', earlier⟩, refused⟩
    · intro known
      obtain ⟨before, finding, after, split, earlier, refused⟩ := known
      cases before with
      | nil =>
        cases split
        exact .inl refused
      | cons head before =>
        cases split
        obtain ⟨open', further⟩ := List.forall_mem_cons.mp earlier
        exact .inr ⟨open', before, finding, after, rfl, further, refused⟩

theorem refused_choice (findings : List Finding) :
    (choice findings).refused = findings.any Finding.refused := by
  induction findings with
  | nil => rfl
  | cons first rest ih => rw [choice_cons, ih, List.any_cons]

theorem verdict_choice_eq_always_iff (findings : List Finding) :
    (choice findings).verdict = .always ↔ ∃ finding ∈ findings, finding.verdict = .always := by
  induction findings with
  | nil => simp [choice]
  | cons first rest ih => rw [choice_cons, Verdict.or_eq_always_iff, ih, List.exists_mem_cons_iff]

theorem refused_group (front : Selector.Front) (items : List (Int × Finding)) :
    (group front items).refused = (group .nothing items).refused := by
  cases front <;> simp [group, Selector.Front.tokens, sequence, followedBy, test]

end Finding

namespace Subselect

/-- What the pseudo-class makes of what is found out about its argument. -/
def finding (kind : Subselect) (argument : Finding) : Finding :=
  match kind with
  | anyOf => argument
  | noneOf => ⟨argument.verdict.not, argument.refused⟩
  | has => ⟨if argument.verdict = .never then .never else .unknown, argument.refused⟩

/-- Only the argument of a relative `:has()` is anchored. -/
def anchorsArgument (kind : Subselect) (groups : SelectorList) : Bool :=
  kind == has && Selector.isRelative groups

end Subselect

namespace BuiltinFilter

/-- The argument cannot be taken. The pseudo-classes that need none take any. -/
def isFaulty (filter : BuiltinFilter) (argument : Option String) : Bool :=
  match filter with
  | contains | containsFolded | lang => argument.isNone
  | counting _ => (argument.bind Formula.read?).isNone
  | root | scope | state _ => false

def verdict (filter : BuiltinFilter) (outlook : Outlook) (argument : Option String) : Verdict :=
  match filter with
  | counting _ =>
    if (argument.bind Formula.read?).map Formula.positions = some .none then .never else .unknown
  | state which => if outlook.supports which then .unknown else .never
  | _ => .unknown

end BuiltinFilter

/-- The pseudo-class is not known, or cannot take the argument. -/
def isFaultyClass (name : String) (argument : Option String) : Bool :=
  match Selector.abbreviations.lookup name, BuiltinFilter.ofName? name with
  | some _, _ => argument.isSome
  | none, some filter => filter.isFaulty argument
  | none, none => (StructuralClass.ofName? name).isNone || argument.isSome

def classVerdict (outlook : Outlook) (name : String) (argument : Option String) : Verdict :=
  match Selector.abbreviations.lookup name, BuiltinFilter.ofName? name with
  | none, some filter => filter.verdict outlook argument
  | _, _ => .unknown

namespace Token

/-- The token cannot be compiled, whatever is in its selector list. -/
def isFaulty : Token → Bool
  | .pseudoElement _ _ => true
  | .combinator kind => kind == .column
  | .pseudoClass name argument => isFaultyClass name argument
  | .subselect name _ => (Subselect.ofName? name).isNone
  | _ => false

mutual

def survey (outlook : Outlook) : Token → Finding
  | .universal _ => ⟨.always, false⟩
  | .attribute selector => ⟨if outlook.inert selector then .never else .unknown, false⟩
  | .pseudoClass name argument => ⟨classVerdict outlook name argument, isFaultyClass name argument⟩
  | .subselect name groups =>
    match Subselect.ofName? name with
    | none => .fault
    | some kind => kind.finding (.choice (surveyGroups outlook (kind.anchorsArgument groups) groups))
  | .tag _ _ => .test
  | .pseudoElement _ _ => .fault
  | .combinator kind => ⟨.unknown, kind == .column⟩

def surveyGroups (outlook : Outlook) (anchored : Bool) : List (List Token) → List Finding
  | [] => []
  | group :: rest => .group (Selector.front anchored group) (surveyGroup outlook group) ::
    surveyGroups outlook anchored rest

def surveyGroup (outlook : Outlook) : List Token → List (Int × Finding)
  | [] => []
  | token :: rest => (token.rank, survey outlook token) :: surveyGroup outlook rest

end

variable (outlook : Outlook)

theorem surveyGroup_eq_map (group : Group) :
    surveyGroup outlook group = group.map fun token => (token.rank, token.survey outlook) := by
  induction group with
  | nil => rfl
  | cons token rest ih => rw [surveyGroup, ih, List.map_cons]

theorem surveyGroups_eq_map (anchored : Bool) (groups : SelectorList) :
    surveyGroups outlook anchored groups = groups.map fun group =>
      .group (Selector.front anchored group) (surveyGroup outlook group) := by
  induction groups with
  | nil => rfl
  | cons group rest ih => rw [surveyGroups, ih, List.map_cons]

omit outlook in
theorem arrange_ranked (found : Token → Finding) (group : Group) :
    (arrange Prod.fst (group.map fun token => (token.rank, found token))).map Prod.snd =
      (arrange Token.rank group).map found := by
  rw [arrange_map, List.map_map]
  rfl

theorem arrange_surveyGroup (group : Group) :
    (arrange Prod.fst (surveyGroup outlook group)).map Prod.snd =
      (arrange Token.rank group).map (survey outlook) := by
  rw [surveyGroup_eq_map, arrange_ranked]

theorem refused_singleton (token : Token) :
    (Finding.group .nothing (surveyGroup outlook [token])).refused = (token.survey outlook).refused := by
  rw [Finding.group, arrange_surveyGroup, arrange_singleton]
  exact (congrArg _ (Bool.and_false _)).trans (Bool.or_false _)

/-- What an abbreviation stands for can always be compiled, and never is known beforehand. -/
theorem choice_surveyGroups_abbreviation (basis : Basis ν) (entry : String × SelectorList)
    (member : entry ∈ Selector.abbreviations) :
    Finding.choice (surveyGroups basis.outlook false entry.2) = .test := by
  have notVisited : Finding.choice [.group .nothing [(3, .test), (3, Subselect.noneOf.finding (.choice [
      .group .nothing [(3, ⟨if basis.tree.supports .visited then .unknown else .never, false⟩)]]))]] =
        .test := by
    cases basis.tree.supports .visited <;> rfl
  fin_cases member <;> first | rfl | exact notVisited

end Token

namespace Selector

/-- A token is come upon that cannot be compiled: no token before it, as the group is arranged, is known
never to match. -/
def ComesUpon (outlook : Outlook) (refused : Token → Prop) (group : Group) : Prop :=
  ∃ before token after, arrange Token.rank group = before ++ token :: after ∧
    (∀ earlier ∈ before, (earlier.survey outlook).verdict ≠ .never) ∧ refused token

theorem refused_surveyGroup_iff (outlook : Outlook) (front : Front) (group : Group) :
    (Finding.group front (Token.surveyGroup outlook group)).refused = true ↔
      ComesUpon outlook (fun token => (token.survey outlook).refused = true) group := by
  rw [Finding.refused_group, Finding.group, Token.arrange_surveyGroup, Front.tokens, List.map_nil,
    List.nil_append, Finding.refused_sequence_iff]
  unfold ComesUpon
  constructor
  · intro known
    obtain ⟨before, finding, after, split, earlier, refused⟩ := known
    obtain ⟨tokens, rest, same, rfl, later⟩ := List.map_eq_append_iff.mp split
    obtain ⟨token, further, rfl, rfl, rfl⟩ := List.map_eq_cons_iff.mp later
    exact ⟨tokens, token, further, same, fun token member => earlier _ (List.mem_map_of_mem member), refused⟩
  · intro known
    obtain ⟨before, token, after, same, earlier, refused⟩ := known
    refine ⟨before.map (Token.survey outlook), token.survey outlook, after.map (Token.survey outlook),
      ?_, fun finding member => ?_, refused⟩
    · rw [same, List.map_append, List.map_cons]
    · obtain ⟨token, inside, rfl⟩ := List.mem_map.mp member
      exact earlier token inside

end Selector

theorem Subselect.refused_finding (kind : Subselect) (argument : Finding) :
    (kind.finding argument).refused = argument.refused := by
  cases kind <;> rfl

theorem SelectorList.refused_surveyGroups_iff (outlook : Outlook) (anchored : Bool)
    (groups : SelectorList) :
    (Finding.choice (Token.surveyGroups outlook anchored groups)).refused = true ↔
      ∃ group ∈ groups, Selector.ComesUpon outlook
        (fun token => (token.survey outlook).refused = true) group := by
  rw [Finding.refused_choice, Token.surveyGroups_eq_map, List.any_map, List.any_eq_true]
  simp only [Function.comp_apply, Selector.refused_surveyGroup_iff]

theorem SelectorList.refused_surveyGroups (outlook : Outlook) (anchored : Bool) (groups : SelectorList) :
    (Finding.choice (Token.surveyGroups outlook anchored groups)).refused =
      groups.any fun group => (Finding.group .nothing (Token.surveyGroup outlook group)).refused := by
  rw [Finding.refused_choice, Token.surveyGroups_eq_map, List.any_map]
  exact congrArg _ (funext fun group => Finding.refused_group _ _)

/-- A token cannot be compiled for a fault of its own, or for one that is come upon in its list. -/
theorem Token.refused_survey_iff (outlook : Outlook) (token : Token) :
    (token.survey outlook).refused = true ↔ token.isFaulty = true ∨
      ∃ name groups, token = .subselect name groups ∧ (Subselect.ofName? name).isSome = true ∧
        ∃ group ∈ groups, Selector.ComesUpon outlook
          (fun inner => (inner.survey outlook).refused = true) group := by
  cases token with
  | subselect name groups =>
    rw [survey, isFaulty]
    cases named : Subselect.ofName? name with
    | none => simp [Finding.fault]
    | some kind =>
      dsimp only
      rw [Subselect.refused_finding, SelectorList.refused_surveyGroups_iff]
      constructor
      · intro comes
        exact .inr ⟨name, groups, rfl, by rw [named]; rfl, comes⟩
      · intro either
        rcases either with faulty | ⟨_, _, same, _, comes⟩
        · cases faulty
        · cases same
          exact comes
  | _ => simp [survey, isFaulty, Finding.fault, Finding.test]

section Occurring

variable {outlook : Outlook}

theorem Selector.ComesUpon.mem {refused : Token → Prop} {group : Group}
    (comes : ComesUpon outlook refused group) : ∃ token ∈ group, refused token := by
  obtain ⟨before, token, after, split, _, refused⟩ := comes
  refine ⟨token, (arrange_perm Token.rank group).mem_iff.mp ?_, refused⟩
  rw [split]
  simp

theorem Selector.comesUpon_of_mem {refused : Token → Prop} {group : Group} {token : Token}
    (member : token ∈ group) (may : ∀ other ∈ group, (other.survey outlook).verdict ≠ .never)
    (isRefused : refused token) : ComesUpon outlook refused group := by
  have order := arrange_perm Token.rank group
  obtain ⟨before, after, split⟩ := List.append_of_mem (order.mem_iff.mpr member)
  refine ⟨before, token, after, split, fun earlier inside => may earlier (order.mem_iff.mp ?_), isRefused⟩
  rw [split]
  exact List.mem_append_left _ inside

/-- What is refused has a faulty token in it. -/
theorem Token.faulty_of_refused {token : Token} (refused : (token.survey outlook).refused = true) :
    token.isFaulty = true ∨ ∃ name groups, token = .subselect name groups ∧
      ∃ faulty : Token, faulty.OccursIn groups ∧ faulty.isFaulty = true := by
  induction token using Token.induct with
  | subselect name groups ih =>
    rcases (refused_survey_iff outlook _).mp refused with own | ⟨_, _, same, _, group, listed, comes⟩
    · exact .inl own
    · cases same
      obtain ⟨inner, member, inside⟩ := comes.mem
      refine .inr ⟨name, groups, rfl, ?_⟩
      rcases ih group listed inner member inside with faulty | ⟨_, further, rfl, faulty, occurs, isFaulty⟩
      · exact ⟨inner, .here listed member, faulty⟩
      · exact ⟨faulty, .deeper listed member occurs, isFaulty⟩
  | _ =>
    rcases (refused_survey_iff outlook _).mp refused with own | ⟨_, _, same, _⟩
    · exact .inl own
    · cases same

theorem SelectorList.exists_faulty_of_comesUpon {selectors : SelectorList} {group : Group}
    (listed : group ∈ selectors)
    (comes : Selector.ComesUpon outlook (fun token => (token.survey outlook).refused = true) group) :
    ∃ faulty : Token, faulty.OccursIn selectors ∧ faulty.isFaulty = true := by
  obtain ⟨token, member, refused⟩ := comes.mem
  rcases Token.faulty_of_refused refused with faulty | ⟨_, inner, rfl, faulty, occurs, isFaulty⟩
  · exact ⟨token, .here listed member, faulty⟩
  · exact ⟨faulty, .deeper listed member occurs, isFaulty⟩

/-- Where nothing is known never to match, every faulty token is come upon. -/
theorem SelectorList.comesUpon_of_faulty {selectors : SelectorList}
    (may : ∀ token : Token, token.OccursIn selectors → (token.survey outlook).verdict ≠ .never)
    {faulty : Token} (occurs : faulty.OccursIn selectors) (isFaulty : faulty.isFaulty = true) :
    ∃ group ∈ selectors, Selector.ComesUpon outlook
      (fun token => (token.survey outlook).refused = true) group := by
  induction occurs with
  | here listed member =>
    refine ⟨_, listed,
      Selector.comesUpon_of_mem member (fun other inside => may other (.here listed inside)) ?_⟩
    exact (Token.refused_survey_iff outlook faulty).mpr (.inl isFaulty)
  | @deeper groups inner group name listed member _ ih =>
    have inside := ih fun token occurs => may token (.deeper listed member occurs)
    refine ⟨_, listed,
      Selector.comesUpon_of_mem member (fun other inside => may other (.here listed inside)) ?_⟩
    rw [Token.refused_survey_iff]
    cases named : Subselect.ofName? name with
    | none => exact .inl (by simp [Token.isFaulty, named])
    | some kind => exact .inr ⟨name, inner, rfl, by rw [named]; rfl, inside⟩

end Occurring
end SelectorEngine
