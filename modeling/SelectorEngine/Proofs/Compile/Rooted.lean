import SelectorEngine.Proofs.Compile.Extension

/-! Compiling for a root that is a check. A group compiles to the root itself, to what never matches, or to
a predicate with an identity of its own that says what the group says with the root at its end. United with
others, the root itself absorbs them; all other predicates add up. -/
namespace SelectorEngine

variable {ν σ : Type}

/-- The group holds at the node when it is read from right to left, and the start holds where it ends. -/
def Reading.HoldsFrom (reading : Reading ν) (start : ν → Prop) (context : Option (MatchContext ν))
    (group : Group) : ν → Prop :=
  Part.after start (group.map (reading.part context))

namespace Selector

/-- The group puts nothing in front of the root: it is fronted with nothing, and all of its tokens are known
to match everything. -/
def IsBare (outlook : Outlook) (anchored : Bool) (group : Group) : Prop :=
  front anchored group = .nothing ∧ ∀ token ∈ group, (token.survey outlook).verdict = .always

theorem isBare_iff (outlook : Outlook) (anchored : Bool) (group : Group) : IsBare outlook anchored group ↔
    (Finding.group (front anchored group) (Token.surveyGroup outlook group)).verdict = .always := by
  have sequenced (findings : List Finding) :
      (Finding.sequence findings).verdict = .always ↔ ∀ finding ∈ findings, finding.verdict = .always := by
    induction findings with
    | nil => simp [Finding.sequence]
    | cons first rest ih =>
      rw [Finding.sequence_cons, List.forall_mem_cons, ← ih, Finding.followedBy]
      cases first.verdict <;> simp [Verdict.and]
      cases (Finding.sequence rest).verdict <;> simp
  rw [Finding.group, sequenced, Token.arrange_surveyGroup, IsBare]
  have order (token : Token) : token ∈ arrange Token.rank group ↔ token ∈ group :=
    (arrange_perm Token.rank group).mem_iff
  cases front anchored group <;> simp [Front.tokens, Finding.test, order]

end Selector

namespace Predicate

/-- A predicate with parts that are bare and parts that are not. -/
structure United (root : Predicate ν σ) (bare : Prop) (holds : ν → Prop) (united : Predicate ν σ) : Prop where
  absorbed : bare → united = root
  apart : ¬ bare → united.sameAs root = false
  meant : ¬ bare → ∀ node, united.passes none node = true ↔ holds node

namespace United

variable {root first second : Predicate ν σ} {bare bare' : Prop} {holds holds' : ν → Prop}

theorem of_absorbed (absorbed : bare) (same : first = root) : United root bare holds first :=
  ⟨fun _ => same, fun unabsorbed => absurd absorbed unabsorbed, fun unabsorbed => absurd absorbed unabsorbed⟩

theorem absorbed_of_sameAs (united : United root bare holds first) (same : first.sameAs root = true) :
    bare := by
  by_contra unabsorbed
  rw [united.apart unabsorbed] at same
  cases same

/-- What is united with a part that never matches stays what it is. -/
theorem add_never (united : United root bare holds first) (never : ¬ bare' ∧ ∀ node, ¬ holds' node) :
    United root (bare ∨ bare') (fun node => holds node ∨ holds' node) first := by
  simp only [or_iff_left never.1, or_iff_left (never.2 _)]
  exact united

theorem never {identity : Nat} {plan : Plan ν σ}
    (united : United (.dynamic identity plan) bare holds first) (never : first.isAlwaysFalse = true) :
    ¬ bare ∧ ∀ node, ¬ holds node := by
  obtain rfl := eq_alwaysFalse never
  have unabsorbed : ¬ bare := fun absorbed => nomatch united.absorbed absorbed
  exact ⟨unabsorbed, fun node held => nomatch (united.meant unabsorbed node).mpr held⟩

theorem union {identity : Nat} {plan : Plan ν σ} {session : Session σ} (older : identity < session.supply)
    (left : United (.dynamic identity plan) bare holds first)
    (right : United (.dynamic identity plan) bare' holds' second) :
    United (.dynamic identity plan) (bare ∨ bare') (fun node => holds node ∨ holds' node)
      ((first.union second (.dynamic identity plan)).run session).1 := by
  unfold Predicate.union
  split
  · next keeps =>
    rcases Bool.or_eq_true _ _ ▸ keeps with never | same
    · exact left.add_never (right.never never)
    · have absorbed := left.absorbed_of_sameAs same
      exact of_absorbed (.inl absorbed) (left.absorbed absorbed)
  · next open' =>
    split
    · next replaces =>
      rcases Bool.or_eq_true _ _ ▸ replaces with never | same
      · have kept := right.add_never (left.never never)
        simp only [or_comm] at kept ⊢
        exact kept
      · have absorbed := right.absorbed_of_sameAs same
        exact of_absorbed (.inr absorbed) (right.absorbed absorbed)
    · next open'' =>
      -- Neither is the root, so both are as they are meant, and a new identity is not that of the root.
      have unabsorbed : ¬ bare := fun absorbed => open' (by simp [left.absorbed absorbed, sameAs])
      have unabsorbed' : ¬ bare' := fun absorbed => open'' (by simp [right.absorbed absorbed, sameAs])
      refine ⟨fun either => (either.elim unabsorbed unabsorbed').elim, fun _ => ?_, fun _ node => ?_⟩
      · have fresh : (session.supply == identity) = false := beq_eq_false_iff_ne.mpr (by omega)
        cases first <;> cases second <;>
          first | rfl | exact fresh | exact left.apart unabsorbed | exact right.apart unabsorbed'
      · rw [passes_or, Bool.or_eq_true, left.meant unabsorbed, right.meant unabsorbed']

end United

theorem Becomes.mono {start result : Predicate ν σ} {session between : Session σ} {verdict : Verdict}
    (later : session.supply ≤ between.supply) (becomes : start.Becomes between verdict result) :
    start.Becomes session verdict result := by
  cases verdict with
  | never => exact becomes
  | always => exact becomes
  | unknown =>
    obtain ⟨identity, plan, made, fresh⟩ := becomes
    exact ⟨identity, plan, made, Nat.le_trans later fresh⟩

/-- A predicate made from a root that was there before. -/
theorem Becomes.united {identity : Nat} {plan : Plan ν σ} {session : Session σ} {verdict : Verdict}
    {result : Predicate ν σ} (older : identity < session.supply)
    (becomes : (dynamic identity plan).Becomes session verdict result) {holds : ν → Prop}
    (meant : ∀ node, result.passes none node = true ↔ holds node) :
    United (.dynamic identity plan) (verdict = .always) holds result := by
  refine ⟨fun always => ?_, fun other => ?_, fun _ => meant⟩
  · rw [always] at becomes
    exact becomes
  · cases verdict with
    | never =>
      obtain rfl : result = .alwaysFalse := becomes
      rfl
    | always => exact absurd rfl other
    | unknown =>
      obtain ⟨fresh, made, rfl, new⟩ := becomes
      exact beq_eq_false_iff_ne.mpr (by omega)

end Predicate

open CompileM

theorem Step.becomes {core options : Options ν σ} {finding : Finding} {step : Step ν σ}
    (foreseen : Foreseen core finding step) (extend : step.Extends) (same : options.core = core)
    (builtin : options.custom = {}) {scope : Option (Scope ν)} {identity : Nat} {plan : Plan ν σ}
    {result : Predicate ν σ} {session after : Session σ}
    (given : Gives (step options scope (.dynamic identity plan)) session result after) :
    (Predicate.dynamic identity plan).Becomes session finding.verdict result := by
  rcases extend options builtin scope session with ⟨error, fails⟩ | ⟨extension, between, grew, gives⟩
  · exact absurd (fails options.root _) given.not_fails
  · have known := ((foreseen options same scope .alwaysTrue rfl).of_gives (gives options.root .alwaysTrue)).2
    rw [extension.verdict_apply_alwaysTrue, show (Predicate.alwaysTrue : Predicate ν σ).verdict = .always from rfl,
      Verdict.and_always] at known
    cases given.symm.trans (gives options.root (.dynamic identity plan))
    rw [← known]
    exact (extension.becomes_apply between identity plan).mono grew.supply

namespace Prepared

variable {core options : Options ν σ} {reading : Reading ν} {scope : Option (Scope ν)}
  {identity : Nat} {plan : Plan ν σ} {session after : Session σ} {result : Predicate ν σ}
  (same : options.core = core) (builtin : options.custom = {})
include same builtin

theorem becomes_fold {group : List (Prepared ν σ)} (foreseen : Foreseen core group)
    (extend : ∀ item ∈ group, item.step.Extends)
    (given : Gives (fold options scope group (.dynamic identity plan)) session result after) :
    (Predicate.dynamic identity plan).Becomes session (finding core group).verdict result := by
  induction group generalizing identity plan session with
  | nil =>
    obtain ⟨rfl, _⟩ := gives_pure.mp given
    rfl
  | cons first rest ih =>
    obtain ⟨foreseenHead, foreseenTail⟩ := List.forall_mem_cons.mp foreseen
    obtain ⟨extendHead, extendTail⟩ := List.forall_mem_cons.mp extend
    rw [fold, if_neg (by simp [Predicate.isAlwaysFalse])] at given
    obtain ⟨between, middle, stepped, folded⟩ := gives_bind.mp given
    have grew := extendHead.grows options builtin scope _ session between middle stepped
    have became := Step.becomes foreseenHead extendHead same builtin stepped
    rw [finding_cons, Finding.followedBy]
    cases verdict : (first.token.survey core.toBasis.outlook).verdict with
    | never =>
      rw [verdict] at became
      obtain rfl : between = .alwaysFalse := became
      rw [fold_alwaysFalse] at folded
      exact (gives_pure.mp folded).1
    | always =>
      rw [verdict] at became
      obtain rfl : between = .dynamic identity plan := became
      exact (ih foreseenTail extendTail folded).mono grew.supply
    | unknown =>
      rw [verdict] at became
      obtain ⟨fresh, made, rfl, new⟩ := became
      have rested := (ih foreseenTail extendTail folded).mono grew.supply
      cases further : (finding core rest).verdict with
      | always =>
        rw [further] at rested
        exact ⟨fresh, made, rested, new⟩
      | _ =>
        rw [further] at rested
        exact rested

theorem united_foldGroups (rooted : options.root = .dynamic identity plan) (older : identity < session.supply)
    (unaware : scope ≠ some .subject) {groups : List (List (Prepared ν σ))}
    (foreseen : ∀ group ∈ groups, Foreseen core group)
    (extend : ∀ group ∈ groups, ∀ item ∈ group, item.step.Extends)
    (realized : ∀ group ∈ groups, Realized core reading group) {united : Predicate ν σ} {bare : Prop}
    {holds : ν → Prop} (known : options.root.United bare holds united)
    (given : Gives (foldGroups options scope groups united) session result after) :
    options.root.United (bare ∨ ∃ group ∈ groups, (finding core group).verdict = .always)
      (fun node => holds node ∨ ∃ group ∈ groups, reading.HoldsFrom
        (fun node => options.root.passes none node = true) (scope.bind (Scope.seenFrom none))
        (tokens group) node) result := by
  induction groups generalizing united session bare holds with
  | nil =>
    obtain ⟨rfl, _⟩ := gives_pure.mp given
    simpa using known
  | cons group rest ih =>
    obtain ⟨foreseenHead, foreseenTail⟩ := List.forall_mem_cons.mp foreseen
    obtain ⟨extendHead, extendTail⟩ := List.forall_mem_cons.mp extend
    obtain ⟨realizedHead, realizedTail⟩ := List.forall_mem_cons.mp realized
    rw [foldGroups] at given
    obtain ⟨predicate, between, folded, further⟩ := gives_bind.mp given
    obtain ⟨union, middle, joined, further⟩ := gives_bind.mp further
    have grew := grows_fold builtin extendHead options.root session predicate between folded
    have grewFurther := united.grew_union predicate options.root between
    have resolved : Scope.IsResolved scope none := fun isSubject => absurd isSubject unaware
    have meant (node : ν) := iff_of_eq (congrFun (passes_fold same resolved realizedHead folded) node)
    have made := joined.lifted
    rw [gives_lift.mp joined] at grewFurther
    rw [rooted] at folded known meant made ⊢ ih
    have became := becomes_fold same builtin foreseenHead extendHead folded
    have both := known.union (Nat.lt_of_lt_of_le older grew.supply) (became.united older meant)
    rw [made] at both
    have all := ih (Nat.lt_of_lt_of_le older (grew.trans grewFurther).supply) foreseenTail extendTail
      realizedTail both further
    simp only [List.exists_mem_cons_iff, ← or_assoc]
    exact all

end Prepared

/-- What a list compiles to, when its root is a check that was there before. -/
theorem SelectorList.united_compileUnchecked {options : Options ν σ} (builtin : options.custom = {})
    (relative : options.flags.relativeSelector = true) {identity : Nat} {plan : Plan ν σ}
    (rooted : options.root = .dynamic identity plan) {session after : Session σ}
    (older : identity < session.supply) {selectors : SelectorList} {given : Option (MatchContext ν)}
    {query : Query ν σ} (compiled : Gives (selectors.compileUnchecked options given) session query after) :
    options.root.United
      (∃ group ∈ selectors, Selector.IsBare options.toBasis.outlook
        (Prepared.anchors options (given.map Scope.fixed)) group)
      (fun node => ∃ group ∈ selectors, (options.core.reading depth).HoldsFrom
        (fun node => options.root.passes none node = true) (options.context.or given)
        (Selector.written ((options.context.or given).any MatchContext.isCollection)
          (Prepared.anchors options (given.map Scope.fixed)) group) node) query.predicate := by
  have coreBuiltin : options.core.custom = {} := builtin
  have realizes := Step.realizes_token coreBuiltin depth (Step.realizes_expansion coreBuiltin depth)
  have listed (holds : Group → Prop) : (∃ group ∈ selectors, holds group) ↔
      ∃ group ∈ (prepareGroups (expansion depth) selectors : List (List (Prepared ν σ))),
        holds (Prepared.tokens group) := by
    conv => lhs; rw [← tokens_prepareGroups (expansion depth : SelectorList → Step ν σ) selectors]
    simp only [List.mem_map, exists_exists_and_eq_and]
  have collection : (Prepared.scopeOf options (given.map Scope.fixed)).any Scope.isCollection =
      (options.context.or given).any MatchContext.isCollection := by
    rw [Prepared.scopeOf_fixed]
    match options.context.or given with
    | none => rfl
    | some (.node _) => rfl
    | some (.nodes _) => rfl
  unfold compileUnchecked at compiled
  rw [aliasDepth_eq builtin, Prepared.compile_eq, if_neg (by simp [Prepared.refused, relative])] at compiled
  obtain ⟨predicate, between, folded, rest⟩ := gives_bind.mp compiled
  obtain ⟨rfl, _⟩ := gives_pure.mp rest
  have none : options.root.United False (fun _ => False) .alwaysFalse := by
    rw [rooted]
    exact ⟨False.elim, fun _ => rfl, fun _ _ => iff_of_false Bool.false_ne_true id⟩
  have united := Prepared.united_foldGroups rfl builtin rooted older
    (Prepared.scopeOf_ne_subject options given)
    (Prepared.forall_completed options _ (foreseen_prepareGroups coreBuiltin selectors)
      (Step.foreseen_atScope coreBuiltin _) Step.foreseen_combinator)
    (Prepared.forall_completed options _ (extends_prepareGroups depth selectors)
      (Step.extends_atScope depth) Step.extends_combinator)
    (Prepared.forall_completed options _ (realized_prepareGroups coreBuiltin depth selectors)
      (realizes Selector.scope) fun kind => realizes (.combinator kind)) none folded
  simp only [false_or, Prepared.completed, List.mem_map, exists_exists_and_eq_and, Prepared.finding_complete,
    relative, if_true, Prepared.tokens_complete, Reading.HoldsFrom, Selector.after_written_arrange,
    scopeOf_seenFrom, collection] at united
  simp only [listed, Selector.isBare_iff, Reading.HoldsFrom]
  exact united

end SelectorEngine
