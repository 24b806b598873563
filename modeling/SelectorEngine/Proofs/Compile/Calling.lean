import Mathlib.Algebra.GroupWithZero.Nat
import Mathlib.Algebra.Order.BigOperators.Group.List
import Mathlib.Algebra.Order.Group.Nat
import SelectorEngine.Proofs.Compile.Aliased
import SelectorEngine.Proofs.Compile.Referring

/-! Compiling as calls. The step of a token is made from the steps of other tokens, the ones that it calls:
those in its list or in the list it stands for, and what is put in front of their groups. Where aliases do not
lead back to themselves, calls come to an end, and calls nested as deep as there are calls make the same
steps as aliases expanded as often as there are aliases. -/
namespace SelectorEngine

variable {ν σ : Type}

namespace Prepared

/-- The groups with the steps that the calls make. -/
def calling (call : Token → Step ν σ) (groups : SelectorList) : List (List (Prepared ν σ)) :=
  groups.map (List.map fun token => ⟨token, call token⟩)

theorem prepareGroups_eq_calling (expand : SelectorList → Step ν σ) (groups : SelectorList) :
    prepareGroups expand groups = calling (tokenStep expand) groups := by
  rw [prepareGroups_eq_map]
  exact List.map_congr_left fun group _ => prepareGroup_eq_map expand group

section

variable {custom : CustomClasses ν σ} {call call' : Token → Step ν σ} {groups : SelectorList}
  (same : ∀ group ∈ groups, ∀ token ∈ group,
    (call token).withClasses custom = (call' token).withClasses custom)
include same

theorem map_withClasses_calling :
    (calling call groups).map (List.map (withClasses custom)) =
      (calling call' groups).map (List.map (withClasses custom)) := by
  simp only [calling, List.map_map]
  refine List.map_congr_left fun group listed => ?_
  simp only [Function.comp_apply, List.map_map]
  exact List.map_congr_left fun token member => congrArg (Prepared.mk token) (same group listed token member)

theorem compile_calling_congr {options : Options ν σ} (own : options.custom = custom)
    (scope : (call Selector.scope).withClasses custom = (call' Selector.scope).withClasses custom)
    (given : Option (Scope ν)) :
    compile (call Selector.scope) (calling call groups) options given =
      compile (call' Selector.scope) (calling call' groups) options given := by
  rw [← Options.withClasses_self own, compile_withClasses, compile_withClasses, scope,
    map_withClasses_calling same]

end

variable {atScope : Step ν σ} (other : Step ν σ)

theorem complete_of_unfronted {anchored : Bool} {group : List (Prepared ν σ)}
    (unfronted : Selector.front anchored (tokens group) = .nothing) (relative collection : Bool) :
    complete atScope relative anchored collection group = complete other relative anchored collection group := by
  have arranged : Selector.front anchored (tokens (arrange (fun item => item.token.rank) group)) =
      .nothing := by
    rw [tokens_arrange, Selector.front_arrange]
    exact unfronted
  unfold complete anchor
  dsimp only
  rw [arranged]
  rfl

/-- The step of `:scope` does not matter where it is put in front of nothing. -/
theorem compile_of_unfronted {groups : List (List (Prepared ν σ))} {options : Options ν σ}
    {given : Option (Scope ν)}
    (unfronted : ∀ group ∈ groups, Selector.front (anchors options given) (tokens group) = .nothing) :
    compile atScope groups options given = compile other groups options given := by
  have completes : completed atScope groups options given = completed other groups options given :=
    List.map_congr_left fun group listed => complete_of_unfronted other (unfronted group listed) _ _
  have reaches : amongSiblings atScope groups options given = amongSiblings other groups options given :=
    Token.any_congr_of_mem fun group listed => by
      rw [complete_of_unfronted other (unfronted group listed)]
  rw [compile_eq, compile_eq, completes, reaches]

end Prepared

namespace Subselect

/-- The tokens that are compiled for an argument, group after group. -/
def callees (kind : Subselect) (groups : SelectorList) : List Token :=
  groups.flatMap fun group => (Selector.front (kind.anchorsArgument groups) group).tokens ++ group

theorem mem_callees {kind : Subselect} {groups : SelectorList} {token : Token} :
    token ∈ kind.callees groups ↔ ∃ group ∈ groups,
      token ∈ (Selector.front (kind.anchorsArgument groups) group).tokens ∨ token ∈ group := by
  simp only [callees, List.mem_flatMap, List.mem_append]

theorem step_of_unfronted (kind : Subselect) {atScope : Step ν σ} (other : Step ν σ)
    {groups : List (List (Prepared ν σ))}
    (unfronted : ∀ group ∈ groups, Selector.front (kind.anchorsArgument (groups.map Prepared.tokens))
      (Prepared.tokens group) = .nothing) :
    kind.step atScope groups = kind.step other groups := by
  funext options scope next
  cases kind with
  | anyOf =>
    change anyOfStep atScope groups options scope next = anyOfStep other groups options scope next
    unfold anyOfStep
    rw [Prepared.compile_of_unfronted other unfronted]
  | noneOf =>
    change noneOfStep atScope groups options scope next = noneOfStep other groups options scope next
    unfold noneOfStep
    rw [Prepared.compile_of_unfronted other unfronted]
  | has =>
    change hasStep atScope groups options scope next = hasStep other groups options scope next
    have anchored : has.anchorsArgument (groups.map Prepared.tokens) = isRelative groups :=
      (isRelative_eq groups).symm
    rw [anchored] at unfronted
    have query : hasQuery groups atScope options = hasQuery groups other options := by
      unfold hasQuery
      split
      · next relative =>
        rw [relative] at unfronted
        exact Prepared.compile_of_unfronted other unfronted
      · next plain =>
        rw [Bool.not_eq_true] at plain
        rw [plain] at unfronted
        exact Prepared.compile_of_unfronted other unfronted
    rw [hasStep_eq, hasStep_eq, query]

/-- The step is made from those of the tokens called and of nothing else. -/
theorem step_calling_congr (kind : Subselect) {custom : CustomClasses ν σ} {call call' : Token → Step ν σ}
    {groups : SelectorList} (same : ∀ token ∈ kind.callees groups,
      (call token).withClasses custom = (call' token).withClasses custom) :
    (kind.step (call Selector.scope) (Prepared.calling call groups)).withClasses custom =
      (kind.step (call' Selector.scope) (Prepared.calling call' groups)).withClasses custom := by
  have items := Prepared.map_withClasses_calling fun group listed token member =>
    same token (mem_callees.mpr ⟨group, listed, .inr member⟩)
  rw [step_withClasses, step_withClasses, items]
  by_cases fronted : ∀ group ∈ groups, Selector.front (kind.anchorsArgument groups) group = .nothing
  · refine kind.step_of_unfronted _ ?_
    simpa [Prepared.calling, Prepared.tokens, Prepared.withClasses, Function.comp_def] using fronted
  · push Not at fronted
    obtain ⟨group, listed, fronted⟩ := fronted
    have called : Selector.scope ∈ kind.callees groups := by
      refine mem_callees.mpr ⟨group, listed, .inl ?_⟩
      cases front : Selector.front (kind.anchorsArgument groups) group with
      | nothing => exact absurd front fronted
      | scope => exact List.mem_cons_self
      | scopeDescendant => exact List.mem_cons_self
    rw [same _ called]

end Subselect

/-- The step of a pseudo-class without a list depends on expansion only if it is an alias without an
argument. -/
theorem pseudoClassStep_congr {custom : CustomClasses ν σ} {expand expand' : SelectorList → Step ν σ}
    {name : String} {argument : Option String}
    (each : ∀ selectors, custom.standsFor? name = some selectors → argument = none →
      (expand selectors).withClasses custom = (expand' selectors).withClasses custom) :
    (pseudoClassStep expand name argument).withClasses custom =
      (pseudoClassStep expand' name argument).withClasses custom := by
  have aliased {selectors : SelectorList} (stands : custom.standsFor? name = some selectors)
      (options : Options ν σ) (scope : Option (Scope ν)) (next : Predicate ν σ) :
      (verifyArgument name false argument >>= fun _ =>
        expand selectors (options.withClasses custom) scope next) =
      verifyArgument name false argument >>= fun _ =>
        expand' selectors (options.withClasses custom) scope next := by
    cases argument with
    | some text => rfl
    | none =>
      have same := congrFun (congrFun (congrFun (each selectors stands rfl) options) scope) next
      exact congrArg (fun rest => verifyArgument name false none >>= fun _ => rest) same
  funext options scope next
  change pseudoClassStep expand name argument (options.withClasses custom) scope next =
    pseudoClassStep expand' name argument (options.withClasses custom) scope next
  unfold pseudoClassStep
  rw [show (options.withClasses custom).custom = custom from rfl]
  cases own : custom.aliases.lookup name with
  | some selectors => exact aliased (by rw [CustomClasses.standsFor?, own]; rfl) options scope next
  | none =>
    cases filters : custom.filters.lookup name with
    | some filter => rfl
    | none =>
      cases checks : custom.checks.lookup name with
      | some check => rfl
      | none =>
        cases builtin : Selector.abbreviations.lookup name with
        | none => rfl
        | some selectors =>
          have stands : custom.standsFor? name = some selectors := by
            rw [CustomClasses.standsFor?, own, filters, checks]
            exact builtin
          exact aliased stands options scope next

namespace Token

/-- What the token calls for, if it is a pseudo-class with a list. -/
def argumentCallees : Token → List Token
  | .subselect name groups => ((Subselect.ofName? name).map (·.callees groups)).getD []
  | _ => []

/-- The tokens that are compiled for a token. An alias is compiled as `:is()` of its list. -/
def callees (custom : CustomClasses ν σ) : Token → List Token
  | .pseudoClass name none =>
    ((custom.standsFor? name).map fun selectors => (Selector.anyOf selectors).argumentCallees).getD []
  | token => token.argumentCallees

/-- The step of a token from the steps of the tokens it calls. -/
def stepCalling (call : Token → Step ν σ) : Token → Step ν σ
  | .tag name _ => tagStep name
  | .universal _ => fun _ _ next => return next
  | .attribute selector => attributeStep selector
  | .pseudoClass name argument => pseudoClassStep
    (fun selectors => Subselect.anyOf.step (call Selector.scope) (Prepared.calling call selectors)) name argument
  | .subselect name groups =>
    match Subselect.ofName? name with
    | some kind => kind.step (call Selector.scope) (Prepared.calling call groups)
    | none => fun _ _ _ => throw (.unknownPseudoClass name)
  | .pseudoElement _ _ => fun _ _ _ => throw (.unsupported .pseudoElements)
  | .combinator kind => combinatorStep kind

theorem callees_subselect (custom : CustomClasses ν σ) (name : String) (groups : SelectorList) :
    (Token.subselect name groups).callees custom =
      ((Subselect.ofName? name).map (·.callees groups)).getD [] :=
  rfl

theorem callees_alias {custom : CustomClasses ν σ} {name : String} {selectors : SelectorList}
    (stands : custom.standsFor? name = some selectors) :
    (Token.pseudoClass name none).callees custom = Subselect.anyOf.callees selectors := by
  rw [callees, stands]
  rfl

theorem mem_tokens_front {front : Selector.Front} {token : Token} (member : token ∈ front.tokens) :
    front ≠ .nothing ∧ (token = Selector.scope ∨ token = Selector.descendant) := by
  cases front with
  | nothing => cases member
  | scope => exact ⟨Selector.Front.noConfusion, .inl (List.mem_singleton.mp member)⟩
  | scopeDescendant => exact ⟨Selector.Front.noConfusion, by simpa [Selector.Front.tokens] using member⟩

/-- A token called for an argument refers to nothing that the pseudo-class does not. -/
theorem refersTo_of_mem_callees {name other : String} {kind : Subselect}
    (known : Subselect.ofName? name = some kind) {groups : SelectorList} {callee : Token}
    (called : callee ∈ kind.callees groups) (refers : callee.RefersTo other) :
    (Token.subselect name groups).RefersTo other := by
  obtain ⟨group, listed, front | member⟩ := Subselect.mem_callees.mp called
  · obtain ⟨fronted, rfl | rfl⟩ := mem_tokens_front front
    · obtain ⟨argument, same⟩ := refers.eq_pseudoClass fun _ _ other => nomatch other
      cases same
      refine refersTo_scope_of_isFronted ?_
      rw [isFronted, known]
      exact List.any_eq_true.mpr ⟨group, listed, bne_iff_ne.mpr fronted⟩
    · obtain ⟨argument, same⟩ := refers.eq_pseudoClass fun _ _ other => nomatch other
      cases same
  · exact refers.of_mem listed member name

/-- The aliases that the token refers to have levels below the limit. -/
def StaysBelow (custom : CustomClasses ν σ) (level : String → Nat) (limit : Nat) (token : Token) : Prop :=
  ∀ name, token.RefersTo name → (custom.standsFor? name).isSome = true → level name < limit

section Levels

variable {custom : CustomClasses ν σ} {level : String → Nat}

theorem StaysBelow.callee {limit : Nat} {name : String} {groups : SelectorList}
    (below : (Token.subselect name groups).StaysBelow custom level limit) {kind : Subselect}
    (known : Subselect.ofName? name = some kind) {callee : Token} (called : callee ∈ kind.callees groups) :
    callee.StaysBelow custom level limit :=
  fun other refers => below other (refersTo_of_mem_callees known called refers)

variable (falls : ∀ name other, custom.LeadsTo name other → level other < level name)
include falls

theorem staysBelow_of_alias {name : String} {selectors : SelectorList}
    (stands : custom.standsFor? name = some selectors) {callee : Token}
    (called : callee ∈ Subselect.anyOf.callees selectors) : callee.StaysBelow custom level (level name) :=
  fun other refers isAlias =>
    falls name other ⟨selectors, stands, isAlias, refersTo_of_mem_callees rfl called refers⟩

/-- Calls from a token come to an end: first by the level of the aliases that are left, and on one level by
the depth of the token. -/
theorem StaysBelow.acc {limit : Nat} {token : Token} (below : token.StaysBelow custom level limit) :
    Acc (fun callee token : Token => callee ∈ token.callees custom) token := by
  induction limit using Nat.strong_induction_on generalizing token with
  | _ limit lower =>
    have plain {name : String} {argument : Option String}
        (stays : (custom.standsFor? name).isSome = true → level name < limit) :
        Acc (fun callee token : Token => callee ∈ token.callees custom) (.pseudoClass name argument) := by
      refine Acc.intro _ fun callee called => ?_
      cases argument with
      | some text => cases called
      | none =>
        cases stands : custom.standsFor? name with
        | none =>
          rw [callees, stands] at called
          cases called
        | some selectors =>
          rw [callees_alias stands] at called
          exact lower (level name) (stays (by rw [stands]; rfl)) (staysBelow_of_alias falls stands called)
    induction token using Token.induct with
    | pseudoClass name argument => exact plain (below name (refersTo_pseudoClass name argument))
    | subselect name groups ih =>
      refine Acc.intro _ fun callee called => ?_
      rw [callees_subselect] at called
      cases known : Subselect.ofName? name with
      | none =>
        rw [known] at called
        cases called
      | some kind =>
        rw [known] at called
        have within := below.callee known called
        obtain ⟨group, listed, front | member⟩ := Subselect.mem_callees.mp called
        · obtain ⟨_, rfl | rfl⟩ := mem_tokens_front front
          · exact plain (within "scope" (refersTo_pseudoClass "scope" none))
          · exact Acc.intro _ fun _ none => nomatch none
        · exact ih group listed callee member within
    | _ => exact Acc.intro _ fun _ called => nomatch called

end Levels

end Token

/-- How many calls are made for each token, itself included, if no group is left early. -/
theorem exists_calls {custom : CustomClasses ν σ}
    (ends : ∀ token, Acc (fun callee token : Token => callee ∈ token.callees custom) token) :
    ∃ calls : Token → Nat, ∀ token, calls token = 1 + ((token.callees custom).map calls).sum := by
  have ended : WellFounded fun callee token : Token => callee ∈ token.callees custom := ⟨ends⟩
  refine ⟨ended.fix fun token calls => 1 + ((token.callees custom).attach.map fun callee =>
    calls callee.1 callee.2).sum, fun token => ?_⟩
  rw [WellFounded.fix_eq, List.attach_map_val]

/-- The steps that calls make when they may be nested this deep, and deeper ones are cut off. -/
def callWithin (cut : Step ν σ) : Nat → Token → Step ν σ
  | 0 => fun _ => cut
  | depth + 1 => Token.stepCalling (callWithin cut depth)

namespace SelectorList

def compileCalling (call : Token → Step ν σ) (selectors : SelectorList) (options : Options ν σ)
    (given : Option (MatchContext ν)) : CompileM σ (Query ν σ) :=
  Prepared.compile (call Selector.scope) (Prepared.calling call selectors) options (given.map Scope.fixed)

end SelectorList

section Counted

variable {custom : CustomClasses ν σ} {level : String → Nat}
  (falls : ∀ name other, custom.LeadsTo name other → level other < level name)
  {calls : Token → Nat} (count : ∀ token, calls token = 1 + ((token.callees custom).map calls).sum)

include count in
theorem calls_lt {token callee : Token} (called : callee ∈ token.callees custom) :
    calls callee < calls token := by
  have counted : calls callee ≤ ((token.callees custom).map calls).sum :=
    List.le_sum_of_mem (List.mem_map_of_mem called)
  rw [count token]
  omega

include falls count

/-- Calls that may be nested as deep as there are calls are not cut off: they make the step that aliases
expanded to the limit of the levels make. -/
theorem callWithin_eq (cut : Step ν σ) {token : Token} {limit depth : Nat}
    (below : token.StaysBelow custom level limit) (enough : calls token ≤ depth) :
    (callWithin cut depth token).withClasses custom = (tokenStep (expansion limit) token).withClasses custom := by
  induction depth generalizing token limit with
  | zero =>
    rw [count token] at enough
    omega
  | succ depth ih =>
    have called {callee : Token} (calls : callee ∈ token.callees custom) := calls_lt count calls
    cases token with
    | pseudoClass name argument =>
      refine pseudoClassStep_congr fun selectors stands noText => ?_
      subst noText
      have low : level name < limit :=
        below name (Token.refersTo_pseudoClass name none) (by rw [stands]; rfl)
      obtain ⟨limit, rfl⟩ := Nat.exists_eq_succ_of_ne_zero (Nat.ne_zero_of_lt low)
      rw [expansion, Prepared.prepareGroups_eq_calling]
      refine Subselect.anyOf.step_calling_congr fun callee isCallee => ?_
      have within := Token.staysBelow_of_alias falls stands isCallee
      have fewer := called (by rw [Token.callees_alias stands]; exact isCallee)
      exact ih (fun other refers isAlias => (within other refers isAlias).trans_le (Nat.le_of_lt_succ low))
        (Nat.le_of_lt_succ (fewer.trans_le enough))
    | subselect name groups =>
      rw [callWithin, Token.stepCalling, tokenStep, subselectStep]
      cases known : Subselect.ofName? name with
      | none => rfl
      | some kind =>
        dsimp only
        rw [Prepared.prepareGroups_eq_calling]
        refine kind.step_calling_congr fun callee isCallee => ?_
        have fewer := called (by rw [Token.callees_subselect, known]; exact isCallee)
        exact ih (below.callee known isCallee) (Nat.le_of_lt_succ (fewer.trans_le enough))
    | _ => rfl

end Counted

end SelectorEngine
