import SelectorEngine.Proofs.Compile.Outcome
import SelectorEngine.Proofs.Selector.Foresight
import SelectorEngine.Proofs.Tree.Forest

/-! Which aliases an alias leads to: those in its list, and `:scope` where it is put in front of a group. The
caller's aliases and the built-in ones that the caller has nothing else for are taken together. -/
namespace SelectorEngine

variable {ν σ : Type}

namespace Token

/-- A group of the argument has `:scope` put in front of it. -/
def isFronted : Token → Bool
  | .subselect name groups => (Subselect.ofName? name).any fun kind =>
    groups.any fun group => Selector.front (kind.anchorsArgument groups) group != .nothing
  | _ => false

/-- The pseudo-class is in the token at some depth, or it is `:scope` and put in front of a group there. -/
def RefersTo (token : Token) (name : String) : Prop :=
  (∃ argument, (Token.pseudoClass name argument).OccursIn [[token]]) ∨
    name = "scope" ∧ ∃ inner : Token, inner.OccursIn [[token]] ∧ inner.isFronted = true

theorem refersTo_pseudoClass (name : String) (argument : Option String) :
    (Token.pseudoClass name argument).RefersTo name :=
  .inl ⟨argument, .here List.mem_cons_self List.mem_cons_self⟩

theorem refersTo_scope_of_isFronted {token : Token} (fronted : token.isFronted = true) :
    token.RefersTo "scope" :=
  .inr ⟨rfl, token, .here List.mem_cons_self List.mem_cons_self, fronted⟩

/-- What a token without a list refers to is its own name. -/
theorem RefersTo.eq_pseudoClass {token : Token} {name : String} (refers : token.RefersTo name)
    (plain : ∀ outer groups, token ≠ .subselect outer groups) :
    ∃ argument, token = .pseudoClass name argument := by
  have only {inner : Token} (occurs : inner.OccursIn [[token]]) : inner = token := by
    cases occurs with
    | here listed member =>
      obtain rfl := List.mem_singleton.mp listed
      exact List.mem_singleton.mp member
    | deeper listed member _ =>
      obtain rfl := List.mem_singleton.mp listed
      exact absurd (List.mem_singleton.mp member).symm (plain _ _)
  rcases refers with ⟨argument, occurs⟩ | ⟨_, inner, occurs, fronted⟩
  · exact ⟨argument, (only occurs).symm⟩
  · cases inner with
    | subselect outer groups => exact absurd (only occurs).symm (plain _ _)
    | _ => cases fronted

theorem RefersTo.of_mem {groups : SelectorList} {group : Group} {token : Token} {name : String}
    (refers : token.RefersTo name) (listed : group ∈ groups) (member : token ∈ group) (outer : String) :
    (Token.subselect outer groups).RefersTo name := by
  have inside {inner : Token} (occurs : inner.OccursIn [[token]]) : inner.OccursIn [[.subselect outer groups]] :=
    .deeper List.mem_cons_self List.mem_cons_self (occurs.of_singleton listed member)
  rcases refers with ⟨argument, occurs⟩ | ⟨same, inner, occurs, fronted⟩
  · exact .inl ⟨argument, inside occurs⟩
  · exact .inr ⟨same, inner, inside occurs, fronted⟩

end Token

/-- Of the built-in aliases three have another one in their lists. -/
def Selector.abbreviationLevel (name : String) : Nat :=
  if ["link", "enabled", "checked"].contains name then 1 else 0

namespace CustomClasses

variable (custom : CustomClasses ν σ)

/-- The list that a pseudo-class stands for, if it is an alias. -/
def standsFor? (name : String) : Option SelectorList :=
  (custom.aliases.lookup name).or <|
    if (custom.filters.lookup name).isSome || (custom.checks.lookup name).isSome then none
    else Selector.abbreviations.lookup name

/-- The other alias is in the list of the first, at some depth. -/
def Mentions (name other : String) : Prop :=
  ∃ selectors, custom.standsFor? name = some selectors ∧ (custom.standsFor? other).isSome = true ∧
    ∃ argument, (Token.pseudoClass other argument).OccursIn selectors

/-- The other alias is met where the first is compiled. An alias is compiled as `:is()` of its list is, so
`:scope` may be put in front of groups of it. -/
def LeadsTo (name other : String) : Prop :=
  ∃ selectors, custom.standsFor? name = some selectors ∧ (custom.standsFor? other).isSome = true ∧
    (Selector.anyOf selectors).RefersTo other

/-- No alias leads back to itself. -/
def IsAcyclic : Prop := ∀ name, ¬ Relation.TransGen custom.LeadsTo name name

theorem leadsTo_of_mentions {name other : String} (mentions : custom.Mentions name other) :
    custom.LeadsTo name other := by
  obtain ⟨selectors, stands, isAlias, argument, occurs⟩ := mentions
  obtain ⟨group, listed, token, member, inside⟩ := occurs.exists_token
  exact ⟨selectors, stands, isAlias, Token.RefersTo.of_mem (.inl ⟨argument, inside⟩) listed member "is"⟩

variable {custom}

/-- Only for `:scope` it matters what is put in front of groups. -/
theorem leadsTo_iff_mentions (plain : custom.standsFor? "scope" = none) {name other : String} :
    custom.LeadsTo name other ↔ custom.Mentions name other := by
  refine ⟨fun leads => ?_, custom.leadsTo_of_mentions⟩
  obtain ⟨selectors, stands, isAlias, ⟨argument, occurs⟩ | ⟨rfl, _⟩⟩ := leads
  · refine ⟨selectors, stands, isAlias, argument, ?_⟩
    cases occurs with
    | here listed member =>
      obtain rfl := List.mem_singleton.mp listed
      cases List.mem_singleton.mp member
    | deeper listed member inside =>
      obtain rfl := List.mem_singleton.mp listed
      cases List.mem_singleton.mp member
      exact inside
  · rw [plain] at isAlias
    cases isAlias

theorem mem_of_standsFor {name : String} {selectors : SelectorList}
    (stands : custom.standsFor? name = some selectors) :
    (name, selectors) ∈ custom.aliases ++ Selector.abbreviations := by
  rw [standsFor?, Option.or_eq_some_iff] at stands
  rw [List.mem_append]
  rcases stands with own | ⟨_, builtin⟩
  · obtain ⟨before, after, split, _⟩ := List.lookup_eq_some_iff.mp own
    rw [split]
    exact .inl (by simp)
  · split at builtin
    · cases builtin
    · exact .inr (Selector.mem_abbreviations builtin)

/-- No alias of the table mentions one of its own level or of a higher one. -/
def HasLevels (custom : CustomClasses ν σ) (level : String → Nat) : Prop :=
  ∀ entry ∈ custom.aliases ++ Selector.abbreviations, SelectorList.uses (fun other =>
    ((custom.aliases ++ Selector.abbreviations).lookup other).isSome && level entry.1 ≤ level other)
    entry.2 = false

theorem HasLevels.falls {level : String → Nat} (levels : custom.HasLevels level) {name other : String}
    (mentions : custom.Mentions name other) : level other < level name := by
  obtain ⟨selectors, stands, isAlias, argument, occurs⟩ := mentions
  obtain ⟨list, standsFor⟩ := Option.isSome_iff_exists.mp isAlias
  have unused := occurs.uses_eq_false (levels _ (mem_of_standsFor stands))
  have found : ((custom.aliases ++ Selector.abbreviations).lookup other).isSome = true :=
    List.lookup_isSome_iff.mpr ⟨_, mem_of_standsFor standsFor, beq_self_eq_true other⟩
  rw [Token.uses, found, Bool.true_and, decide_eq_false_iff_not] at unused
  exact Nat.lt_of_not_le unused

theorem isAcyclic_of_hasLevels (level : String → Nat) (plain : custom.standsFor? "scope" = none)
    (levels : custom.HasLevels level) : custom.IsAcyclic :=
  not_transGen_self fun _ _ leads => levels.falls ((leadsTo_iff_mentions plain).mp leads)

/-- The built-in aliases do not lead back to themselves. -/
theorem isAcyclic_of_no_aliases (nothing : custom.aliases = []) : custom.IsAcyclic := by
  refine isAcyclic_of_hasLevels Selector.abbreviationLevel ?_ ?_
  · rw [standsFor?, nothing]
    split <;> rfl
  · rw [HasLevels, nothing]
    decide

/-- Without cycles, aliases have levels that fall, and there are as many levels as aliases. -/
theorem IsAcyclic.exists_level (acyclic : custom.IsAcyclic) : ∃ level : String → Nat,
    (∀ name other, custom.LeadsTo name other → level other < level name) ∧
      ∀ name, (custom.standsFor? name).isSome = true → level name < custom.aliasDepth := by
  let names : Finset String := ((custom.aliases ++ Selector.abbreviations).map Prod.fst).toFinset
  have listed {name : String} (isAlias : (custom.standsFor? name).isSome = true) : name ∈ names := by
    obtain ⟨selectors, stands⟩ := Option.isSome_iff_exists.mp isAlias
    exact List.mem_toFinset.mpr (List.mem_map.mpr ⟨_, mem_of_standsFor stands, rfl⟩)
  have few : names.card ≤ custom.aliasDepth := by
    refine (List.toFinset_card_le _).trans (Nat.le_of_eq ?_)
    rw [List.length_map, List.length_append, aliasDepth]
  obtain ⟨level, falls, low⟩ := exists_height acyclic names fun _ _ leads => by
    obtain ⟨_, _, isAlias, _⟩ := leads
    exact listed isAlias
  exact ⟨level, falls, fun name isAlias => (low name (listed isAlias)).trans_le few⟩

end CustomClasses
end SelectorEngine
