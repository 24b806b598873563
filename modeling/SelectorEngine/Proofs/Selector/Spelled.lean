import SelectorEngine.Proofs.Selector.Foresight

/-! A pseudo-class of the caller's that stands for a list, spelled out: `:is()` of the list in its place, at
any depth. Combinators, `:scope` and the pseudo-classes with lists stay where they are, so a selector starts
at the scope, or with a combinator, as it does spelled out. Only the ranks of its tokens change, and whether
it mentions `:scope`. -/
namespace SelectorEngine

namespace Selector

/-- The name is one of a pseudo-class that is known without the caller. -/
def isBuiltin (name : String) : Bool :=
  (abbreviations.lookup name).isSome || (BuiltinFilter.ofName? name).isSome ||
    (StructuralClass.ofName? name).isSome || (Subselect.ofName? name).isSome

end Selector

/-- A pseudo-class of the caller's that stands for a list in which it does not occur. -/
structure Alias where
  name : String
  list : SelectorList
  own : Selector.isBuiltin name = false
  unused : list.uses (· == name) = false

namespace Alias

mutual

/-- With `:is()` of the list in place of the pseudo-class, where it has no argument. -/
def spell (entry : Alias) : Token → Token
  | .pseudoClass other none =>
    if other == entry.name then .subselect "is" entry.list else .pseudoClass other none
  | .subselect other groups => .subselect other (spellGroups entry groups)
  | token => token

def spellGroups (entry : Alias) : List (List Token) → List (List Token)
  | [] => []
  | group :: rest => spellGroup entry group :: spellGroups entry rest

def spellGroup (entry : Alias) : List Token → List Token
  | [] => []
  | token :: rest => spell entry token :: spellGroup entry rest

end

/-- Tokens are the alias, with or without the argument it does not take, or have lists, or are the same
without the alias. -/
@[elab_as_elim]
theorem induct (entry : Alias) {motive : Token → Prop}
    (standing : motive (.pseudoClass entry.name none))
    (faulty : ∀ text, motive (.pseudoClass entry.name (some text)))
    (subselect : ∀ name groups, (∀ group ∈ groups, ∀ token ∈ group, motive token) →
      motive (.subselect name groups))
    (unused : ∀ token : Token, token.uses (· == entry.name) = false → motive token) (token : Token) :
    motive token := by
  induction token using Token.induct with
  | pseudoClass name argument =>
    cases same : name == entry.name with
    | false => exact unused _ same
    | true =>
      obtain rfl := beq_iff_eq.mp same
      cases argument with
      | none => exact standing
      | some text => exact faulty text
  | subselect name groups ih => exact subselect name groups ih
  | _ => exact unused _ rfl

variable (entry : Alias)

theorem spellGroup_eq_map (group : Group) : entry.spellGroup group = group.map entry.spell := by
  induction group with
  | nil => rfl
  | cons token rest ih => rw [spellGroup, ih, List.map_cons]

theorem spellGroups_eq_map (groups : SelectorList) :
    entry.spellGroups groups = groups.map (List.map entry.spell) := by
  induction groups with
  | nil => rfl
  | cons group rest ih => rw [spellGroups, ih, spellGroup_eq_map, List.map_cons]

theorem ne_of_isBuiltin {name : String} (builtin : Selector.isBuiltin name = true) :
    (name == entry.name) = false := by
  refine Bool.eq_false_iff.mpr fun same => ?_
  rw [beq_iff_eq.mp same, entry.own] at builtin
  cases builtin

theorem ne_scope : ("scope" == entry.name) = false := entry.ne_of_isBuiltin (by decide)

theorem unused_anyOf : (Token.subselect "is" entry.list).uses (· == entry.name) = false := by
  have other := entry.ne_of_isBuiltin (by decide : Selector.isBuiltin "is" = true)
  rw [Token.uses, Token.anyGroupUses_eq_any, other]
  exact entry.unused

theorem spell_subselect (other : String) (groups : SelectorList) :
    entry.spell (.subselect other groups) = .subselect other (groups.map (List.map entry.spell)) := by
  rw [spell, spellGroups_eq_map]

theorem spell_name : entry.spell (.pseudoClass entry.name none) = .subselect "is" entry.list := by
  rw [spell, beq_self_eq_true, if_pos rfl]

theorem spell_pseudoClass {other : String} (different : (other == entry.name) = false)
    (argument : Option String) :
    entry.spell (.pseudoClass other argument) = .pseudoClass other argument := by
  cases argument with
  | none => rw [spell, different, if_neg Bool.false_ne_true]
  | some text => rfl

theorem spell_scope : entry.spell Selector.scope = Selector.scope :=
  entry.spell_pseudoClass entry.ne_scope none

private theorem map_spell_eq_self {groups : SelectorList}
    (each : ∀ group ∈ groups, ∀ token ∈ group, entry.spell token = token) :
    groups.map (List.map entry.spell) = groups := by
  have same (group : Group) (listed : group ∈ groups) : group.map entry.spell = group :=
    (List.map_congr_left (each group listed)).trans (List.map_id _)
  exact (List.map_congr_left same).trans (List.map_id _)

theorem spell_of_unused {token : Token} (unused : token.uses (· == entry.name) = false) :
    entry.spell token = token := by
  induction token using Token.induct with
  | pseudoClass other argument => exact entry.spell_pseudoClass unused argument
  | subselect other groups ih =>
    have inside := (Token.uses_subselect_eq_false unused).2
    rw [spell_subselect, entry.map_spell_eq_self fun group listed token member =>
      ih group listed token member (SelectorList.uses_of_mem inside listed member)]
  | _ => rfl

theorem spell_spell (token : Token) : entry.spell (entry.spell token) = entry.spell token := by
  induction token using entry.induct with
  | standing => rw [spell_name, entry.spell_of_unused entry.unused_anyOf]
  | faulty text => rfl
  | subselect other groups ih =>
    have same : groups.map (List.map (entry.spell ∘ entry.spell)) = groups.map (List.map entry.spell) :=
      List.map_congr_left fun group listed => List.map_congr_left (ih group listed)
    rw [spell_subselect, spell_subselect, List.map_map]
    simp only [Function.comp_def, List.map_map] at same ⊢
    rw [same]
  | unused token unused => rw [entry.spell_of_unused unused, entry.spell_of_unused unused]

theorem map_spell_map_spell (selectors : SelectorList) :
    (selectors.map (List.map entry.spell)).map (List.map entry.spell) =
      selectors.map (List.map entry.spell) := by
  simp only [List.map_map, Function.comp_def, entry.spell_spell]

theorem isCombinator_spell (token : Token) : (entry.spell token).isCombinator = token.isCombinator := by
  induction token using entry.induct with
  | standing => rw [spell_name]; rfl
  | faulty text => rfl
  | subselect other groups => rfl
  | unused token unused => rw [entry.spell_of_unused unused]

theorem isScope_spell (token : Token) : (entry.spell token).isScope = token.isScope := by
  induction token using entry.induct with
  | standing =>
    rw [spell_name]
    exact (Bool.beq_comm.trans entry.ne_scope).symm
  | faulty text => rfl
  | subselect other groups => rfl
  | unused token unused => rw [entry.spell_of_unused unused]

theorem mentionsScope_spell (unmentioned : Token.anyGroupMentionsScope entry.list = false) (token : Token) :
    (entry.spell token).mentionsScope = token.mentionsScope := by
  induction token using entry.induct with
  | standing =>
    have inList : (Token.subselect "is" entry.list).mentionsScope = false := by
      rw [Token.mentionsScope, unmentioned]
      rfl
    rw [spell_name, inList]
    exact (Bool.beq_comm.trans entry.ne_scope).symm
  | faulty text => rfl
  | subselect other groups ih =>
    have inside : (groups.map (List.map entry.spell)).any (·.any Token.mentionsScope) =
        groups.any (·.any Token.mentionsScope) := by
      rw [List.any_map]
      refine Token.any_congr_of_mem fun group listed => ?_
      rw [Function.comp_apply, List.any_map]
      exact Token.any_congr_of_mem fun token member => ih group listed token member
    rw [spell_subselect, Token.mentionsScope, Token.mentionsScope, Token.anyGroupMentionsScope_eq_any,
      Token.anyGroupMentionsScope_eq_any, inside]
  | unused token unused => rw [entry.spell_of_unused unused]

end Alias

namespace Selector

variable (entry : Alias)

theorem leading_spell (group : Group) : leading (group.map entry.spell) = leading group := by
  cases group with
  | nil => rfl
  | cons first rest =>
    have same := entry.isCombinator_spell first
    rw [List.map_cons]
    cases first with
    | combinator kind => rfl
    | _ =>
      generalize entry.spell _ = token at same ⊢
      cases token with
      | combinator kind => cases same
      | _ => rfl

theorem opening_spell (group : Group) :
    opening (group.map entry.spell) = (opening group).map (Prod.map entry.spell id) := by
  cases group with
  | nil => rfl
  | cons first rest =>
    rw [List.map_cons, opening, leading_spell, opening, Option.map_map]
    rfl

theorem startsRelative_spell (group : Group) :
    startsRelative (group.map entry.spell) = startsRelative group := by
  rw [startsRelative_eq, leading_spell, startsRelative_eq]

theorem startsAmongSiblings_spell (group : Group) :
    startsAmongSiblings (group.map entry.spell) = startsAmongSiblings group := by
  rw [startsAmongSiblings_eq, opening_spell, Option.any_map, startsAmongSiblings_eq]
  simp only [Prod.map, entry.isScope_spell, id]

theorem startsBelowScope_spell (group : Group) :
    startsBelowScope (group.map entry.spell) = startsBelowScope group := by
  rw [startsBelowScope_eq, opening_spell, Option.any_map, startsBelowScope_eq]
  simp only [Prod.map, entry.isScope_spell, id]

theorem isRelative_spell (groups : SelectorList) :
    isRelative (groups.map (List.map entry.spell)) = isRelative groups := by
  simp only [isRelative, List.any_map, Function.comp_def, entry.isCombinator_spell]

/-- The group is anchored as it is when it is spelled out. -/
def KeepsFront (anchored : Bool) (group : Group) : Prop :=
  front anchored (group.map entry.spell) = front anchored group

theorem keepsFront_false (group : Group) : KeepsFront entry false group := by
  rw [KeepsFront, front, startsRelative_spell, front]
  rfl

theorem keepsFront_of_unused {group : Group}
    (unused : ∀ token ∈ group, token.uses (· == entry.name) = false) (anchored : Bool) :
    KeepsFront entry anchored group := by
  have each (token : Token) (member : token ∈ group) : entry.spell token = token :=
    entry.spell_of_unused (unused token member)
  rw [KeepsFront, (List.map_congr_left each).trans (List.map_id _)]

/-- A list that does not mention `:scope` hides none. -/
theorem keepsFront_of_unmentioned (unmentioned : Token.anyGroupMentionsScope entry.list = false)
    (anchored : Bool) (group : Group) : KeepsFront entry anchored group := by
  have same : (group.map entry.spell).any Token.mentionsScope = group.any Token.mentionsScope := by
    simp only [List.any_map, Function.comp_def, entry.mentionsScope_spell unmentioned]
  rw [KeepsFront, front, startsRelative_spell, same, front]

private theorem map_spell_front (front : Front) : front.tokens.map entry.spell = front.tokens := by
  cases front with
  | nothing => rfl
  | scope => exact congrArg (· :: []) entry.spell_scope
  | scopeDescendant => exact congrArg (· :: [descendant]) entry.spell_scope

private theorem widened_spell (group : Group) :
    widened (group.map entry.spell) = (widened group).map entry.spell := by
  rcases group with _ | ⟨first, _ | ⟨second, rest⟩⟩
  · rfl
  · rfl
  · have below := startsBelowScope_spell entry (first :: second :: rest)
    change (if startsBelowScope ((first :: second :: rest).map entry.spell) then _ else _) =
      (if startsBelowScope (first :: second :: rest) then _ else _ : Group).map entry.spell
    rw [below]
    split <;> rfl

theorem written_spell (collection : Bool) {anchored : Bool} {group : Group}
    (alike : KeepsFront entry anchored group) :
    written collection anchored (group.map entry.spell) =
      (written collection anchored group).map entry.spell := by
  unfold written
  dsimp only
  rw [alike]
  conv => lhs; rw [← map_spell_front entry, ← List.map_append]
  cases collection with
  | false => rfl
  | true => exact widened_spell entry _

private theorem startsAmongSiblings_front (anchored : Bool) (group : Group) :
    startsAmongSiblings ((front anchored group).tokens ++ group) =
      if startsRelative group then startsAmongSiblings (scope :: group) else startsAmongSiblings group := by
  cases relative : startsRelative group with
  | true => rw [front, relative, if_pos rfl, if_pos rfl]; rfl
  | false =>
    rw [front_of_absolute relative, if_neg Bool.false_ne_true]
    split
    · next fronted =>
      have unmentioned : group.any Token.mentionsScope = false := by
        rw [Bool.and_eq_true, Bool.not_eq_true'] at fronted
        exact fronted.2
      exact (startsAmongSiblings_of_unmentioned unmentioned).symm
    · rfl

/-- Whether or not it is anchored alike, a group asks for siblings as it does spelled out. -/
theorem startsAmongSiblings_front_spell (anchored : Bool) (group : Group) :
    startsAmongSiblings ((front anchored (group.map entry.spell)).tokens ++ group.map entry.spell) =
      startsAmongSiblings ((front anchored group).tokens ++ group) := by
  have atScope : startsAmongSiblings (scope :: group.map entry.spell) =
      startsAmongSiblings (scope :: group) := by
    rw [← startsAmongSiblings_spell entry (scope :: group), List.map_cons, entry.spell_scope]
  rw [startsAmongSiblings_front, startsRelative_spell, atScope, startsAmongSiblings_spell,
    startsAmongSiblings_front]

theorem reachesSiblings_spell (groups : SelectorList) :
    reachesSiblings (groups.map (List.map entry.spell)) = reachesSiblings groups := by
  rw [reachesSiblings, isRelative_spell, List.any_map, reachesSiblings]
  simp only [Function.comp_def, startsAmongSiblings_front_spell]

end Selector

namespace Alias

variable (entry : Alias)

/-- Whatever is anchored in the list, with the caller's context or as a relative argument of `:has()`, is
anchored as it is when it is spelled out. Which groups are anchored is decided before aliases are expanded. -/
structure AnchorsAlike (anchored : Bool) (selectors : SelectorList) : Prop where
  groups : ∀ group ∈ selectors, Selector.KeepsFront entry anchored group
  arguments : ∀ argument, (Token.subselect "has" argument).OccursIn selectors →
    Selector.isRelative argument = true → ∀ group ∈ argument, Selector.KeepsFront entry true group

variable {entry}

theorem AnchorsAlike.token {anchored : Bool} {selectors : SelectorList}
    (alike : entry.AnchorsAlike anchored selectors) {group : Group} (listed : group ∈ selectors)
    {token : Token} (member : token ∈ group) : entry.AnchorsAlike false [[token]] where
  groups _ _ := Selector.keepsFront_false entry _
  arguments argument occurs := alike.arguments argument (occurs.of_singleton listed member)

theorem AnchorsAlike.argument {name : String} {groups : SelectorList}
    (alike : entry.AnchorsAlike false [[.subselect name groups]]) : entry.AnchorsAlike false groups where
  groups _ _ := Selector.keepsFront_false entry _
  arguments argument occurs := alike.arguments argument
    (.deeper (List.mem_singleton_self _) (List.mem_singleton_self _) occurs)

theorem AnchorsAlike.relative {groups : SelectorList}
    (alike : entry.AnchorsAlike false [[.subselect "has" groups]])
    (relative : Selector.isRelative groups = true) : ∀ group ∈ groups, Selector.KeepsFront entry true group :=
  alike.arguments groups (.here (List.mem_singleton_self _) (List.mem_singleton_self _)) relative

/-- An alias that does not mention `:scope` hides none. -/
theorem anchorsAlike_of_unmentioned (unmentioned : Token.anyGroupMentionsScope entry.list = false)
    (anchored : Bool) (selectors : SelectorList) : entry.AnchorsAlike anchored selectors where
  groups group _ := Selector.keepsFront_of_unmentioned entry unmentioned anchored group
  arguments _ _ _ group _ := Selector.keepsFront_of_unmentioned entry unmentioned true group

private theorem keepsFront_map_spell (anchored : Bool) (group : Group) :
    Selector.KeepsFront entry anchored (group.map entry.spell) := by
  rw [Selector.KeepsFront, List.map_map]
  simp only [Function.comp_def, entry.spell_spell]

private theorem keepsFront_of_occursIn {name : String} {groups : SelectorList} {token : Token}
    (occurs : (Token.subselect name groups).OccursIn [[entry.spell token]]) :
    ∀ group ∈ groups, Selector.KeepsFront entry true group := by
  have plain {token : Token} (unused : token.uses (· == entry.name) = false)
      (occurs : (Token.subselect name groups).OccursIn [[token]]) :
      ∀ group ∈ groups, Selector.KeepsFront entry true group := by
    have inside := occurs.uses_eq_false (SelectorList.uses_singleton (List.forall_mem_singleton.mpr unused))
    exact fun _ listed => Selector.keepsFront_of_unused entry
      (fun _ member => SelectorList.uses_of_mem (Token.uses_subselect_eq_false inside).2 listed member) true
  induction token using entry.induct with
  | standing =>
    rw [spell_name] at occurs
    exact plain entry.unused_anyOf occurs
  | faulty text =>
    cases occurs with
    | here listed member =>
      obtain rfl := List.mem_singleton.mp listed
      cases List.mem_singleton.mp member
    | deeper listed member _ =>
      obtain rfl := List.mem_singleton.mp listed
      cases List.mem_singleton.mp member
  | subselect other inner ih =>
    rw [spell_subselect] at occurs
    cases occurs with
    | here listed member =>
      obtain rfl := List.mem_singleton.mp listed
      cases List.mem_singleton.mp member
      exact List.forall_mem_map.mpr fun group _ => keepsFront_map_spell true group
    | deeper listed member occurs =>
      obtain rfl := List.mem_singleton.mp listed
      cases List.mem_singleton.mp member
      obtain ⟨_, inList, _, inGroup, further⟩ := occurs.exists_token
      obtain ⟨group, listed, rfl⟩ := List.mem_map.mp inList
      obtain ⟨token, member, rfl⟩ := List.mem_map.mp inGroup
      exact ih group listed token member further
  | unused token unused =>
    rw [entry.spell_of_unused unused] at occurs
    exact plain unused occurs

/-- What is spelled out has no alias in it. -/
theorem anchorsAlike_map_spell (anchored : Bool) (selectors : SelectorList) :
    entry.AnchorsAlike anchored (selectors.map (List.map entry.spell)) where
  groups := List.forall_mem_map.mpr fun group _ => keepsFront_map_spell anchored group
  arguments argument occurs _ := by
    obtain ⟨_, inList, _, member, further⟩ := occurs.exists_token
    obtain ⟨original, _, rfl⟩ := List.mem_map.mp inList
    obtain ⟨token, _, rfl⟩ := List.mem_map.mp member
    exact keepsFront_of_occursIn further

end Alias
end SelectorEngine
