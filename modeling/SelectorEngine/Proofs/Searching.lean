import SelectorEngine.Proofs.Compile.Documented
import SelectorEngine.Proofs.Compile.Remembering
import SelectorEngine.Proofs.Meaning.Context
import SelectorEngine.Proofs.Tree.Growth

/-! `:has()` finds exactly what exists. It looks at a part of the tree only, and an argument without
combinators is not even told where it is searched from; still it matches where any element of the tree
is what the argument, read relative to the node, asks for. -/
namespace SelectorEngine

variable {ν σ : Type}

namespace Selector

/-- A group as it is read relative to a node. -/
def readRelative : Group → Group
  | [] => [scope, descendant]
  | first :: rest =>
    if first.isScope then first :: rest
    else if first.isCombinator then scope :: first :: rest
    else scope :: descendant :: first :: rest

def behindScope (group : Group) : Group := if opensAtScope group then group.tail else group

/-- A group that `:has()` finds wherever it is: it refers to the scope by starting with it only, and
leads neither back to children nor, at once, to descendants. -/
structure IsFindable (group : Group) : Prop where
  scopeless : ∀ token ∈ behindScope group, token.IsScopeless
  outward : ∀ kind, .combinator kind ∈ group → kind.isOutward = true
  starts : ∀ rest, group ≠ descendant :: rest

namespace IsFindable

variable {group : Group}

theorem anchorable (findable : IsFindable group) : IsAnchorable group := by
  cases opens : opensAtScope group with
  | true => exact .inl opens
  | false =>
    have whole : behindScope group = group := by rw [behindScope, opens, if_neg Bool.false_ne_true]
    exact .inr fun token member => (findable.scopeless token (by rwa [whole])).1

theorem isScope_or_scopeless (findable : IsFindable group) {token : Token} (member : token ∈ group) :
    token.isScope = true ∨ token.IsScopeless := by
  have behind := findable.scopeless token
  unfold behindScope at behind
  cases opens : opensAtScope group with
  | false =>
    rw [opens, if_neg Bool.false_ne_true] at behind
    exact .inr (behind member)
  | true =>
    rw [opens, if_pos rfl] at behind
    cases group with
    | nil => exact absurd member List.not_mem_nil
    | cons first rest =>
      rcases List.mem_cons.mp member with rfl | further
      · unfold opensAtScope at opens
        split at opens
        · next same =>
          obtain ⟨rfl, _⟩ := List.cons.inj same
          exact .inl opens
        · cases opens
      · exact .inr (behind further)

theorem scopeless_of_compound (findable : IsFindable group)
    (compound : ∀ token ∈ group, token.isCombinator = false) :
    ∀ token ∈ group, token.IsScopeless := by
  have opens : opensAtScope group = false := by
    unfold opensAtScope
    split
    · next first kind rest => cases compound (.combinator kind) (by simp)
    · rfl
  have whole : behindScope group = group := by rw [behindScope, opens, if_neg Bool.false_ne_true]
  exact whole ▸ findable.scopeless

end IsFindable

theorem written_eq_readRelative {group : Group} (findable : IsFindable group) :
    written false true group = readRelative group := by
  have fronted : written false true group = (front true group).tokens ++ group := rfl
  rw [fronted]
  cases group with
  | nil => rfl
  | cons first rest =>
    unfold readRelative front
    dsimp only
    cases isScope : first.isScope with
    | true =>
      have mentions : (first :: rest).any Token.mentionsScope = true :=
        List.any_eq_true.mpr ⟨first, List.mem_cons_self, Token.mentionsScope_of_isScope isScope⟩
      have starts : startsRelative (first :: rest) = false := by
        cases first with
        | combinator kind => cases isScope
        | _ => rfl
      rw [starts, mentions, if_pos rfl]
      rfl
    | false =>
      have opens : opensAtScope (first :: rest) = false := by
        unfold opensAtScope
        split
        · next same =>
          obtain ⟨rfl, _⟩ := List.cons.inj same
          exact isScope
        · rfl
      have own := findable.scopeless
      rw [behindScope, opens, if_neg Bool.false_ne_true] at own
      rw [any_mentionsScope_eq_false fun token member => (own token member).1, if_neg Bool.false_ne_true]
      cases first with
      | combinator kind =>
        cases kind with
        | descendant => exact absurd rfl (findable.starts rest)
        | _ => rfl
      | _ => rfl

theorem readRelative_of_compound {group : Group} (scopeless : ∀ token ∈ group, token.IsScopeless)
    (compound : ∀ token ∈ group, token.isCombinator = false) :
    readRelative group = scope :: descendant :: group := by
  cases group with
  | nil => rfl
  | cons first rest =>
    have other : first.isScope = false := by
      refine Bool.eq_false_iff.mpr fun isScope => ?_
      have unmentioned := (scopeless first List.mem_cons_self).1
      rw [Token.mentionsScope_of_isScope isScope] at unmentioned
      cases unmentioned
    unfold readRelative
    dsimp only
    rw [other, compound first List.mem_cons_self, if_neg Bool.false_ne_true,
      if_neg Bool.false_ne_true]

end Selector

namespace Basis

variable {basis : Basis ν} (forest : basis.tree.IsForest)
  (identity : ∀ first second, basis.same first second = true ↔ first = second) (depth : Nat)
include identity

/-- Relative to a node, a compound is found below it, and does not depend on the node otherwise. -/
private theorem holds_readRelative_of_compound {group : Group}
    (compound : ∀ token ∈ group, token.isCombinator = false)
    (scopeless : ∀ token ∈ group, token.IsScopeless) {node : ν}
    (element : basis.tree.isElement node = true) (found : ν) :
    (basis.documented depth).Holds (some (.node node)) (Selector.readRelative group) found ↔
      (basis.documented depth).Holds none (Selector.written false false group) found ∧
        basis.tree.Below node found := by
  have unasked : (basis.documented depth).Holds (some (.node node)) group =
      (basis.documented depth).Holds none group :=
    Reading.holds_congr_of_part fun token member =>
      basis.documented_deepens.part_of_scopeless depth _ _ token (scopeless token member)
  rw [Selector.written_of_scopeless false (Selector.startsRelative_of_compound compound) scopeless,
    Selector.readRelative_of_compound scopeless compound,
    Reading.holds_below_scope_iff (basis.documented_basis depth) identity (basis.documented_leads depth)
      compound element, unasked]

variable {groups : SelectorList} (findable : ∀ group ∈ groups, Selector.IsFindable group)
include findable

include forest in
private theorem exists_searched_iff_of_relative (relative : Selector.isRelative groups = true)
    (node : ν) :
    (∃ found, (basis.documented depth).searched groups node found ∧
      (basis.documented depth).someHolds (some (.node node)) true groups found) ↔
    ∃ found, basis.tree.isElement found = true ∧ ∃ group ∈ groups,
      (basis.documented depth).Holds (some (.node node)) (Selector.readRelative group) found := by
  apply exists_congr
  intro found
  rw [documented_searched, Reading.someHolds_iff, and_assoc]
  apply and_congr_right
  intro element
  constructor
  · intro known
    obtain ⟨_, group, listed, holds⟩ := known
    refine ⟨group, listed, ?_⟩
    rw [← Selector.written_eq_readRelative (findable group listed)]
    exact holds
  · intro known
    obtain ⟨group, listed, holds⟩ := known
    rw [← Selector.written_eq_readRelative (findable group listed)] at holds
    refine ⟨?_, group, listed, holds⟩
    have wide (starts : Selector.startsAmongSiblings (Selector.written false true group) = true) :
        Selector.reachesSiblings groups = true := by
      rw [Selector.reachesSiblings, relative, Bool.true_and, List.any_eq_true]
      exact ⟨group, listed, starts⟩
    exact Reading.inArea_of_holds (basis.documented_basis depth) forest identity
      (basis.documented_leads depth) (findable group listed).anchorable (findable group listed).outward
      wide element holds

private theorem exists_searched_iff_of_compounds (compounds : Selector.isRelative groups = false)
    {node : ν} (element : basis.tree.isElement node = true) :
    (∃ found, (basis.documented depth).searched groups node found ∧
      (basis.documented depth).someHolds none false groups found) ↔
    ∃ found, basis.tree.isElement found = true ∧ ∃ group ∈ groups,
      (basis.documented depth).Holds (some (.node node)) (Selector.readRelative group) found := by
  have stays : Selector.reachesSiblings groups = false := by
    rw [Selector.reachesSiblings, compounds, Bool.false_and]
  have each (group : Group) (listed : group ∈ groups) (found : ν) :
      (basis.documented depth).Holds (some (.node node)) (Selector.readRelative group) found ↔
        (basis.documented depth).Holds none (Selector.written false false group) found ∧
          basis.tree.Below node found := by
    have compound := Selector.compound_of_isRelative compounds listed
    exact holds_readRelative_of_compound identity depth compound
      ((findable group listed).scopeless_of_compound compound) element found
  apply exists_congr
  intro found
  rw [documented_searched, Reading.someHolds_iff, stays, and_assoc]
  apply and_congr_right
  intro _
  constructor
  · intro known
    obtain ⟨inside, group, listed, holds⟩ := known
    refine ⟨group, listed, (each group listed found).mpr ⟨holds, ?_⟩⟩
    exact inside.resolve_right fun further => Bool.false_ne_true further.1
  · intro known
    obtain ⟨group, listed, holds⟩ := known
    obtain ⟨holds, isBelow⟩ := (each group listed found).mp holds
    exact ⟨.inl isBelow, group, listed, holds⟩

include forest in
/-- For `:has()`, what is searched is as good as everything. -/
theorem exists_searched_iff {node : ν} (element : basis.tree.isElement node = true) :
    (∃ found, (basis.documented depth).searched groups node found ∧
      (basis.documented depth).someHolds
        (if Selector.isRelative groups then some (.node node) else none)
        (Selector.isRelative groups) groups found) ↔
    ∃ found, basis.tree.isElement found = true ∧ ∃ group ∈ groups,
      (basis.documented depth).Holds (some (.node node)) (Selector.readRelative group) found := by
  cases relative : Selector.isRelative groups with
  | true => exact exists_searched_iff_of_relative forest identity depth findable relative node
  | false => exact exists_searched_iff_of_compounds identity depth findable relative element

end Basis

theorem Options.holds_has_iff (options : Options ν σ) (builtin : options.custom = {})
    (forest : options.tree.IsForest)
    (identity : ∀ first second, options.same first second = true ↔ first = second)
    (outside : ∃ node, options.tree.isElement node = false) (solid : options.tree.HasSolidInside)
    (depth : Nat) {groups : SelectorList} (findable : ∀ group ∈ groups, Selector.IsFindable group)
    {node : ν} (element : options.tree.isElement node = true) :
    (options.core.reading depth).Holds none [.subselect "has" groups] node ↔
      ∃ found, options.tree.isElement found = true ∧ ∃ group ∈ groups,
        (options.toBasis.documented depth).Holds (some (.node node)) (Selector.readRelative group)
          found := by
  have alike (group : Group) (listed : group ∈ groups) (token : Token) (member : token ∈ group)
      (context : Option (MatchContext ν)) :
      ((options.core.reading depth).part context token).Alike options.tree.isElement
        ((options.toBasis.documented depth).part context token) := by
    rcases (findable group listed).isScope_or_scopeless member with isScope | scopeless
    · exact (reading_matches options forest identity depth).scope_alike context isScope
    · exact part_alike options builtin forest identity outside depth token
        (fun _ => ⟨solid, scopeless.1⟩) context
  rw [Reading.holds_has_iff, options.core.reading_relative,
    ← options.toBasis.exists_searched_iff forest identity depth findable element]
  apply exists_congr
  intro found
  rw [searched_iff options builtin forest identity outside solid depth
    fun group listed => (findable group listed).anchorable]
  apply and_congr_right
  intro searched
  rw [Basis.documented_searched] at searched
  exact (reading_matches options forest identity depth).someHolds_iff _
    (fun group listed token member => alike group listed token member _) searched.1

namespace SelectorList

open CompileM

/-- `:has()` with an argument that can be found anywhere matches, whatever was tested before, the
elements for which some element of the whole tree is what a group of the argument, read relative to
them, asks for. -/
theorem test_has_iff_exists {appended : List Nat} {arena : Arena} (grown : arena.Grown appended)
    (once : appended.Nodup) (acyclic : arena.IsAcyclic) (layered : arena.IsLayered)
    {groups : SelectorList} (unfolded : groups.uses (· == "icontains") = false)
    (findable : ∀ group ∈ groups, Selector.IsFindable group) {session after : Session σ}
    (tidy : session.Tidy) {query : Query Nat σ}
    (compiled : Gives (compile [[.subselect "has" groups]] (Options.ofTree arena.view) none)
      session query after) :
    ∃ answer, query.Answers after answer ∧ ∀ node, arena.view.isElement node = true →
      (answer node = true ↔ ∃ found, arena.view.isElement found = true ∧ ∃ group ∈ groups,
        ((Options.ofTree arena.view : Options Nat σ).toBasis.documented depth).Holds
          (some (.node node)) (Selector.readRelative group) found) := by
  have uses : SelectorList.uses (· == "icontains") [[.subselect "has" groups]] = false := by
    rw [SelectorList.uses, List.any_cons, List.any_nil, List.any_cons, List.any_nil, Bool.or_false,
      Bool.or_false, Token.uses, Token.anyGroupUses_eq_any]
    exact unfolded
  obtain ⟨ledger, grows, governed⟩ := grows_compile (Options.ofTree arena.view) rfl rfl
    (fun _ => grown.view_remembers acyclic) (fun _ => uses) compiled
    (Nat.le_refl (session.ledger tidy).bound)
  refine ⟨query.predicate.passes none, Query.answers_of_governed grows.keeps grows.within governed,
    fun node element => ?_⟩
  rw [passes_compile rfl rfl rfl compiled]
  refine (and_iff_right element).trans ((Reading.someHolds_iff _ _ _ _ _).trans ?_)
  simp only [List.mem_singleton, exists_eq_left]
  exact Options.holds_has_iff (Options.ofTree arena.view) rfl (grown.view_isForest once acyclic)
    (fun first second => beq_iff_eq) ⟨_, arena.view_isElement_size⟩ (layered.hasSolidInside grown)
    depth findable element

theorem test_has_iff_exists_for_child :
    ∃ (query : Query Nat Unit) (after : Session Unit),
      Gives (compile [[.subselect "has" [[Selector.child, Selector.tag "b"]]]]
        (Options.ofTree Arena.withElementsInside.view) none) { host := () } query after ∧
      ∃ answer, query.Answers after answer ∧
        ∀ node, Arena.withElementsInside.view.isElement node = true →
          (answer node = true ↔ ∃ found, Arena.withElementsInside.view.isElement found = true ∧
            ∃ group ∈ [[Selector.child, Selector.tag "b"]],
              ((Options.ofTree Arena.withElementsInside.view : Options Nat Unit).toBasis.documented
                depth).Holds (some (.node node)) (Selector.readRelative group) found) := by
  obtain ⟨appended, sprouted⟩ := Arena.exists_sprouted_withElementsInside
  have findable : Selector.IsFindable [Selector.child, Selector.tag "b"] := by
    refine ⟨by decide, fun kind member => ?_, fun rest same => ?_⟩
    · rcases List.mem_cons.mp member with same | last
      · cases same
        rfl
      · cases List.mem_singleton.mp last
    · cases (List.cons.inj same).1
  have compiled : ∃ (query : Query Nat Unit) (after : Session Unit),
      Gives (compile [[.subselect "has" [[Selector.child, Selector.tag "b"]]]]
        (Options.ofTree Arena.withElementsInside.view) none) { host := () } query after :=
    ⟨_, _, rfl⟩
  obtain ⟨query, after, compiled⟩ := compiled
  exact ⟨query, after, compiled, test_has_iff_exists sprouted.grown sprouted.once
    sprouted.ordered.isAcyclic Arena.isLayered_withElementsInside (by decide +kernel)
    (List.forall_mem_singleton.mpr findable) (Session.tidy_of_empty _ _ _) compiled⟩

/-- Where a document stands inside of an element, what is below it is not found. -/
theorem has_overlooks_below_document :
    ∃ (appended : List Nat) (query : Query Nat Unit) (after : Session Unit),
      Arena.withDocumentInside.Grown appended ∧ appended.Nodup ∧ Arena.withDocumentInside.IsAcyclic ∧
        (∀ parent, ∀ child ∈ Arena.withDocumentInside.children parent,
          Arena.withDocumentInside.content? parent = some .document ∨
            Arena.withDocumentInside.view.isElement parent = true) ∧
        Selector.IsFindable [Selector.universal] ∧
        Gives (compile [[.subselect "has" [[Selector.universal]]]]
          (Options.ofTree Arena.withDocumentInside.view) none) { host := () } query after ∧
        Arena.withDocumentInside.view.isElement 2 = true ∧ ((query.test 2).run after).1 = false ∧
        ∃ found, Arena.withDocumentInside.view.isElement found = true ∧
          ((Options.ofTree Arena.withDocumentInside.view : Options Nat Unit).toBasis.documented
            depth).Holds (some (.node 2)) (Selector.readRelative [Selector.universal]) found := by
  obtain ⟨appended, sprouted⟩ := Arena.exists_sprouted_withDocumentInside
  have findable : Selector.IsFindable [Selector.universal] := by
    refine ⟨by decide, fun kind member => ?_, fun rest same => ?_⟩
    · cases List.mem_singleton.mp member
    · cases (List.cons.inj same).1
  have isBelow : Arena.withDocumentInside.view.Below 2 4 := .tail (.single rfl) rfl
  exact ⟨appended, _, _, sprouted.grown, sprouted.once, sprouted.ordered.isAcyclic,
    Arena.above_withDocumentInside, findable, rfl, rfl, rfl, 4, rfl, trivial, 2, ⟨rfl, isBelow⟩,
    (Reading.atScope_node _ 2 2).mpr rfl, trivial⟩

end SelectorList
end SelectorEngine
