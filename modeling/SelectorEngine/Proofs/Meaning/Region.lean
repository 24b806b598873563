import SelectorEngine.Proofs.Meaning.Documented

/-! Where the nodes stand at which an anchored group holds. Such a group starts with `:scope` and a
combinator; read from there on, combinators lead away from the scope, and what they all stay inside of
is a region that the nodes stand in. -/
namespace SelectorEngine

variable {ν : Type}

namespace Selector

def opensAtScope : Group → Bool
  | first :: .combinator _ :: _ => first.isScope
  | _ => false

/-- The groups that anchoring leaves or makes to start at the scope. -/
def IsAnchorable (group : Group) : Prop :=
  opensAtScope group = true ∨ ∀ token ∈ group, token.mentionsScope = false

theorem exists_opening {group : Group} (anchorable : IsAnchorable group) :
    ∃ opening kind rest, written false true group = opening :: .combinator kind :: rest ∧
      opening.isScope = true ∧ (kind = .descendant ∨ .combinator kind ∈ group) ∧
        ∀ token ∈ rest, token ∈ group := by
  unfold written
  dsimp only
  rw [if_neg Bool.false_ne_true]
  rcases anchorable with opens | unmentioned
  · unfold opensAtScope at opens
    split at opens
    · next first kind rest =>
      have mentions : (first :: .combinator kind :: rest).any Token.mentionsScope = true :=
        List.any_eq_true.mpr ⟨first, List.mem_cons_self, Token.mentionsScope_of_isScope opens⟩
      have starts : startsRelative (first :: .combinator kind :: rest) = false := by
        cases first with
        | combinator kind => cases opens
        | _ => rfl
      rw [front, starts, mentions, if_neg Bool.false_ne_true]
      exact ⟨first, kind, rest, rfl, opens, .inr (by simp), fun token member => by simp [member]⟩
    · cases opens
  · rw [front, any_mentionsScope_eq_false unmentioned]
    cases relative : startsRelative group with
    | false => exact ⟨scope, _, group, rfl, rfl, .inl rfl, fun _ member => member⟩
    | true =>
      unfold startsRelative at relative
      split at relative
      · cases relative
      · next kind rest _ =>
        exact ⟨scope, kind, rest, rfl, rfl, .inr List.mem_cons_self,
          fun _ member => List.mem_cons_of_mem _ member⟩
      · cases relative

end Selector

theorem Part.exists_chain_of_append {parts last : List (Part ν)} {node : ν}
    (holds : Part.chain (parts ++ last) node) : ∃ other, Part.chain last other := by
  induction parts generalizing node with
  | nil => exact ⟨node, holds⟩
  | cons part rest ih =>
    cases part with
    | test condition => exact ih holds.2
    | move leads =>
      obtain ⟨next, _, further⟩ := holds
      exact ih further

namespace Reading

variable {reading : Reading ν} {context : Option (MatchContext ν)}

theorem part_cases (reading : Reading ν) (context : Option (MatchContext ν)) (token : Token) :
    (∃ kind, token = .combinator kind) ∨ ∃ holds, reading.part context token = .test holds := by
  cases token with
  | combinator kind => exact .inl ⟨kind, rfl⟩
  | subselect name groups =>
    rw [part]
    split <;> exact .inr ⟨_, rfl⟩
  | _ => exact .inr ⟨_, rfl⟩

theorem atScope_of_isScope {token : Token} (isScope : token.isScope = true) {last : List (Part ν)}
    {node : ν} (holds : Part.chain (reading.part context token :: last) node) :
    reading.AtScope context node := by
  cases token with
  | pseudoClass name argument =>
    obtain rfl : name = "scope" := beq_iff_eq.mp isScope
    cases argument <;> exact holds.1
  | subselect name groups =>
    obtain rfl : name = "scope" := beq_iff_eq.mp isScope
    exact holds.1.elim
  | _ => cases isScope

theorem holds_cons_cons (opening : Token) (kind : Combinator) (rest : Group) (node : ν) :
    reading.Holds context (opening :: .combinator kind :: rest) node ↔
      Part.chain ((rest.reverse.map (reading.part context)) ++
        [.move (reading.leads kind), reading.part context opening]) node := by
  unfold Holds
  rw [← List.map_reverse, List.reverse_cons, List.reverse_cons, List.append_assoc, List.map_append]
  rfl

theorem holds_compound_iff {group : Group} (compound : ∀ token ∈ group, token.isCombinator = false)
    (opening : Token) (kind : Combinator) (node : ν) :
    reading.Holds context (opening :: .combinator kind :: group) node ↔
      reading.Holds context group node ∧ ∃ other, reading.leads kind node other ∧
        Part.chain [reading.part context opening] other := by
  rw [holds_cons_cons, Holds, ← List.map_reverse]
  have inGroup (token : Token) (member : token ∈ group.reverse) : token.isCombinator = false :=
    compound token (List.mem_reverse.mp member)
  generalize group.reverse = items at inGroup
  induction items with
  | nil => exact (true_and _).symm.to_iff
  | cons item items ih =>
    obtain ⟨simple, others⟩ := List.forall_mem_cons.mp inGroup
    rw [List.map_cons, List.cons_append]
    rcases reading.part_cases context item with ⟨kind, rfl⟩ | ⟨condition, tests⟩
    · cases simple
    · rw [tests]
      exact (and_congr_right fun _ => ih others).trans and_assoc.symm

/-- Behind a scope and a descendant combinator, a compound holds below the scope. -/
theorem holds_below_scope_iff {basis : Basis ν} (onBasis : reading.basis = basis)
    (identity : ∀ first second, basis.same first second = true ↔ first = second)
    (leads : ∀ kind node other, reading.leads kind node other ↔
      basis.tree.isElement other = true ∧ kind.Relates basis.tree node other)
    {group : Group} (compound : ∀ token ∈ group, token.isCombinator = false) {scope : ν}
    (element : basis.tree.isElement scope = true) (node : ν) :
    reading.Holds (some (.node scope)) (Selector.scope :: Selector.descendant :: group) node ↔
      reading.Holds (some (.node scope)) group node ∧ basis.tree.Below scope node := by
  rw [Selector.descendant, holds_compound_iff compound]
  apply and_congr_right
  intro _
  constructor
  · intro known
    obtain ⟨other, moves, atScope⟩ := known
    have isScope := atScope_of_isScope rfl atScope
    rw [atScope_node, onBasis, identity] at isScope
    exact isScope ▸ ((leads _ _ _).mp moves).2
  · intro isBelow
    refine ⟨scope, (leads _ _ _).mpr ⟨element, isBelow⟩, ?_, trivial⟩
    change reading.AtScope (some (.node scope)) scope
    rw [atScope_node, onBasis]
    exact (identity scope scope).mpr rfl

theorem holds_has_iff (groups : SelectorList) (node : ν) :
    reading.Holds context [.subselect "has" groups] node ↔
      ∃ found, reading.searched groups node found ∧
        reading.someHolds (if reading.relative groups then some (.node node) else none)
          (reading.relative groups) groups found :=
  and_iff_left trivial

theorem exists_atScope_of_holds {opening : Token} (isScope : opening.isScope = true)
    {kind : Combinator} {rest : Group} {node : ν}
    (holds : reading.Holds context (opening :: .combinator kind :: rest) node) :
    ∃ start other, reading.leads kind start other ∧ reading.AtScope context other := by
  rw [holds_cons_cons] at holds
  obtain ⟨start, other, leads, atScope⟩ := Part.exists_chain_of_append holds
  exact ⟨start, other, leads, atScope_of_isScope isScope atScope⟩

/-- If the first combinator leads from the scope into a region, and no other one leads out of it, the
group holds inside the region only. -/
theorem region_of_holds (region : ν → Prop) {basis : Basis ν}
    (leads : ∀ kind node other, reading.leads kind node other ↔
      basis.tree.isElement other = true ∧ kind.Relates basis.tree node other)
    {opening : Token} (isScope : opening.isScope = true) {kind : Combinator} {rest : Group}
    (start : ∀ node scope, basis.tree.isElement node = true → reading.AtScope context scope →
      kind.Relates basis.tree node scope → region node)
    (spread : ∀ other, .combinator other ∈ rest → ∀ node next, basis.tree.isElement node = true →
      other.Relates basis.tree node next → region next → region node)
    {node : ν} (element : basis.tree.isElement node = true)
    (holds : reading.Holds context (opening :: .combinator kind :: rest) node) : region node := by
  rw [holds_cons_cons] at holds
  -- From the node to the scope: every move keeps the node of interest in the region once the next is.
  have inRest (token : Token) (member : token ∈ rest.reverse) : token ∈ rest := List.mem_reverse.mp member
  generalize rest.reverse = items at holds inRest
  induction items generalizing node with
  | nil =>
    obtain ⟨scope, moves, atScope⟩ := holds
    exact start node scope element (atScope_of_isScope isScope atScope) ((leads _ _ _).mp moves).2
  | cons item items ih =>
    obtain ⟨member, others⟩ := List.forall_mem_cons.mp inRest
    rw [List.map_cons, List.cons_append] at holds
    rcases reading.part_cases context item with ⟨other, rfl⟩ | ⟨condition, tests⟩
    · obtain ⟨next, moves, further⟩ := holds
      obtain ⟨nextElement, relates⟩ := (leads _ _ _).mp moves
      exact spread other member node next element relates (ih nextElement further others)
    · rw [tests] at holds
      exact ih element holds.2 others

end Reading

namespace TreeView

variable {tree : TreeView ν} (forest : tree.IsForest)
include forest

theorem IsForest.sibling_trans {first second third : ν}
    (later : Combinator.sibling.Relates tree third second)
    (further : Combinator.sibling.Relates tree second first) :
    Combinator.sibling.Relates tree third first := by
  obtain ⟨before, between, after, split⟩ := later
  obtain ⟨earlier, middle, last, split'⟩ := further
  obtain ⟨front, back, whole, fresh, rest⟩ := forest.siblings_split second
  have listed : second ∈ tree.siblings third := by
    rw [split]
    simp
  have shared := forest.siblings_eq_of_mem listed
  rw [← shared, whole, List.append_assoc, List.cons_append,
    List.append_cons_inj_of_notMem fresh rest] at split
  rw [whole, List.append_cons_inj_of_notMem fresh rest] at split'
  refine ⟨earlier, middle ++ second :: between, after, ?_⟩
  rw [← shared, whole, split'.1, split.2.2]
  simp

theorem IsForest.parent_eq_of_sibling {first second : ν}
    (later : Combinator.sibling.Relates tree second first) : tree.parent first = tree.parent second := by
  obtain ⟨before, between, after, split⟩ := later
  have listed : first ∈ tree.siblings second := by
    rw [split]
    simp
  exact forest.parent_eq_of_mem_siblings listed

theorem IsForest.below_of_relates {kind : Combinator} (away : kind ≠ .parent) {above node next : ν}
    (relates : kind.Relates tree node next) (isBelow : tree.Below above next) :
    tree.Below above node := by
  cases kind with
  | descendant => exact isBelow.trans relates
  | descendantOrSelf =>
    rcases relates with rfl | further
    · exact isBelow
    · exact isBelow.trans further
  | child => exact isBelow.tail relates
  | parent => exact absurd rfl away
  | sibling => exact (below_congr (forest.parent_eq_of_sibling relates) above).mp isBelow
  | adjacent =>
    obtain ⟨before, between, after, split, _⟩ := relates
    exact (below_congr (forest.parent_eq_of_sibling ⟨before, between, after, split⟩) above).mp isBelow
  | column => exact relates.elim

theorem IsForest.inArea_of_relates {kind : Combinator} (away : kind ≠ .parent) {siblings : Bool}
    {scope node next : ν} (element : tree.isElement node = true) (relates : kind.Relates tree node next)
    (inside : tree.InArea siblings scope next) : tree.InArea siblings scope node := by
  rcases inside with isBelow | ⟨reached, sibling, isElement, later, rfl | isBelow⟩
  · exact .inl (forest.below_of_relates away relates isBelow)
  · have among (moves : Combinator.sibling.Relates tree node next) : tree.InArea siblings scope node :=
      .inr ⟨reached, node, element, forest.sibling_trans moves later, .inl rfl⟩
    cases kind with
    | descendant => exact .inr ⟨reached, next, isElement, later, .inr relates⟩
    | descendantOrSelf =>
      rcases relates with rfl | further
      · exact .inr ⟨reached, next, isElement, later, .inl rfl⟩
      · exact .inr ⟨reached, next, isElement, later, .inr further⟩
    | child => exact .inr ⟨reached, next, isElement, later, .inr (.single relates)⟩
    | parent => exact absurd rfl away
    | sibling => exact among relates
    | adjacent =>
      obtain ⟨before, between, after, split, _⟩ := relates
      exact among ⟨before, between, after, split⟩
    | column => exact relates.elim
  · exact .inr ⟨reached, sibling, isElement, later,
      .inr (forest.below_of_relates away relates isBelow)⟩

end TreeView

def Combinator.isSideways : Combinator → Bool
  | sibling | adjacent => true
  | _ => false

/-- A combinator of the selector language that does not lead to children: not the parent combinator, nor
the one that no selector is written with. -/
def Combinator.isOutward : Combinator → Bool
  | parent | descendantOrSelf => false
  | _ => true

theorem TreeView.inArea_of_relates_scope {tree : TreeView ν} {kind : Combinator}
    (outward : kind.isOutward = true) {siblings : Bool} (wide : kind.isSideways = true → siblings = true)
    {scope node : ν} (element : tree.isElement node = true) (relates : kind.Relates tree node scope) :
    tree.InArea siblings scope node := by
  cases kind with
  | descendant => exact .inl relates
  | descendantOrSelf => cases outward
  | child => exact .inl (.single relates)
  | parent => cases outward
  | sibling => exact .inr ⟨wide rfl, node, element, relates, .inl rfl⟩
  | adjacent =>
    obtain ⟨before, between, after, split, _⟩ := relates
    exact .inr ⟨wide rfl, node, element, ⟨before, between, after, split⟩, .inl rfl⟩
  | column => exact relates.elim

namespace Selector

theorem startsAmongSiblings_cons_cons (first : Token) (kind : Combinator) (rest : Group) :
    startsAmongSiblings (first :: .combinator kind :: rest) = (kind.isSideways && first.isScope) := by
  cases kind <;> simp [startsAmongSiblings, Combinator.isSideways]

end Selector

/-- An anchored group without combinators that lead to children holds, of elements, in the area only that
is looked through from the scope. -/
theorem Reading.inArea_of_holds {reading : Reading ν} {basis : Basis ν} (onBasis : reading.basis = basis)
    (forest : basis.tree.IsForest)
    (identity : ∀ first second, basis.same first second = true ↔ first = second)
    (leads : ∀ kind node other, reading.leads kind node other ↔
      basis.tree.isElement other = true ∧ kind.Relates basis.tree node other)
    {group : Group} (anchorable : Selector.IsAnchorable group)
    (outward : ∀ kind, .combinator kind ∈ group → kind.isOutward = true) {siblings : Bool}
    (wide : Selector.startsAmongSiblings (Selector.written false true group) = true → siblings = true)
    {scope node : ν} (element : basis.tree.isElement node = true)
    (holds : reading.Holds (some (.node scope)) (Selector.written false true group) node) :
    basis.tree.InArea siblings scope node := by
  obtain ⟨opening, kind, rest, written, isScope, opens, behind⟩ := Selector.exists_opening anchorable
  rw [written] at holds wide
  rw [Selector.startsAmongSiblings_cons_cons, isScope, Bool.and_true] at wide
  have kindOutward : kind.isOutward = true := by
    rcases opens with rfl | own
    · rfl
    · exact outward kind own
  refine region_of_holds (basis.tree.InArea siblings scope) leads isScope
    (fun node other element atScope relates => ?_)
    (fun other member node next element relates inside => ?_) element holds
  · rw [atScope_node, onBasis, identity] at atScope
    rw [← atScope] at relates
    exact TreeView.inArea_of_relates_scope kindOutward wide element relates
  · refine forest.inArea_of_relates ?_ element relates inside
    intro same
    subst same
    cases outward .parent (behind _ member)

end SelectorEngine
