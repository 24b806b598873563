import Mathlib.Data.List.TakeWhile
import SelectorEngine.Proofs.Text.Lower
import SelectorEngine.Proofs.Transparency

/-! Searching text without case. A search that remembers takes the failure of an element for the failure
of everything below it, which is right where what is found in an element, lower-cased, is found in the
elements above it. That is so unless a final sigma comes into it. -/
namespace SelectorEngine

variable {ν σ : Type}

namespace Selector

def foldedText (piece : String) : SelectorList := [[pseudoWith "icontains" piece]]

end Selector

namespace TreeView

def containsFolded (tree : TreeView ν) (piece : String) (node : ν) : Bool :=
  Text.contains (Text.lower piece) (Text.lower (tree.text node))

/-- What is found without case in an element is found so in the elements above it. -/
def InheritsFolded (tree : TreeView ν) (piece : String) : Prop :=
  ∀ node, tree.isElement node = true → ∀ above ∈ tree.elementAncestors node,
    tree.containsFolded piece node = true → tree.containsFolded piece above = true

end TreeView

/-- The test of text, with its results in the table if they are remembered. -/
def Options.foldedPlan (options : Options ν σ) (piece : String) (table : Nat) : Plan ν σ :=
  .both (.holds options.tree.isElement)
    (if options.flags.cacheResults then
      .inherited table options.tree.elementClimb (.holds (options.tree.containsFolded piece))
    else .holds (options.tree.containsFolded piece))

/-- The table is the first one that was not given out before, and nothing stands in it. -/
theorem SelectorList.gives_foldedText (options : Options ν σ) (builtin : options.custom = {})
    (root : options.root = .alwaysTrue) (free : options.context = none) (piece : String)
    (session : Session σ) :
    ∃ identity after, (compile (Selector.foldedText piece) options none).Gives session
        ⟨.dynamic identity (options.foldedPlan piece session.supply), false⟩ after ∧
      after.memo = session.memo ∧ session.supply < after.supply := by
  obtain ⟨⟨tree, same, xml, tags, names, quirks, relative, remembers⟩, context, root, custom, anchored⟩ :=
    options
  subst builtin root free
  cases remembers with
  | false =>
    refine ⟨session.supply + 1, { session with supply := session.supply + 2 }, ?_, rfl, ?_⟩
    · cases relative <;> cases anchored <;> rfl
    · exact Nat.lt_add_of_pos_right Nat.two_pos
  | true =>
    refine ⟨session.supply + 2, { session with supply := session.supply + 3 }, ?_, rfl, ?_⟩
    · cases relative <;> cases anchored <;> rfl
    · exact Nat.lt_add_of_pos_right (Nat.succ_pos 2)

/-- The right answers, if only right results are recorded in the table. -/
theorem Options.ensures_foldedPlan (options : Options ν σ) (piece : String) {ledger : Ledger} {table : Nat}
    (inherits : options.flags.cacheResults = true → options.tree.InheritsFolded piece)
    (results : options.flags.cacheResults = true → ∀ node number, options.tree.key node = some number →
      ∀ result, ledger.allows table number result ↔ options.tree.containsFolded piece node = result)
    (node : ν) :
    ledger.Ensures ((options.foldedPlan piece table).run none node)
      (· = (options.tree.isElement node && options.tree.containsFolded piece node)) := by
  rw [foldedPlan, Plan.run]
  refine Ledger.ensures_bind (Ledger.ensures_pure rfl) fun isElement same => ?_
  subst same
  cases element : options.tree.isElement node with
  | false => exact Ledger.ensures_pure rfl
  | true =>
    rw [if_pos rfl, Bool.true_and]
    split
    · next remembers =>
      rw [Plan.run]
      apply Plan.ensures_testRemembering (fun _ => Ledger.ensures_pure rfl) (results remembers)
      intro above isAbove fails
      rw [← Bool.not_eq_true] at fails ⊢
      exact mt (inherits remembers node element above isAbove) fails
    · exact Ledger.ensures_pure rfl

/-- Tested for the first time, an element passes if it has the piece and no failure above it is known. -/
theorem Options.run_foldedPlan {options : Options ν σ} (remembers : options.flags.cacheResults = true)
    (piece : String) (table : Nat) {node : ν} (element : options.tree.isElement node = true) {number : Nat}
    (has : options.tree.key node = some number) {session : Session σ}
    (unrecorded : session.memo.find? table number = none) {nearest : Option Bool}
    (known : (options.tree.elementAncestors node).findSome? (fun above =>
      (options.tree.key above).bind (session.memo.find? table)) = nearest) :
    ((options.foldedPlan piece table).run none node).run session =
      if nearest = some false then (false, session)
      else (options.tree.containsFolded piece node, { session with
        memo := session.memo.insert table number (options.tree.containsFolded piece node) }) := by
  subst known
  refine Eq.trans ?_ (Plan.testRemembering_eq table options.tree.elementClimb
    (fun node => pure (options.tree.containsFolded piece node)) node has session unrecorded)
  rw [foldedPlan, Plan.run, StateT.run_bind]
  change StateT.run (if options.tree.isElement node then _ else _) session = _
  rw [if_pos element, if_pos remembers]
  rfl

private theorem run_mapM_pair {test : ν → SessionM σ Bool} {earlier later : ν} {result other : Bool}
    {session between after : Session σ} (first : (test earlier).run session = (result, between))
    (second : (test later).run between = (other, after)) :
    ([earlier, later].mapM test).run session = ([result, other], after) := by
  rw [List.mapM_cons, StateT.run_bind, first]
  change StateT.run ([later].mapM test >>= fun rest => pure (result :: rest)) between = _
  rw [List.mapM_cons, StateT.run_bind, StateT.run_bind, second]
  rfl

namespace SelectorList

section

variable {options : Options ν σ} (builtin : options.custom = {}) (root : options.root = .alwaysTrue)
  (free : options.context = none) {piece : String} {session : Session σ}
include builtin root free

theorem answers_foldedText (keyed : options.tree.elementClimb.IsKeyed)
    (inherits : options.flags.cacheResults = true → options.tree.InheritsFolded piece)
    (tidy : session.Tidy) :
    ∃ query after, (compile (Selector.foldedText piece) options none).Gives session query after ∧
      query.Answers after
        fun node => options.tree.isElement node && options.tree.containsFolded piece node := by
  obtain ⟨identity, after, compiled, memo, given⟩ :=
    gives_foldedText options builtin root free piece session
  let right := fun key result => ∀ node, options.tree.key node = some key →
    options.tree.containsFolded piece node = result
  let ledger := (session.ledger tidy).enter session.supply (Nat.le_refl _) right
  have grows : Ledger.Grows True (session.ledger tidy) session ledger after :=
    ⟨Ledger.enter_extends _ _ right, given, ⟨memo, Nat.le_of_lt given⟩, fun never => absurd trivial never⟩
  refine ⟨_, after, compiled, Query.answers_of_ensures grows.keeps grows.within fun node => ?_⟩
  refine options.ensures_foldedPlan piece inherits (fun _ node number has result => ?_) node
  have allows : ledger.allows session.supply = right := Ledger.enter_allows _ (Nat.le_refl _) right
  rw [allows]
  constructor
  · intro all
    exact all node has
  · intro found other hasToo
    rw [keyed other node number hasToo has]
    exact found

/-- An element that has the piece is overlooked once an element above it was tested that lacks it. -/
theorem inheritsFolded_of_answers (keyed : ∀ node, ∃ number, options.tree.key node = some number)
    (apart : options.tree.elementClimb.IsKeyed) (remembers : options.flags.cacheResults = true)
    (tidy : session.Tidy) {query : Query ν σ} {after : Session σ}
    (compiled : (compile (Selector.foldedText piece) options none).Gives session query after)
    (answers : query.Answers after
      fun node => options.tree.isElement node && options.tree.containsFolded piece node) :
    options.tree.InheritsFolded piece := by
  obtain ⟨identity, _, again, memo, given⟩ := gives_foldedText options builtin root free piece session
  cases compiled.symm.trans again
  intro node element above isAbove found
  by_contra lacks
  have elementAbove : options.tree.isElement above = true := List.mem_takeWhile_imp isAbove
  obtain ⟨number, has⟩ := keyed above
  obtain ⟨other, hasOther⟩ := keyed node
  have empty (key : Nat) : after.memo.find? session.supply key = none := by
    cases recorded : after.memo.find? session.supply key with
    | none => rfl
    | some result =>
      rw [memo] at recorded
      exact absurd (tidy _ _ _ recorded) (Nat.lt_irrefl _)
  have nothing : (options.tree.elementAncestors above).findSome? (fun upper =>
      (options.tree.key upper).bind (after.memo.find? session.supply)) = none := by
    simp [empty]
  have first := options.run_foldedPlan remembers piece session.supply elementAbove has (empty number) nothing
  have distinct : number ≠ other := by
    rintro rfl
    exact lacks (apart node above number hasOther has ▸ found)
  rw [Bool.not_eq_true] at lacks
  let between := { after with memo := after.memo.insert session.supply number false }
  have recorded (key : Nat) :
      between.memo.find? session.supply key = if number = key then some false else none := by
    rw [Memo.find_insert, empty]
    simp
  have failure : (options.tree.elementAncestors node).findSome? (fun upper =>
      (options.tree.key upper).bind (between.memo.find? session.supply)) = some false := by
    cases nearest : (options.tree.elementAncestors node).findSome? fun upper =>
        (options.tree.key upper).bind (between.memo.find? session.supply) with
    | none =>
      have missing := List.findSome?_eq_none_iff.mp nearest above isAbove
      simp [has, recorded] at missing
    | some result =>
      obtain ⟨upper, _, hit⟩ := List.exists_of_findSome?_eq_some nearest
      obtain ⟨key, _, stands⟩ := Option.bind_eq_some_iff.mp hit
      rw [recorded] at stands
      split at stands <;> cases stands
      rfl
  have unrecorded : between.memo.find? session.supply other = none := by
    rw [recorded, if_neg distinct]
  have second := options.run_foldedPlan remembers piece session.supply element hasOther unrecorded failure
  obtain ⟨last, run, _⟩ := answers [above, node]
  rw [if_neg (by simp), lacks] at first
  rw [if_pos rfl] at second
  have overlooked := run_mapM_pair first second
  have same := congrArg Prod.fst (run.symm.trans overlooked)
  simp [element, found] at same

end

/-- Remembering is transparent to a search without case exactly where the failure of an element is the
failure of the elements below it. -/
theorem answers_foldedText_iff [Nonempty σ] {arena : Arena} {options : Options Nat σ}
    (seen : options.tree = arena.view) (builtin : options.custom = {})
    (root : options.root = .alwaysTrue) (free : options.context = none) (piece : String) :
    (∃ answer, ∀ remembers (session : Session σ), session.Tidy → ∃ query after,
      (compile (Selector.foldedText piece) (options.remembering remembers) none).Gives session query after ∧
        query.Answers after answer) ↔ arena.view.InheritsFolded piece := by
  have without (remembers : Bool) : (options.remembering remembers).custom = {} := builtin
  have identified (remembers : Bool) : (options.remembering remembers).tree.elementClimb.IsKeyed := by
    rw [Options.remembering, seen]
    exact fun _ _ _ isFirst isSecond => Option.some.inj (isFirst.trans isSecond.symm)
  have numbered (node : Nat) : ∃ number, (options.remembering true).tree.key node = some number := by
    rw [Options.remembering, seen]
    exact ⟨node, rfl⟩
  constructor
  · intro transparent
    obtain ⟨answer, gives⟩ := transparent
    obtain ⟨host⟩ := ‹Nonempty σ›
    have tidy := Session.tidy_of_empty host 0 {}
    obtain ⟨plain, ended, plainly, plainAnswers⟩ := gives false _ tidy
    obtain ⟨other, _, again, right⟩ := answers_foldedText (without false) root free (identified false)
      (fun (remembers : false = true) => nomatch remembers) tidy
    cases plainly.symm.trans again
    obtain ⟨query, after, compiled, answers⟩ := gives true _ tidy
    rw [plainAnswers.unique right] at answers
    rw [← seen]
    exact inheritsFolded_of_answers (without true) root free numbered (identified true) rfl tidy compiled
      answers
  · intro inherits
    refine ⟨fun node => options.tree.isElement node && options.tree.containsFolded piece node,
      fun remembers session tidy => ?_⟩
    rw [← seen] at inherits
    exact answers_foldedText (without remembers) root free (identified remembers) (fun _ => inherits) tidy

/-- Whether it remembers or not, a search without case gives the same answers along every sequence of
nodes if, and only if, lower-cased text that contains the lower-cased piece is inherited by the elements
above. It is inherited unless there are capital sigmas in the tree and small ones in the lower-cased
piece: a sigma at the end of a word has a form of its own. -/
theorem foldedText_remembers_iff_inherited [Nonempty σ] {appended : List Nat} {arena : Arena}
    (grown : arena.Grown appended) (acyclic : arena.IsAcyclic) {options : Options Nat σ}
    (seen : options.tree = arena.view) (builtin : options.custom = {})
    (root : options.root = .alwaysTrue) (free : options.context = none) (piece : String) :
    ((∃ answer, ∀ remembers (session : Session σ), session.Tidy → ∃ query after,
      (compile (Selector.foldedText piece) (options.remembering remembers) none).Gives session query after ∧
        query.Answers after answer) ↔ arena.view.InheritsFolded piece) ∧
      ((∀ id, 'Σ' ∉ (arena.textContent id).toList) ∨
        'σ' ∉ (Text.lower piece).toList ∧ 'ς' ∉ (Text.lower piece).toList →
          arena.view.InheritsFolded piece) := by
  refine ⟨answers_foldedText_iff seen builtin root free piece, fun clear node _ above isAbove found => ?_⟩
  have inside := grown.text_infix acyclic rfl rfl rfl node above isAbove
  exact Text.contains_lower_of_infix inside (clear.imp_left fun plain => plain above) found

theorem foldedText_remembers_iff_inherited_for_umlaut :
    ∃ arena : Arena, Arena.build? [(0, .element "a" []), (1, .element "b" []), (2, .text "ÄÖ")] =
        some arena ∧
      ((∃ answer, ∀ remembers (session : Session Unit), session.Tidy → ∃ query after,
        (compile (Selector.foldedText "ö") ((Options.ofTree arena.view).remembering remembers) none).Gives
          session query after ∧ query.Answers after answer) ↔ arena.view.InheritsFolded "ö") ∧
      ((∀ id, 'Σ' ∉ (arena.textContent id).toList) ∨
        'σ' ∉ (Text.lower "ö").toList ∧ 'ς' ∉ (Text.lower "ö").toList →
          arena.view.InheritsFolded "ö") := by
  obtain ⟨arena, built⟩ : ∃ arena, Arena.build? [(0, .element "a" []), (1, .element "b" []),
      (2, .text "ÄÖ")] = some arena := ⟨_, rfl⟩
  obtain ⟨appended, sprouted⟩ := Arena.exists_sprouted_of_build built
  exact ⟨arena, built,
    foldedText_remembers_iff_inherited sprouted.grown sprouted.ordered.isAcyclic rfl rfl rfl rfl "ö"⟩

end SelectorList

/-- A word in capitals that ends in a sigma, and after it another letter in the element above. -/
def Arena.withFinalSigma : Arena where
  nodes := #[
    { content := .document, children := [1] },
    { content := .element "a" [], parent := some 0, children := [2, 4] },
    { content := .element "b" [], parent := some 1, children := [3], next := some 4 },
    { content := .text "ΟΔΟΣ", parent := some 2 },
    { content := .text "Α", parent := some 1, previous := some 2 }]

theorem Arena.exists_sprouted_withFinalSigma : ∃ appended, withFinalSigma.Sprouted appended := by
  have built : build? [(0, .element "a" []), (1, .element "b" []), (2, .text "ΟΔΟΣ"), (1, .text "Α")] =
      some withFinalSigma := rfl
  exact exists_sprouted_of_build built

theorem foldedText_overlooks_final_sigma :
    (∃ appended, Arena.withFinalSigma.Grown appended ∧ appended.Nodup) ∧ Arena.withFinalSigma.IsAcyclic ∧
      ¬ ∃ answer, ∀ remembers (session : Session Unit), session.Tidy → ∃ query after,
        (SelectorList.compile (Selector.foldedText "ΟΔΟΣ")
          ((Options.ofTree Arena.withFinalSigma.view).remembering remembers) none).Gives session query after ∧
            query.Answers after answer := by
  obtain ⟨appended, sprouted⟩ := Arena.exists_sprouted_withFinalSigma
  refine ⟨⟨appended, sprouted.grown, sprouted.once⟩, sprouted.ordered.isAcyclic, fun transparent => ?_⟩
  have seen : (Options.ofTree Arena.withFinalSigma.view : Options Nat Unit).tree =
    Arena.withFinalSigma.view := rfl
  have inherits := (SelectorList.answers_foldedText_iff seen rfl rfl rfl "ΟΔΟΣ").mp transparent
  have found : Arena.withFinalSigma.view.containsFolded "ΟΔΟΣ" 1 = true :=
    inherits 2 (by decide) 1 (by decide) (by set_option maxRecDepth 2000 in decide)
  have lacks : Arena.withFinalSigma.view.containsFolded "ΟΔΟΣ" 1 = false := by
    set_option maxRecDepth 2000 in decide
  cases found.symm.trans lacks

end SelectorEngine
