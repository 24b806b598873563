import SelectorEngine.Proofs.Tree.Forest

/-! Searches as loops over pending nodes. A turn takes the first node that is pending; it passes over a node
that is no element, and for an element the children become pending before all others. Where no element is
below itself, the loop visits the elements of every start node in preorder, one start node after the other,
and the searches by recursion visit the same elements with the same effects. -/
namespace SelectorEngine.TreeView

variable {ν : Type} {tree : TreeView ν}

/-- No element is below itself, and there are no more elements than the bound of the view says. -/
structure IsAcyclic (tree : TreeView ν) : Prop where
  irrefl : ∀ node, ¬ Relation.TransGen tree.ElementChild node node
  bounded : ∃ elements : Finset ν, elements.card ≤ tree.bound ∧
    ∀ node, tree.isElement node = true → node ∈ elements

/-- The height of a node falls from an element to its children. -/
theorem IsAcyclic.exists_height (acyclic : tree.IsAcyclic) : ∃ height : ν → Nat,
    (∀ node child, tree.ElementChild node child → height child < height node) ∧
      ∀ node, tree.isElement node = true → height node < tree.bound := by
  obtain ⟨elements, fits, listed⟩ := acyclic.bounded
  obtain ⟨height, falls, low⟩ := SelectorEngine.exists_height acyclic.irrefl elements
    fun _ child step => listed child step.2
  exact ⟨height, falls, fun node element => (low node (listed node element)).trans_le fits⟩

private theorem elementsOnto_succ_of_enough {height : ν → Nat}
    (falls : ∀ node child, tree.ElementChild node child → height child < height node) {depth : Nat}
    {nodes : List ν} (enough : ∀ node ∈ nodes, tree.isElement node = true → height node < depth) :
    tree.elementsOnto depth nodes [] = tree.elementsOnto (depth + 1) nodes [] := by
  induction depth generalizing nodes with
  | zero =>
    rw [elementsOnto_succ_eq_flatMap]
    refine (List.flatMap_eq_nil_iff.mpr fun node listed => if_neg fun element => ?_).symm
    exact Nat.not_lt_zero _ (enough node listed element)
  | succ depth ih =>
    rw [elementsOnto_succ_eq_flatMap, elementsOnto_succ_eq_flatMap]
    refine List.flatMap_congr fun node listed => ?_
    split
    · next element =>
      refine congrArg (node :: ·) (ih fun child isChild childElement => ?_)
      have lower := falls node child ⟨isChild, childElement⟩
      have within := enough node listed element
      omega
    · rfl

theorem elementsFrom_eq_flatMap (tree : TreeView ν) (nodes : List ν) :
    tree.elementsFrom nodes = nodes.flatMap fun start => tree.elementsFrom [start] := by
  induction nodes with
  | nil =>
    unfold elementsFrom
    cases tree.bound <;> rfl
  | cons start rest ih => rw [← List.singleton_append, elementsFrom_append, ih]; rfl

section Acyclic

variable (acyclic : tree.IsAcyclic)
include acyclic

theorem elementsFrom_singleton (start : ν) : tree.elementsFrom [start] =
    if tree.isElement start then start :: tree.elementsFrom (tree.children start) else [] := by
  obtain ⟨height, falls, bounded⟩ := acyclic.exists_height
  split
  · next element =>
    have within := bounded start element
    obtain ⟨depth, isBound⟩ := Nat.exists_eq_succ_of_ne_zero (Nat.ne_zero_of_lt within)
    have enough : ∀ child ∈ tree.children start, tree.isElement child = true → height child < depth := by
      intro child isChild childElement
      have lower := falls start child ⟨isChild, childElement⟩
      omega
    unfold elementsFrom
    rw [isBound, ← elementsOnto_succ_of_enough falls enough, elementsOnto_succ_eq_flatMap,
      List.flatMap_singleton, if_pos element]
  · next other =>
    unfold elementsFrom
    cases tree.bound with
    | zero => rfl
    | succ depth => rw [elementsOnto_succ_eq_flatMap, List.flatMap_singleton, if_neg other]

theorem mem_elementsFrom_singleton (start found : ν) : found ∈ tree.elementsFrom [start] ↔
    tree.isElement start = true ∧ Relation.ReflTransGen tree.ElementChild start found := by
  constructor
  · intro member
    obtain ⟨node, listed, known⟩ := way_of_mem_elementsOnto member
    exact List.mem_singleton.mp listed ▸ known
  · intro known
    obtain ⟨element, way⟩ := known
    induction way using Relation.ReflTransGen.head_induction_on with
    | refl =>
      rw [elementsFrom_singleton acyclic, if_pos element]
      exact List.mem_cons_self
    | head step _ ih =>
      rw [elementsFrom_singleton acyclic, if_pos element, elementsFrom_eq_flatMap]
      exact List.mem_cons_of_mem _ (List.mem_flatMap.mpr ⟨_, step.1, ih step.2⟩)

end Acyclic

/-- With these nodes pending, the loop visits these elements and ends. -/
inductive Sweeps (tree : TreeView ν) : (pending visited : List ν) → Prop
  | done : Sweeps tree [] []
  | skip {node : ν} {pending visited : List ν} : tree.isElement node = false →
      Sweeps tree pending visited → Sweeps tree (node :: pending) visited
  | visit {node : ν} {pending visited : List ν} : tree.isElement node = true →
      Sweeps tree (tree.children node ++ pending) visited → Sweeps tree (node :: pending) (node :: visited)

theorem Sweeps.append {nodes seen pending visited : List ν} (first : tree.Sweeps nodes seen)
    (second : tree.Sweeps pending visited) : tree.Sweeps (nodes ++ pending) (seen ++ visited) := by
  induction first with
  | done => exact second
  | skip other _ ih => exact .skip other ih
  | visit element _ ih =>
    rw [List.append_assoc] at ih
    exact .visit element ih

private theorem sweeps_of_each {nodes : List ν}
    (each : ∀ node ∈ nodes, tree.Sweeps [node] (tree.elementsFrom [node])) :
    tree.Sweeps nodes (tree.elementsFrom nodes) := by
  induction nodes with
  | nil =>
    rw [elementsFrom_eq_flatMap]
    exact .done
  | cons node rest ih =>
    obtain ⟨first, further⟩ := List.forall_mem_cons.mp each
    rw [← List.singleton_append, elementsFrom_append]
    exact first.append (ih further)

/-- What the loop visits is what the pending nodes lead to, in order. -/
theorem IsAcyclic.sweeps (acyclic : tree.IsAcyclic) (nodes : List ν) :
    tree.Sweeps nodes (tree.elementsFrom nodes) := by
  obtain ⟨height, falls, bounded⟩ := acyclic.exists_height
  have each (limit : Nat) (node : ν) (low : tree.isElement node = true → height node < limit) :
      tree.Sweeps [node] (tree.elementsFrom [node]) := by
    induction limit generalizing node with
    | zero =>
      have other : ¬ tree.isElement node = true := fun element => Nat.not_lt_zero _ (low element)
      rw [elementsFrom_singleton acyclic, if_neg other]
      exact .skip (Bool.eq_false_iff.mpr other) .done
    | succ limit ih =>
      rw [elementsFrom_singleton acyclic]
      split
      · next element =>
        refine .visit element ?_
        rw [List.append_nil]
        refine sweeps_of_each fun child isChild => ih child fun childElement => ?_
        have lower := falls node child ⟨isChild, childElement⟩
        have within := low element
        omega
      · next other => exact .skip (Bool.eq_false_iff.mpr other) .done
  exact sweeps_of_each fun node _ => each tree.bound node (bounded node)

section Loop

variable {m : Type → Type} [Monad m] {β : Type}

/-- The loop, with a body that may end it; there is no result if the turns do not suffice. -/
def sweep (tree : TreeView ν) (body : ν → β → m (ForInStep β)) : Nat → List ν → β → m (Option β)
  | 0, _, _ => pure none
  | _ + 1, [], state => pure (some state)
  | turns + 1, node :: pending, state => do
    if tree.isElement node then
      match ← body node state with
      | .done result => return some result
      | .yield next => sweep tree body turns (tree.children node ++ pending) next
    else sweep tree body turns pending state

/-- With enough turns, the loop is the one over the list of what it visits. -/
theorem Sweeps.sweep_eq [LawfulMonad m] {pending visited : List ν} (sweeps : tree.Sweeps pending visited) :
    ∃ turns, ∀ (more : Nat) (body : ν → β → m (ForInStep β)) (state : β),
      tree.sweep body (turns + more) pending state = some <$> forIn visited state body := by
  induction sweeps with
  | done =>
    refine ⟨1, fun more body state => ?_⟩
    rw [Nat.add_comm, sweep, List.forIn_nil, map_pure]
  | skip other _ ih =>
    obtain ⟨turns, run⟩ := ih
    refine ⟨turns + 1, fun more body state => ?_⟩
    rw [Nat.add_right_comm, sweep, other, if_neg Bool.false_ne_true, run]
  | visit element _ ih =>
    obtain ⟨turns, run⟩ := ih
    refine ⟨turns + 1, fun more body state => ?_⟩
    rw [Nat.add_right_comm, sweep, element, if_pos rfl, List.forIn_cons, map_bind]
    refine bind_congr fun step => ?_
    cases step with
    | done result => exact (map_pure _ _).symm
    | yield next => exact run more body next

/-- The body that keeps the nodes that pass. -/
def keeping (test : ν → m Bool) (node : ν) (found : List ν) : m (ForInStep (List ν)) := do
  return .yield (if ← test node then found ++ [node] else found)

/-- The body that ends with the first node that passes. -/
def stopping (test : ν → m Bool) (node : ν) (_ : Option ν) : m (ForInStep (Option ν)) := do
  return if ← test node then .done (some node) else .yield none

variable [LawfulMonad m] (test : ν → m Bool)

private theorem forIn_keeping_append (first second found : List ν) :
    forIn (first ++ second) found (keeping test) =
      forIn first found (keeping test) >>= fun found => forIn second found (keeping test) := by
  induction first generalizing found with
  | nil => simp
  | cons node rest ih => simp [keeping, ih]

private theorem forIn_stopping_append (first second : List ν) :
    forIn (first ++ second) none (stopping test) =
      forIn first none (stopping test) >>= fun
        | some found => pure (some found)
        | none => forIn second none (stopping test) := by
  induction first with
  | nil => simp
  | cons node rest ih =>
    simp only [List.cons_append, List.forIn_cons, stopping, bind_assoc, pure_bind]
    refine bind_congr fun passes => ?_
    cases passes with
    | true => simp
    | false => exact ih

private theorem collect_eq_forIn {visit : ν → m (List ν)} {seen : ν → List ν}
    (visits : ∀ node found, (found ++ ·) <$> visit node = forIn (seen node) found (keeping test))
    (nodes found : List ν) :
    (found ++ ·) <$> collect visit nodes = forIn (nodes.flatMap seen) found (keeping test) := by
  induction nodes generalizing found with
  | nil => simp [collect]
  | cons node rest ih =>
    rw [List.flatMap_cons, forIn_keeping_append, ← visits, bind_map_left, collect, map_bind]
    refine bind_congr fun here => ?_
    rw [← ih, map_bind]
    simp

private theorem findSomeM_eq_forIn {first : ν → m (Option ν)} {seen : ν → List ν}
    (visits : ∀ node, first node = forIn (seen node) none (stopping test)) (nodes : List ν) :
    nodes.findSomeM? first = forIn (nodes.flatMap seen) none (stopping test) := by
  induction nodes with
  | nil => rfl
  | cons node rest ih =>
    rw [List.flatMap_cons, forIn_stopping_append, ← visits, ← ih, List.findSomeM?]
    refine bind_congr fun result => ?_
    cases result <;> rfl

theorem findAll_eq_forIn (nodes : List ν) :
    tree.findAll nodes test = forIn (tree.elementsFrom nodes) [] (keeping test) := by
  have within (depth : Nat) (nodes found : List ν) : (found ++ ·) <$> tree.findAllWithin test depth nodes =
      forIn (tree.elementsOnto depth nodes []) found (keeping test) := by
    induction depth generalizing nodes found with
    | zero => simp [findAllWithin, elementsOnto]
    | succ depth ih =>
      rw [elementsOnto_succ_eq_flatMap, findAllWithin]
      refine collect_eq_forIn test (fun node found => ?_) nodes found
      split
      · rw [List.forIn_cons, keeping, bind_assoc, map_bind]
        refine bind_congr fun passes => ?_
        rw [pure_bind, map_bind]
        cases passes with
        | true => simp [← ih]
        | false => simp [← ih]
      · simp
  have nothing : (([] : List ν) ++ ·) = id := rfl
  have whole := within tree.bound nodes []
  rwa [nothing, id_map] at whole

theorem findOne_eq_forIn (nodes : List ν) :
    tree.findOne nodes test = forIn (tree.elementsFrom nodes) none (stopping test) := by
  have within (depth : Nat) (nodes : List ν) : tree.findOneWithin test depth nodes =
      forIn (tree.elementsOnto depth nodes []) none (stopping test) := by
    induction depth generalizing nodes with
    | zero => rfl
    | succ depth ih =>
      rw [elementsOnto_succ_eq_flatMap, findOneWithin]
      refine findSomeM_eq_forIn test (fun node => ?_) nodes
      split
      · rw [List.forIn_cons, stopping, bind_assoc]
        refine bind_congr fun passes => ?_
        rw [pure_bind]
        cases passes with
        | true => rfl
        | false => exact ih _
      · rfl
  exact within tree.bound nodes

/-- Whatever the test does, with enough turns the loops and the searches do the same. -/
theorem IsAcyclic.sweep_eq_searches (acyclic : tree.IsAcyclic) (nodes : List ν) : ∃ turns, ∀ more,
    tree.sweep (keeping test) (turns + more) nodes [] = some <$> tree.findAll nodes test ∧
      tree.sweep (stopping test) (turns + more) nodes none = some <$> tree.findOne nodes test := by
  obtain ⟨turns, keeps⟩ := (acyclic.sweeps nodes).sweep_eq (m := m) (β := List ν)
  obtain ⟨others, stops⟩ := (acyclic.sweeps nodes).sweep_eq (m := m) (β := Option ν)
  refine ⟨turns + others, fun more => ⟨?_, ?_⟩⟩
  · rw [Nat.add_assoc, keeps, findAll_eq_forIn]
  · rw [Nat.add_comm turns, Nat.add_assoc, stops, findOne_eq_forIn]

end Loop
end SelectorEngine.TreeView
