import SelectorEngine.Match.Session
import SelectorEngine.Proofs.Tree.Forest

/-! What a search finds, whatever its test does and remembers: some of the elements it goes through, in
their order. Looking for one element is looking for all of them up to the first. -/
namespace SelectorEngine.TreeView

variable {ν σ : Type}

private theorem run_bind {α β : Type} {action : SessionM σ α} {next : α → SessionM σ β} {value : α}
    {session between : Session σ} (run : action.run session = (value, between)) :
    (action >>= next).run session = (next value).run between := by
  rw [StateT.run_bind, run]
  rfl

private theorem collect_sublist {visit : ν → SessionM σ (List ν)} {seen : ν → List ν}
    (visits : ∀ node session, ((visit node).run session).1.Sublist (seen node)) (nodes : List ν)
    (session : Session σ) :
    ((collect visit nodes).run session).1.Sublist (nodes.flatMap seen) := by
  induction nodes generalizing session with
  | nil => exact .slnil
  | cons node rest ih =>
    rw [List.flatMap_cons]
    exact (visits node session).append (ih _)

theorem findAll_sublist (tree : TreeView ν) (test : ν → SessionM σ Bool) (nodes : List ν)
    (session : Session σ) :
    ((tree.findAll nodes test).run session).1.Sublist (tree.elementsFrom nodes) := by
  unfold findAll elementsFrom
  generalize tree.bound = depth
  induction depth generalizing nodes session with
  | zero => exact .slnil
  | succ depth ih =>
    rw [elementsOnto_succ_eq_flatMap]
    refine collect_sublist (fun node session => ?_) nodes session
    split
    · rcases run : (test node).run session with ⟨passes, between⟩
      have below := ih (tree.children node) between
      rw [run_bind run]
      cases passes with
      | true => exact below.cons_cons node
      | false => exact below.cons node
    · exact .slnil

/-- The first action gives the head of what the second one gives; if there is none, the two end alike. -/
def IsHeadOf (one : SessionM σ (Option ν)) (all : SessionM σ (List ν)) : Prop :=
  ∀ session,
    (∃ ended, one.run session = (none, ended) ∧ all.run session = ([], ended)) ∨
      ∃ first rest between ended,
        one.run session = (some first, between) ∧ all.run session = (first :: rest, ended)

theorem IsHeadOf.exists_run {one : SessionM σ (Option ν)} {all : SessionM σ (List ν)}
    (heads : IsHeadOf one all) (session : Session σ) : ∃ found after ended,
      all.run session = (found, after) ∧ one.run session = (found.head?, ended) := by
  rcases heads session with ⟨ended, none, empty⟩ | ⟨first, rest, between, ended, one, all⟩
  · exact ⟨[], ended, ended, empty, none⟩
  · exact ⟨first :: rest, ended, between, all, one⟩

private theorem isHeadOf_collect {first : ν → SessionM σ (Option ν)} {visit : ν → SessionM σ (List ν)}
    (heads : ∀ node, IsHeadOf (first node) (visit node)) (nodes : List ν) :
    IsHeadOf (nodes.findSomeM? first) (collect visit nodes) := by
  induction nodes with
  | nil => exact fun session => .inl ⟨session, rfl, rfl⟩
  | cons node rest ih =>
    intro session
    rw [List.findSomeM?, collect]
    rcases heads node session with ⟨between, none, empty⟩ | ⟨found, others, between, ended, one, all⟩
    · rw [run_bind none, run_bind empty]
      exact ih between
    · rw [run_bind one, run_bind all]
      exact .inr ⟨found, _, between, _, rfl, rfl⟩

theorem findOne_isHeadOf (tree : TreeView ν) (test : ν → SessionM σ Bool) (nodes : List ν) :
    IsHeadOf (tree.findOne nodes test) (tree.findAll nodes test) := by
  unfold findAll findOne
  generalize tree.bound = depth
  induction depth generalizing nodes with
  | zero => exact fun session => .inl ⟨session, rfl, rfl⟩
  | succ depth ih =>
    refine isHeadOf_collect (fun node session => ?_) nodes
    split
    · rcases run : (test node).run session with ⟨passes, between⟩
      rw [run_bind run, run_bind run]
      cases passes with
      | true => exact .inr ⟨node, _, between, _, rfl, rfl⟩
      | false => exact ih (tree.children node) between
    · exact .inl ⟨session, rfl, rfl⟩

end SelectorEngine.TreeView
