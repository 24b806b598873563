import SelectorEngine.Proofs.Match.Passes

/-! Remembering does not change answers. A ledger says which results may be recorded, table by table; a
plan is governed by a ledger that allows exactly the results that are right. Running a governed plan
records nothing else and gives the answer of the plan that remembers nothing. -/
namespace SelectorEngine

variable {ν σ α β : Type}

/-- Which result may be recorded under which key, for every table given out so far. -/
structure Ledger where
  bound : Nat
  allows : Nat → Nat → Bool → Prop
  inBound : ∀ {table key result}, allows table key result → table < bound

namespace Ledger

def blank : Ledger where
  bound := 0
  allows _ _ _ := False
  inBound impossible := impossible.elim

def Keeps (ledger : Ledger) (session : Session σ) : Prop :=
  ∀ table key result, session.memo.find? table key = some result → ledger.allows table key result

structure Extends (wider ledger : Ledger) : Prop where
  bound : ledger.bound ≤ wider.bound
  allows : ∀ table < ledger.bound, wider.allows table = ledger.allows table

theorem Extends.refl (ledger : Ledger) : ledger.Extends ledger := ⟨Nat.le_refl _, fun _ _ => rfl⟩

theorem Extends.trans {wider middle ledger : Ledger} (second : wider.Extends middle)
    (first : middle.Extends ledger) : wider.Extends ledger :=
  ⟨Nat.le_trans first.bound second.bound, fun table known =>
    (second.allows table (Nat.lt_of_lt_of_le known first.bound)).trans (first.allows table known)⟩

def enter (ledger : Ledger) (table : Nat) (fresh : ledger.bound ≤ table)
    (right : Nat → Bool → Prop) : Ledger where
  bound := table + 1
  allows other key result := if other = table then right key result else ledger.allows other key result
  inBound := by
    intro other key result allowed
    split at allowed
    · omega
    · have known := ledger.inBound allowed
      omega

theorem enter_extends (ledger : Ledger) {table : Nat} (fresh : ledger.bound ≤ table)
    (right : Nat → Bool → Prop) : (ledger.enter table fresh right).Extends ledger := by
  refine ⟨Nat.le_succ_of_le fresh, fun other known => ?_⟩
  funext key result
  exact if_neg (by omega)

theorem enter_allows (ledger : Ledger) {table : Nat} (fresh : ledger.bound ≤ table)
    (right : Nat → Bool → Prop) : (ledger.enter table fresh right).allows table = right := by
  funext key result
  exact if_pos rfl

/-- From every session that keeps the ledger the action gives a value as wanted, and the session after
it keeps the ledger again. Nothing is given out on the way. -/
def Ensures (ledger : Ledger) (action : SessionM σ α) (wanted : α → Prop) : Prop :=
  ∀ session, ledger.Keeps session → ∃ value after, action.run session = (value, after) ∧
    wanted value ∧ ledger.Keeps after ∧ after.supply = session.supply

section Ensures

variable {ledger : Ledger}

theorem ensures_pure {wanted : α → Prop} {value : α} (holds : wanted value) :
    ledger.Ensures (pure value : SessionM σ α) wanted :=
  fun session keeps => ⟨value, session, rfl, holds, keeps, rfl⟩

theorem ensures_bind {middle : α → Prop} {wanted : β → Prop} {action : SessionM σ α}
    {next : α → SessionM σ β} (first : ledger.Ensures action middle)
    (rest : ∀ value, middle value → ledger.Ensures (next value) wanted) :
    ledger.Ensures (action >>= next) wanted := by
  intro session keeps
  obtain ⟨value, between, run, holds, keepsBetween, supply⟩ := first session keeps
  obtain ⟨result, after, run', holds', keepsAfter, supply'⟩ := rest value holds between keepsBetween
  refine ⟨result, after, ?_, holds', keepsAfter, supply'.trans supply⟩
  rw [StateT.run_bind, run]
  exact run'

theorem ensures_mono {wanted weaker : α → Prop} {action : SessionM σ α}
    (ensures : ledger.Ensures action wanted) (implies : ∀ value, wanted value → weaker value) :
    ledger.Ensures action weaker := by
  intro session keeps
  obtain ⟨value, after, run, holds, rest⟩ := ensures session keeps
  exact ⟨value, after, run, implies value holds, rest⟩

theorem ensures_warn (warning : Warning) :
    ledger.Ensures (Session.warn warning : SessionM σ Unit) fun _ => True :=
  fun _ keeps => ⟨(), _, rfl, trivial, keeps, rfl⟩

theorem ensures_recorded (table key : Nat) :
    ledger.Ensures (Session.recorded table key : SessionM σ (Option Bool))
      fun found => ∀ result, found = some result → ledger.allows table key result :=
  fun session keeps => ⟨_, session, rfl, keeps table key, keeps, rfl⟩

theorem ensures_remember {table key : Nat} {result : Bool} (allowed : ledger.allows table key result) :
    ledger.Ensures (Session.remember table key result : SessionM σ Unit) fun _ => True := by
  intro session keeps
  refine ⟨(), _, rfl, trivial, fun other number found recorded => ?_, rfl⟩
  change (session.memo.insert table key result).find? other number = some found at recorded
  rw [Memo.find_insert] at recorded
  split at recorded
  · next same =>
    obtain ⟨rfl, rfl⟩ := same
    cases recorded
    exact allowed
  · exact keeps other number found recorded

theorem ensures_anyM {test : ν → SessionM σ Bool} {answer : ν → Bool}
    (tests : ∀ node, ledger.Ensures (test node) (· = answer node)) (nodes : List ν) :
    ledger.Ensures (nodes.anyM test) (· = nodes.any answer) := by
  induction nodes with
  | nil => exact ensures_pure rfl
  | cons node rest ih =>
    rw [List.anyM]
    refine ensures_bind (tests node) fun passes same => ?_
    subst same
    rw [List.any_cons]
    cases answer node with
    | true => exact ensures_pure rfl
    | false => exact ih

theorem ensures_mapM {test : ν → SessionM σ Bool} {answer : ν → Bool}
    (tests : ∀ node, ledger.Ensures (test node) (· = answer node)) (nodes : List ν) :
    ledger.Ensures (nodes.mapM test) (· = nodes.map answer) := by
  induction nodes with
  | nil => exact ensures_pure rfl
  | cons node rest ih =>
    rw [List.mapM_cons]
    refine ensures_bind (tests node) fun passes same => ?_
    refine ensures_bind ih fun further equal => ?_
    exact ensures_pure (by rw [same, equal, List.map_cons])

end Ensures
end Ledger

namespace Climb

def IsKeyed (climb : Climb ν) : Prop :=
  ∀ first second number, climb.key first = some number → climb.key second = some number →
    first = second

end Climb

namespace Plan

private theorem run_recorded (table key : Nat) (session : Session σ) :
    (Session.recorded table key).run session = (session.memo.find? table key, session) :=
  rfl

theorem nearestRemembered_eq (table : Nat) (key : ν → Option Nat) (nodes : List ν)
    (session : Session σ) :
    (nearestRemembered table key nodes).run session =
      (nodes.findSome? fun node => (key node).bind (session.memo.find? table), session) := by
  induction nodes with
  | nil => rfl
  | cons node rest ih =>
    rw [nearestRemembered, List.findSome?_cons]
    cases has : key node with
    | none => exact ih
    | some number =>
      dsimp only
      rw [StateT.run_bind, run_recorded]
      cases found : session.memo.find? table number with
      | none =>
        simp only [Option.bind_some, found]
        exact ih
      | some result =>
        simp only [Option.bind_some, found]
        rfl

/-- Where nothing is recorded about the node itself, a failure above it answers; otherwise the test is run,
and its result is recorded. -/
theorem testRemembering_eq (table : Nat) (climb : Climb ν) (test : ν → SessionM σ Bool) (node : ν)
    {number : Nat} (has : climb.key node = some number) (session : Session σ)
    (unrecorded : session.memo.find? table number = none) :
    (testRemembering table climb test node).run session =
      if (climb.above node).findSome? (fun above => (climb.key above).bind
          (session.memo.find? table)) = some false then (false, session)
      else
        let (result, after) := (test node).run session
        (result, { after with memo := after.memo.insert table number result }) := by
  unfold testRemembering
  rw [has]
  dsimp only
  rw [StateT.run_bind, run_recorded, unrecorded]
  change StateT.run (nearestRemembered table climb.key (climb.above node) >>= _) session = _
  rw [StateT.run_bind, nearestRemembered_eq]
  change StateT.run (if _ then _ else _) session = _
  split
  · rfl
  · rfl

theorem testRemembering_of_keyless (table : Nat) (climb : Climb ν) (test : ν → SessionM σ Bool) {node : ν}
    (keyless : climb.key node = none) : testRemembering table climb test node = test node := by
  unfold testRemembering
  rw [keyless]

theorem testRemembering_of_recorded (table : Nat) (climb : Climb ν) (test : ν → SessionM σ Bool)
    (node : ν) {number : Nat} (has : climb.key node = some number) {session : Session σ} {result : Bool}
    (recorded : session.memo.find? table number = some result) :
    (testRemembering table climb test node).run session = (result, session) := by
  unfold testRemembering
  rw [has]
  dsimp only
  rw [StateT.run_bind, run_recorded, recorded]
  rfl

def Closed (plan : Plan ν σ) : Prop :=
  ∀ subject other node, plan.passes subject node = plan.passes other node

namespace Closed

variable {plan other : Plan ν σ}

theorem both (closed : plan.Closed) (closed' : other.Closed) : (Plan.both plan other).Closed := by
  intro subject asked node
  rw [passes, passes, closed subject asked, closed' subject asked]

theorem either (closed : plan.Closed) (closed' : other.Closed) : (Plan.either plan other).Closed := by
  intro subject asked node
  rw [passes, passes, closed subject asked, closed' subject asked]

theorem negation (closed : plan.Closed) : (Plan.negation plan).Closed := by
  intro subject asked node
  rw [passes, passes, closed subject asked]

theorem leadsTo (closed : plan.Closed) (reach : ν → List ν) : (Plan.leadsTo reach plan).Closed := by
  intro subject asked node
  rw [passes, passes, funext (closed subject asked)]

theorem under (closed : plan.Closed) (table : Nat) (climb : Climb ν) (isElement : ν → Bool) :
    (Plan.under table climb isElement plan).Closed := by
  intro subject asked node
  rw [passes, passes, funext (closed subject asked)]

end Closed

/-- No host is asked, and the ledger allows exactly the right results to be recorded: for a walk, the
failures of nodes; for an inherited test, its results. -/
def Governed (ledger : Ledger) : Plan ν σ → Prop
  | holds _ => True
  | asks _ => False
  | isSubject _ => True
  | both first second => first.Governed ledger ∧ second.Governed ledger
  | either first second => first.Governed ledger ∧ second.Governed ledger
  | negation inner => inner.Governed ledger
  | leadsTo _ rest => rest.Governed ledger
  | under table climb isElement rest => rest.Governed ledger ∧ rest.Closed ∧ climb.IsKeyed ∧
    table < ledger.bound ∧ ∀ key result, ledger.allows table key result ↔
      result = false ∧ ∀ node, climb.key node = some key →
        (isElement node && rest.passes none node) = false
  | inherited table climb test => test.Governed ledger ∧ test.Closed ∧ climb.IsKeyed ∧
    (∀ node, ∀ above ∈ climb.above node, test.passes none above = false →
      test.passes none node = false) ∧
    table < ledger.bound ∧ ∀ key result, ledger.allows table key result ↔
      ∀ node, climb.key node = some key → test.passes none node = result
  | asSubject _ inner => inner.Governed ledger

theorem Governed.extend {wider ledger : Ledger} (extends' : wider.Extends ledger)
    {plan : Plan ν σ} (governed : plan.Governed ledger) : plan.Governed wider := by
  induction plan with
  | holds property => trivial
  | asks check => exact governed
  | isSubject same => trivial
  | both first second ihFirst ihSecond => exact ⟨ihFirst governed.1, ihSecond governed.2⟩
  | either first second ihFirst ihSecond => exact ⟨ihFirst governed.1, ihSecond governed.2⟩
  | negation inner ih => exact ih governed
  | leadsTo reach rest ih => exact ih governed
  | under table climb isElement rest ih =>
    obtain ⟨governedRest, closed, keyed, known, right⟩ := governed
    refine ⟨ih governedRest, closed, keyed, Nat.lt_of_lt_of_le known extends'.bound, ?_⟩
    rw [extends'.allows table known]
    exact right
  | inherited table climb test ih =>
    obtain ⟨governedTest, closed, keyed, inherits, known, right⟩ := governed
    refine ⟨ih governedTest, closed, keyed, inherits, Nat.lt_of_lt_of_le known extends'.bound, ?_⟩
    rw [extends'.allows table known]
    exact right
  | asSubject reach inner ih => exact ih governed

section Run

open Ledger

variable {ledger : Ledger}

private theorem ensures_anyRemembering {table : Nat} {key : ν → Option Nat}
    {test : ν → SessionM σ Bool} {answer : ν → Bool}
    (tests : ∀ node, ledger.Ensures (test node) (· = answer node))
    (failures : ∀ node number, key node = some number →
      ∀ result, ledger.allows table number result ↔ result = false ∧ answer node = false)
    (nodes : List ν) :
    ledger.Ensures (anyRemembering table key test nodes) (· = nodes.any answer) := by
  induction nodes with
  | nil => exact ensures_pure rfl
  | cons node rest ih =>
    rw [anyRemembering, List.any_cons]
    cases found : key node with
    | none =>
      refine ensures_bind (ensures_warn unkeyed) fun _ _ => ?_
      refine ensures_bind (tests node) fun passes same => ?_
      subst same
      cases answer node with
      | true => exact ensures_pure rfl
      | false => exact ih
    | some number =>
      refine ensures_bind (ensures_recorded table number) fun recorded right => ?_
      cases recorded with
      | some result =>
        -- Only failures are recorded, so passing over the node loses nothing.
        have failed := ((failures node number found result).mp (right result rfl)).2
        rw [failed]
        exact ih
      | none =>
        refine ensures_bind (tests node) fun passes same => ?_
        subst same
        cases fails : answer node with
        | true => exact ensures_pure rfl
        | false =>
          have allowed := (failures node number found false).mpr ⟨rfl, fails⟩
          exact ensures_bind (ensures_remember allowed) fun _ _ => ih

private theorem ensures_nearestRemembered (table : Nat) (key : ν → Option Nat) (nodes : List ν) :
    ledger.Ensures (nearestRemembered table key nodes : SessionM σ (Option Bool)) fun found =>
      ∀ result, found = some result →
        ∃ node ∈ nodes, ∃ number, key node = some number ∧ ledger.allows table number result := by
  induction nodes with
  | nil => exact ensures_pure fun _ impossible => nomatch impossible
  | cons node rest ih =>
    have further : ledger.Ensures (nearestRemembered table key rest : SessionM σ (Option Bool))
        fun found => ∀ result, found = some result → ∃ other ∈ node :: rest, ∃ number,
          key other = some number ∧ ledger.allows table number result :=
      ensures_mono ih fun found right result some => by
        obtain ⟨other, member, held⟩ := right result some
        exact ⟨other, List.mem_cons_of_mem node member, held⟩
    rw [nearestRemembered]
    cases has : key node with
    | none => exact further
    | some number =>
      refine ensures_bind (ensures_recorded table number) fun recorded right => ?_
      cases recorded with
      | none => exact further
      | some result =>
        refine ensures_pure fun other same => ?_
        cases same
        exact ⟨node, List.mem_cons_self, number, has, right result rfl⟩

/-- Only at the node that is tested need a failure above be its failure too. -/
theorem ensures_testRemembering {table : Nat} {climb : Climb ν}
    {test : ν → SessionM σ Bool} {answer : ν → Bool}
    (tests : ∀ node, ledger.Ensures (test node) (· = answer node))
    (results : ∀ node number, climb.key node = some number →
      ∀ result, ledger.allows table number result ↔ answer node = result) (node : ν)
    (inherits : ∀ above ∈ climb.above node, answer above = false → answer node = false) :
    ledger.Ensures (testRemembering table climb test node) (· = answer node) := by
  unfold testRemembering
  cases has : climb.key node with
  | none => exact tests node
  | some number =>
    refine ensures_bind (ensures_recorded table number) fun recorded right => ?_
    cases recorded with
    | some result => exact ensures_pure ((results node number has result).mp (right result rfl)).symm
    | none =>
      refine ensures_bind (ensures_nearestRemembered table climb.key (climb.above node))
        fun nearest found => ?_
      by_cases fails : nearest = some false
      · rw [if_pos fails]
        obtain ⟨above, isAbove, key, hasKey, allowed⟩ := found false fails
        have failed := (results above key hasKey false).mp allowed
        exact ensures_pure (inherits above isAbove failed).symm
      · rw [if_neg fails]
        refine ensures_bind (tests node) fun passes same => ?_
        have allowed := (results node number has passes).mpr same.symm
        exact ensures_bind (ensures_remember allowed) fun _ _ => ensures_pure same

/-- A governed plan answers like the plan that remembers nothing, whatever was recorded before. -/
theorem ensures_run {plan : Plan ν σ} (governed : plan.Governed ledger) (subject : Option ν)
    (node : ν) : ledger.Ensures (plan.run subject node) (· = plan.passes subject node) := by
  induction plan generalizing subject node with
  | holds property => exact ensures_pure rfl
  | asks check => exact governed.elim
  | isSubject same => exact ensures_pure rfl
  | both first second ihFirst ihSecond =>
    refine ensures_bind (ihFirst governed.1 subject node) fun passes same => ?_
    subst same
    rw [passes]
    cases first.passes subject node with
    | true => exact ihSecond governed.2 subject node
    | false => exact ensures_pure rfl
  | either first second ihFirst ihSecond =>
    refine ensures_bind (ihFirst governed.1 subject node) fun passes same => ?_
    subst same
    rw [passes]
    cases first.passes subject node with
    | true => exact ensures_pure rfl
    | false => exact ihSecond governed.2 subject node
  | negation inner ih =>
    refine ensures_bind (ih governed subject node) fun passes same => ?_
    subst same
    exact ensures_pure rfl
  | leadsTo reach rest ih => exact ensures_anyM (ih governed subject) (reach node)
  | under table climb isElement rest ih =>
    obtain ⟨governedRest, closed, keyed, _, right⟩ := governed
    have same : rest.passes none = rest.passes subject := funext (closed none subject)
    refine ensures_anyRemembering (fun above => ?_) (fun above number has result => ?_)
      (climb.above node)
    · cases isElement above with
      | true => exact ih governedRest subject above
      | false => exact ensures_pure rfl
    · -- No two nodes have one key: what the ledger asks of all nodes with the key it asks of this one.
      rw [right number result, same]
      refine and_congr_right' ⟨fun all => all above has, fun failed other hasToo => ?_⟩
      rw [keyed other above number hasToo has]
      exact failed
  | inherited table climb test ih =>
    obtain ⟨governedTest, closed, keyed, inherits, _, right⟩ := governed
    have same : test.passes none = test.passes subject := funext (closed none subject)
    rw [same] at inherits
    refine ensures_testRemembering (ih governedTest subject) (fun below number has result => ?_) node
      (inherits node)
    · rw [right number result, same]
      refine ⟨fun all => all below has, fun passes other hasToo => ?_⟩
      rw [keyed other below number hasToo has]
      exact passes
  | asSubject reach inner ih => exact ensures_anyM (ih governed (some node)) (reach node)

theorem run_of_tableless {plan : Plan ν σ} (governed : plan.Governed ledger)
    (tableless : ledger.bound = 0) (subject : Option ν) (node : ν) (session : Session σ) :
    (plan.run subject node).run session = (plan.passes subject node, session) := by
  have each {test : ν → SessionM σ Bool} {answer : ν → Bool}
      (tests : ∀ node, (test node).run session = (answer node, session)) (nodes : List ν) :
      (nodes.anyM test).run session = (nodes.any answer, session) := by
    induction nodes with
    | nil => rfl
    | cons node rest ih =>
      rw [List.anyM, StateT.run_bind, tests, List.any_cons]
      cases answer node with
      | true => rfl
      | false => exact ih
  induction plan generalizing subject node with
  | holds property => rfl
  | asks check => exact governed.elim
  | isSubject same => rfl
  | both first second ihFirst ihSecond =>
    rw [run, StateT.run_bind, ihFirst governed.1, passes]
    cases first.passes subject node with
    | true => exact ihSecond governed.2 subject node
    | false => rfl
  | either first second ihFirst ihSecond =>
    rw [run, StateT.run_bind, ihFirst governed.1, passes]
    cases first.passes subject node with
    | true => rfl
    | false => exact ihSecond governed.2 subject node
  | negation inner ih =>
    rw [run, StateT.run_bind, ih governed, passes]
    rfl
  | leadsTo reach rest ih => exact each (ih governed subject) (reach node)
  | under table climb isElement rest ih =>
    obtain ⟨_, _, _, known, _⟩ := governed
    omega
  | inherited table climb test ih =>
    obtain ⟨_, _, _, _, known, _⟩ := governed
    omega
  | asSubject reach inner ih => exact each (ih governed (some node)) (reach node)

end Run
end Plan
end SelectorEngine
