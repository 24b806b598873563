import SelectorEngine.Proofs.Meaning.Reading
import SelectorEngine.Proofs.Selector.Arrangement

/-! Groups are read from the node outwards and compiled the other way round. Read in either direction,
and arranged or not, a group says the same: only simple selectors change places, and only with each
other. -/
namespace SelectorEngine

variable {ν : Type}

namespace Part

def onto (rest : ν → Prop) : Part ν → ν → Prop
  | .test holds, node => holds node ∧ rest node
  | .move leads, node => ∃ next, leads node next ∧ rest next

/-- Parts in source order, each in front of the ones before it. -/
def after (start : ν → Prop) (parts : List (Part ν)) : ν → Prop :=
  parts.foldl (fun rest part => part.onto rest) start

theorem chain_cons (part : Part ν) (left : List (Part ν)) :
    chain (part :: left) = part.onto (chain left) := by
  cases part <;> rfl

private theorem foldr_eq_chain (parts : List (Part ν)) :
    parts.foldr (fun part rest => part.onto rest) (fun _ => True) = chain parts := by
  induction parts with
  | nil => rfl
  | cons part left ih => rw [List.foldr_cons, ih, chain_cons]

theorem after_true (parts : List (Part ν)) : after (fun _ => True) parts = chain parts.reverse := by
  rw [after, ← foldr_eq_chain, List.foldr_reverse]

theorem after_append (start : ν → Prop) (parts further : List (Part ν)) :
    after start (parts ++ further) = after (after start parts) further :=
  List.foldl_append

theorem after_cons (start : ν → Prop) (part : Part ν) (further : List (Part ν)) :
    after start (part :: further) = after (part.onto start) further := rfl

theorem onto_false (part : Part ν) : part.onto (fun _ => False) = fun _ => False := by
  funext node
  cases part <;> simp [onto]

theorem after_false (parts : List (Part ν)) : after (fun _ => False) parts = fun _ => False := by
  induction parts with
  | nil => rfl
  | cons part further ih => rw [after_cons, onto_false, ih]

theorem onto_comm (first second : ν → Prop) (rest : ν → Prop) :
    (test first).onto ((test second).onto rest) = (test second).onto ((test first).onto rest) := by
  funext node
  simp only [onto, and_left_comm]

variable {α : Type} {rank : α → Int} {part : α → Part ν}

private theorem foldr_insertRanked (simple : ∀ item, 0 ≤ rank item → ∃ holds, part item = .test holds)
    (start : ν → Prop) {item : α} (movable : 0 ≤ rank item) (reversed : List α) :
    (insertRanked rank item reversed).foldr (fun item rest => (part item).onto rest) start =
      (part item).onto (reversed.foldr (fun item rest => (part item).onto rest) start) := by
  induction reversed with
  | nil => rfl
  | cons nearest before ih =>
    unfold insertRanked
    split
    · next less =>
      obtain ⟨holds, isTest⟩ := simple item movable
      obtain ⟨holds', isTest'⟩ := simple nearest (by omega)
      rw [List.foldr_cons, ih, List.foldr_cons, isTest, isTest', onto_comm]
    · rfl

theorem after_arrange (simple : ∀ item, 0 ≤ rank item → ∃ holds, part item = .test holds)
    (start : ν → Prop) (items : List α) :
    after start ((arrange rank items).map part) = after start (items.map part) := by
  have step (reversed : List α) (item : α) :
      (arrangeNext rank reversed item).foldr (fun item rest => (part item).onto rest) start =
        (part item).onto (reversed.foldr (fun item rest => (part item).onto rest) start) := by
    unfold arrangeNext
    split
    · rfl
    · next movable => exact foldr_insertRanked simple start (by omega) reversed
  have run (reversed : List α) :
      (items.foldl (arrangeNext rank) reversed).foldr (fun item rest => (part item).onto rest) start =
        items.foldl (fun rest item => (part item).onto rest)
          (reversed.foldr (fun item rest => (part item).onto rest) start) := by
    induction items generalizing reversed with
    | nil => rfl
    | cons item rest ih => rw [List.foldl_cons, ih, step, List.foldl_cons]
  rw [after, after, List.foldl_map, List.foldl_map, arrange, List.foldl_reverse, run, List.foldr_nil]

end Part

namespace Reading

variable (reading : Reading ν) (context : Option (MatchContext ν))

/-- Only combinators move. -/
theorem part_test_of_simple {token : Token} (simple : token.isCombinator = false) :
    ∃ holds, reading.part context token = .test holds := by
  cases token with
  | combinator kind => cases simple
  | subselect name groups =>
    rw [part]
    cases Subselect.ofName? name with
    | none => exact ⟨_, rfl⟩
    | some kind => cases kind <;> exact ⟨_, rfl⟩
  | _ => exact ⟨_, rfl⟩

/-- Combinators keep their places. -/
theorem part_test_of_rank {token : Token} (movable : 0 ≤ token.rank) :
    ∃ holds, reading.part context token = .test holds :=
  reading.part_test_of_simple context (Token.simple_of_rank movable)

end Reading

namespace Selector

private theorem front_split {front : Front} {group : Group} {first : Token} {kind : Combinator}
    (opens : opening (front.tokens ++ group) = some (first, kind)) :
    ∃ rest, front.tokens ++ group = first :: .combinator kind :: rest ∧
      front.tokens ++ arrange Token.rank group =
        first :: .combinator kind :: arrange Token.rank rest := by
  have leads {tokens : Group} {kind : Combinator} (starts : leading tokens = some kind) :
      ∃ rest, tokens = .combinator kind :: rest := by
    unfold leading at starts
    split at starts
    · next rest =>
      cases starts
      exact ⟨rest, rfl⟩
    · cases starts
  have alone {tokens : Group} (split : tokens = first :: .combinator kind :: tokens.drop 2) :
      arrange Token.rank tokens = first :: .combinator kind :: arrange Token.rank (tokens.drop 2) := by
    have apart := arrange_append_barrier Token.rank (Token.rank_combinator kind) [first] (tokens.drop 2)
    rw [arrange_singleton] at apart
    rw [split]
    exact apart
  cases front with
  | nothing =>
    rw [Front.tokens, List.nil_append] at opens ⊢
    rcases group with _ | ⟨head, tail⟩
    · cases opens
    · obtain ⟨kind', starts, same⟩ := Option.map_eq_some_iff.mp opens
      cases same
      obtain ⟨rest, rfl⟩ := leads starts
      exact ⟨rest, rfl, alone rfl⟩
  | scope =>
    obtain ⟨kind', starts, same⟩ := Option.map_eq_some_iff.mp opens
    cases same
    obtain ⟨rest, rfl⟩ := leads starts
    refine ⟨rest, rfl, ?_⟩
    have apart := arrange_append_barrier Token.rank (Token.rank_combinator kind) [] rest
    exact congrArg (scope :: ·) apart
  | scopeDescendant =>
    cases opens
    exact ⟨group, rfl, rfl⟩

theorem widened_eq_self {group : Group} (elsewhere : startsBelowScope group = false) :
    widened group = group := by
  unfold widened
  split
  · rw [elsewhere, if_neg Bool.false_ne_true]
  · rfl

section

variable {part : Token → Part ν}
  (simple : ∀ token : Token, 0 ≤ token.rank → ∃ holds, part token = .test holds)
include simple

/-- Arranging a group before it is fronted and widened does not change what it says. -/
theorem after_written_arrange_of_simple (collection anchored : Bool) (group : Group) (start : ν → Prop) :
    Part.after start ((written collection anchored (arrange Token.rank group)).map part) =
      Part.after start ((written collection anchored group).map part) := by
  have unwidened (front : Front) :
      Part.after start ((front.tokens ++ arrange Token.rank group).map part) =
        Part.after start ((front.tokens ++ group).map part) := by
    rw [List.map_append, List.map_append, Part.after_append, Part.after_append,
      Part.after_arrange simple]
  unfold written
  dsimp only
  rw [front_arrange]
  generalize front anchored group = front
  cases collection with
  | false => exact unwidened front
  | true =>
    have same : startsBelowScope (front.tokens ++ arrange Token.rank group) =
        startsBelowScope (front.tokens ++ group) := by
      rw [startsBelowScope_eq, opening_front_arrange, startsBelowScope_eq]
    rw [if_pos rfl, if_pos rfl]
    cases below : startsBelowScope (front.tokens ++ group) with
    | false =>
      rw [widened_eq_self below, widened_eq_self (same.trans below)]
      exact unwidened front
    | true =>
      rw [startsBelowScope_eq, Option.any_eq_true] at below
      obtain ⟨⟨first, kind⟩, opens, isBelow⟩ := below
      obtain ⟨rest, split, arranged⟩ := front_split opens
      have widen (rest : Group) : widened (first :: .combinator kind :: rest) =
          first :: descendantOrSelf :: rest := if_pos (by
        rw [startsBelowScope_eq]
        exact isBelow)
      rw [split, arranged, widen, widen, List.map_cons, List.map_cons, List.map_cons, List.map_cons,
        Part.after_cons, Part.after_cons, Part.after_cons, Part.after_cons, Part.after_arrange simple]

theorem chain_written_arrange (collection anchored : Bool) (group : Group) :
    Part.chain ((written collection anchored (arrange Token.rank group)).map part).reverse =
      Part.chain ((written collection anchored group).map part).reverse := by
  have same := after_written_arrange_of_simple simple collection anchored group fun _ => True
  rwa [Part.after_true, Part.after_true] at same

end

variable (reading : Reading ν) (context : Option (MatchContext ν))

theorem after_written_arrange (collection anchored : Bool) (group : Group) (start : ν → Prop) :
    Part.after start ((written collection anchored (arrange Token.rank group)).map
        (reading.part context)) =
      Part.after start ((written collection anchored group).map (reading.part context)) :=
  after_written_arrange_of_simple (fun _ movable => reading.part_test_of_rank context movable)
    collection anchored group start

end Selector
end SelectorEngine
