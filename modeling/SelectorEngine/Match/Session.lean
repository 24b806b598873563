import SelectorEngine.Warning
import Std.Data.TreeMap

/-! What lives on between tests. A session holds the state of the host whose checks are called, the
results remembered so far, a supply of numbers that were not used before, and the warnings given. -/
namespace SelectorEngine

/-- Remembered results. Every table belongs to one part of one plan and holds results by the key of the node. -/
structure Memo where
  tables : Std.TreeMap Nat (Std.TreeMap Nat Bool) := {}

namespace Memo

def find? (memo : Memo) (table key : Nat) : Option Bool :=
  match memo.tables[table]? with
  | some results => results[key]?
  | none => none

def insert (memo : Memo) (table key : Nat) (result : Bool) : Memo where
  tables := memo.tables.insert table ((memo.tables.getD table {}).insert key result)

theorem find_empty (table key : Nat) : ({} : Memo).find? table key = none := by
  simp [find?]

theorem find_insert (memo : Memo) (table key otherTable otherKey : Nat) (result : Bool) :
    (memo.insert table key result).find? otherTable otherKey =
      if table = otherTable ∧ key = otherKey then some result
      else memo.find? otherTable otherKey := by
  by_cases sameTable : table = otherTable
  · subst sameTable
    cases found : memo.tables[table]? with
    | none =>
      by_cases sameKey : key = otherKey <;>
        simp [find?, insert, found, sameKey, Std.TreeMap.getD_eq_getD_getElem?]
    | some results =>
      by_cases sameKey : key = otherKey <;>
        simp [find?, insert, found, sameKey, Std.TreeMap.getD_eq_getD_getElem?,
          Std.TreeMap.getElem?_insert]
  · simp [find?, insert, sameTable, Std.TreeMap.getElem?_insert]

end Memo

structure Session (σ : Type) where
  host : σ
  supply : Nat := 0
  memo : Memo := {}
  journal : Journal := {}

abbrev SessionM (σ : Type) := StateM (Session σ)

namespace Session

variable {σ α : Type}

/-- A number that was not given out before. -/
def fresh : SessionM σ Nat := do
  let number := (← get).supply
  modify fun session => { session with supply := session.supply + 1 }
  return number

def recorded (table key : Nat) : SessionM σ (Option Bool) := return (← get).memo.find? table key

def remember (table key : Nat) (result : Bool) : SessionM σ Unit :=
  modify fun session => { session with memo := session.memo.insert table key result }

def warn (warning : Warning) : SessionM σ Unit :=
  modify fun session => { session with journal := (session.journal.warn warning).1 }

/-- Lets the host act on its own state. -/
def ask (action : StateM σ α) : SessionM σ α := do
  let (answer, host) := action.run (← get).host
  modify fun session => { session with host }
  return answer

end Session
end SelectorEngine
