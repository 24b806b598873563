import SelectorEngine.Proofs.Formula.Machine
import SelectorEngine.Proofs.Formula.Spelling
import SelectorEngine.Proofs.Meaning.SimpleSelector

/-! Formulas select what is written, in machine numbers as over unbounded integers. -/
namespace SelectorEngine
namespace Formula

/-- A formula that is spelled correctly compiles, and the positions tested as selected, which count
from zero, are the ones the formula stands for. In machine numbers nothing overflows and nothing is
divided by zero, neither in compiling nor in testing any position there can be. -/
theorem selects_as_spelled {spelling : Spelling} {written : String}
    (writes : spelling.Writes written) :
    ∃ check, Machine.compile? written = some check ∧
      (read? written).map positions = some check.exact ∧
      ∀ index : Int64, 0 ≤ index.toInt → ∃ answer,
        check.contains? index = some answer ∧ check.exact.contains index.toInt = answer ∧
        (answer = true ↔
          ∃ count : Nat,
            spelling.meaning.step * count + spelling.meaning.offset = index.toInt + 1) := by
  have reads : read? written = some spelling.meaning := read?_of_writes writes
  have alike := Machine.read?_carries written
  rw [reads] at alike
  obtain ⟨coefficients, machineReads, carry⟩ : ∃ coefficients,
      Machine.read? written = some coefficients ∧ coefficients.Carry spelling.meaning := by
    cases known : Machine.read? written with
    | none =>
      rw [known] at alike
      cases alike
    | some coefficients =>
      rw [known] at alike
      cases alike with
      | some carry => exact ⟨coefficients, rfl, carry⟩
  obtain ⟨check, checks, exact, hasWidth⟩ := carry.exists_check
  refine ⟨check, ?_, ?_, fun index counted => ⟨_, check.contains?_eq hasWidth index, rfl, ?_⟩⟩
  · rw [Machine.compile?, machineReads, Option.bind_eq_bind, Option.bind_some, checks]
  · rw [reads, Option.map_some, exact]
  · obtain ⟨place, same⟩ := Int.eq_ofNat_of_zero_le counted
    rw [exact, same, contains_positions_iff_selects, Selects]
    exact exists_congr fun count => eq_comm

theorem selects_as_spelled_for_countdown :
    ∃ (spelling : Spelling) (check : Machine.Check),
      spelling.Writes "\t-2N + 5 " ∧ spelling.meaning = ⟨-2, 5⟩ ∧
        Machine.compile? "\t-2N + 5 " = some check ∧
        (read? "\t-2N + 5 ").map positions = some check.exact ∧
        ∀ index : Int64, 0 ≤ index.toInt → ∃ answer,
          check.contains? index = some answer ∧ check.exact.contains index.toInt = answer ∧
          (answer = true ↔
            ∃ count : Nat,
              spelling.meaning.step * count + spelling.meaning.offset = index.toInt + 1) := by
  have two : Nat.ofDigits 10 (['2'].reverse.map fun digit => digit.toNat - '0'.toNat) < numberBound := by
    decide
  have five : Nat.ofDigits 10 (['5'].reverse.map fun digit => digit.toNat - '0'.toNat) < numberBound := by
    decide
  let spelling : Spelling :=
    .shifted (some .minus) (some ⟨['2'], by decide, List.forall_mem_singleton.mpr (by decide), two⟩)
      ⟨[' '], List.forall_mem_singleton.mpr (by decide)⟩ .plus
      ⟨[' '], List.forall_mem_singleton.mpr (by decide)⟩
      ⟨['5'], by decide, List.forall_mem_singleton.mpr (by decide), five⟩
  have writes : spelling.Writes "\t-2N + 5 " :=
    ⟨['\t'], ['-', '2', 'N', ' ', '+', ' ', '5'], [' '], rfl, List.forall_mem_singleton.mpr (by decide),
      List.forall_mem_singleton.mpr (by decide), rfl⟩
  obtain ⟨check, selects⟩ := selects_as_spelled writes
  exact ⟨spelling, check, writes, rfl, selects⟩

end Formula
end SelectorEngine
