/-! Warnings about degraded behaviour. A journal remembers which warnings were given, so that each of
them is shown once; two warnings are the same when their texts are. -/
namespace SelectorEngine

structure Warning where
  component : String
  message : String

def Warning.text (warning : Warning) : String :=
  "[" ++ warning.component ++ "] " ++ warning.message

/-- The line that is shown for a warning. -/
def Warning.line (warning : Warning) : String := "sprig: " ++ warning.text

/-- Warnings given since the journal was last cleared, latest first. -/
structure Journal where
  given : List Warning := []

namespace Journal

def contains (journal : Journal) (warning : Warning) : Bool :=
  journal.given.any fun earlier => earlier.text == warning.text

/-- The journal afterwards, and whether the warning has to be shown. -/
def warn (journal : Journal) (warning : Warning) : Journal × Bool :=
  if journal.contains warning then (journal, false)
  else ({ given := warning :: journal.given }, true)

def clear (_ : Journal) : Journal := {}

/-- The lines shown so far, in order. -/
def lines (journal : Journal) : List String := journal.given.reverse.map Warning.line

/-- The warnings given are those whose lines were shown. -/
theorem contains_iff (journal : Journal) (warning : Warning) :
    journal.contains warning = true ↔ warning.line ∈ journal.lines := by
  simp [contains, lines, Warning.line]

theorem warn_shown_iff (journal : Journal) (warning : Warning) :
    (journal.warn warning).2 = true ↔ warning.line ∉ journal.lines := by
  rw [← contains_iff, warn]
  split
  · next given => simp [given]
  · next new => simp [new]

theorem lines_warn (journal : Journal) (warning : Warning) :
    (journal.warn warning).1.lines =
      journal.lines ++ if (journal.warn warning).2 then [warning.line] else [] := by
  unfold warn
  split <;> simp [lines]

/-- Of all warnings given in a row, each line that was not shown before is shown once, when it is first due. -/
theorem lines_of_warnings (journal : Journal) (warnings : List Warning) :
    (warnings.foldl (fun journal warning => (warn journal warning).1) journal).lines =
      journal.lines ++ ((warnings.map Warning.line).removeAll journal.lines).eraseDups := by
  induction warnings generalizing journal with
  | nil => simp [List.removeAll]
  | cons warning rest ih =>
    rw [List.foldl_cons, ih, lines_warn, List.map_cons]
    by_cases shown : warning.line ∈ journal.lines
    · have silent : ¬ (journal.warn warning).2 = true := fun due =>
        (warn_shown_iff journal warning).mp due shown
      simp [silent, List.removeAll, shown]
    · have due : (journal.warn warning).2 = true := (warn_shown_iff journal warning).mpr shown
      simp [due, List.removeAll, shown, List.eraseDups_cons, Bool.and_comm, Bool.beq_eq_decide_eq]

end Journal
end SelectorEngine
