import SelectorEngine.Compile.Options
import SelectorEngine.Text

/-! Attribute selectors. The name and the value are folded once, when the selector is compiled; values
found in the tree are folded on every test. -/
namespace SelectorEngine

/-- Attributes whose values are compared without letter case in HTML. -/
def caseInsensitiveAttributes : List String := [
  "accept", "accept-charset", "align", "alink", "axis", "bgcolor", "charset", "checked", "clear",
  "codetype", "color", "compact", "declare", "defer", "dir", "direction", "disabled", "enctype",
  "face", "frame", "hreflang", "http-equiv", "lang", "language", "link", "media", "method",
  "multiple", "nohref", "noresize", "noshade", "nowrap", "readonly", "rel", "rev", "rules", "scope",
  "scrolling", "selected", "shape", "target", "text", "type", "valign", "valuetype", "vlink"]

def CaseMode.ignoresCase (mode : CaseMode) (flags : Flags) (name : String) : Bool :=
  match mode with
  | insensitive => true
  | sensitive => false
  | inQuirksMode => flags.quirksMode
  | byAttribute => !flags.xmlMode && caseInsensitiveAttributes.contains name

structure AttributeTest where
  name : String
  action : AttributeAction
  value : String
  ignoresCase : Bool

namespace AttributeTest

def fold (ignoresCase : Bool) (text : String) : String := if ignoresCase then Text.lower text else text

def ofSelector (selector : AttributeSelector) (flags : Flags) : AttributeTest :=
  let name := fold flags.foldsAttributeNames selector.name
  let ignoresCase := selector.caseMode.ignoresCase flags name
  { name, action := selector.action, value := fold ignoresCase selector.value, ignoresCase }

/-- No value has an empty word, an empty start, end or part, or a word with a blank in it. -/
def neverPasses (test : AttributeTest) : Bool :=
  match test.action with
  | .element => test.value.isEmpty || test.value.toList.any Text.isBlank
  | .start | .end | .any => test.value.isEmpty
  | .equals | .present | .hyphen | .not => false

/-- The value, or the value and a hyphen after it, starts the text. -/
def startsHyphened (value found : String) : Bool :=
  match Text.afterStart? value.toList found.toList with
  | some [] => true
  | some (next :: _) => next == '-'
  | none => false

/-- How a value that was found and folded relates to the value of the selector. -/
def relates (action : AttributeAction) (value found : String) : Bool :=
  match action with
  | .any => Text.contains value found
  | .element => (Text.words found.toList).any (· == value.toList)
  | .end => Text.endsWith value found
  | .equals => found == value
  | .hyphen => startsHyphened value found
  | .not => found != value
  | .present => true
  | .start => Text.startsWith value found

/-- Every action but `not` needs the attribute to be there. `not` passes without it, unless the
selector's value is empty: then the attribute has to be there and to hold something. -/
def passes {ν : Type} (test : AttributeTest) (tree : TreeView ν) (node : ν) : Bool :=
  let found := tree.attributeValue node test.name
  match test.action with
  | .present => tree.hasAttribute node test.name
  | .not =>
    if test.value.isEmpty then found.any (!·.isEmpty)
    else found.all fun value => relates .not test.value (fold test.ignoresCase value)
  | action => found.any fun value => relates action test.value (fold test.ignoresCase value)

end AttributeTest

/-- Compiles an attribute selector. -/
def attributeStep {ν σ : Type} (selector : AttributeSelector) : Step ν σ := fun options _ next =>
  let test := AttributeTest.ofSelector selector options.flags
  if test.neverPasses then return .alwaysFalse
  else next.guard (.holds (test.passes options.tree))

end SelectorEngine
