import SelectorEngine.Compile.AttributeTest
import SelectorEngine.Compile.BuiltinFilter
import SelectorEngine.Compile.Error
import SelectorEngine.Compile.Group
import SelectorEngine.Compile.Options
import SelectorEngine.Compile.Position
import SelectorEngine.Compile.PseudoClass
import SelectorEngine.Compile.SelectorList
import SelectorEngine.Formula
import SelectorEngine.Json
import SelectorEngine.Match.Plan
import SelectorEngine.Match.Predicate
import SelectorEngine.Match.Session
import SelectorEngine.Proofs.Algebra
import SelectorEngine.Proofs.Aliases
import SelectorEngine.Proofs.Anchoring
import SelectorEngine.Proofs.Attributes
import SelectorEngine.Proofs.Compile.Agreement
import SelectorEngine.Proofs.Compile.Aliased
import SelectorEngine.Proofs.Compile.Alone
import SelectorEngine.Proofs.Compile.Calling
import SelectorEngine.Proofs.Compile.Documented
import SelectorEngine.Proofs.Compile.Ending
import SelectorEngine.Proofs.Compile.Extension
import SelectorEngine.Proofs.Compile.Foresight
import SelectorEngine.Proofs.Compile.Fronted
import SelectorEngine.Proofs.Compile.Meaning
import SelectorEngine.Proofs.Compile.Outcome
import SelectorEngine.Proofs.Compile.Referring
import SelectorEngine.Proofs.Compile.Remembering
import SelectorEngine.Proofs.Compile.Rooted
import SelectorEngine.Proofs.Compile.Skipping
import SelectorEngine.Proofs.Compile.Spelled
import SelectorEngine.Proofs.Compile.Steady
import SelectorEngine.Proofs.Compile.Twin
import SelectorEngine.Proofs.Compile.Visited
import SelectorEngine.Proofs.Covering
import SelectorEngine.Proofs.Descending
import SelectorEngine.Proofs.Documents
import SelectorEngine.Proofs.Enumerating
import SelectorEngine.Proofs.Failing
import SelectorEngine.Proofs.Folding
import SelectorEngine.Proofs.Formula.Accepting
import SelectorEngine.Proofs.Formula.Machine
import SelectorEngine.Proofs.Formula.Spelling
import SelectorEngine.Proofs.Formulas
import SelectorEngine.Proofs.Growing
import SelectorEngine.Proofs.Inheriting
import SelectorEngine.Proofs.Laziness
import SelectorEngine.Proofs.Likeness
import SelectorEngine.Proofs.Match.Calls
import SelectorEngine.Proofs.Match.Passes
import SelectorEngine.Proofs.Match.Remembering
import SelectorEngine.Proofs.Matching
import SelectorEngine.Proofs.Meaning.Abbreviation
import SelectorEngine.Proofs.Meaning.Attribute
import SelectorEngine.Proofs.Meaning.Chain
import SelectorEngine.Proofs.Meaning.Compound
import SelectorEngine.Proofs.Meaning.Context
import SelectorEngine.Proofs.Meaning.Documented
import SelectorEngine.Proofs.Meaning.Elsewhere
import SelectorEngine.Proofs.Meaning.Position
import SelectorEngine.Proofs.Meaning.Reading
import SelectorEngine.Proofs.Meaning.Region
import SelectorEngine.Proofs.Meaning.SimpleSelector
import SelectorEngine.Proofs.Meaning.Stages
import SelectorEngine.Proofs.Meaning.Visited
import SelectorEngine.Proofs.Negation
import SelectorEngine.Proofs.Ordering
import SelectorEngine.Proofs.Positions
import SelectorEngine.Proofs.Refusal
import SelectorEngine.Proofs.Scoping
import SelectorEngine.Proofs.Search.Enumeration
import SelectorEngine.Proofs.Search.Found
import SelectorEngine.Proofs.Search.Inside
import SelectorEngine.Proofs.Search.Order
import SelectorEngine.Proofs.Search.Roots
import SelectorEngine.Proofs.Searching
import SelectorEngine.Proofs.Selecting
import SelectorEngine.Proofs.Selector.Arrangement
import SelectorEngine.Proofs.Selector.Foresight
import SelectorEngine.Proofs.Selector.Occurrence
import SelectorEngine.Proofs.Selector.RoundTrip
import SelectorEngine.Proofs.Selector.Runs
import SelectorEngine.Proofs.Selector.Spelled
import SelectorEngine.Proofs.Selector.Surveyed
import SelectorEngine.Proofs.Sorting
import SelectorEngine.Proofs.Staging
import SelectorEngine.Proofs.Structure
import SelectorEngine.Proofs.Terminating
import SelectorEngine.Proofs.Text.Blank
import SelectorEngine.Proofs.Text.Lower
import SelectorEngine.Proofs.Text.Sigma
import SelectorEngine.Proofs.Text.Words
import SelectorEngine.Proofs.TextSearch
import SelectorEngine.Proofs.Transparency
import SelectorEngine.Proofs.Tree.Descent
import SelectorEngine.Proofs.Tree.Forest
import SelectorEngine.Proofs.Tree.Growth
import SelectorEngine.Proofs.Tree.Linked
import SelectorEngine.Proofs.Tree.Text
import SelectorEngine.Proofs.Union.Compiling
import SelectorEngine.Proofs.Union.Matching
import SelectorEngine.Proofs.Union.Searching
import SelectorEngine.Proofs.Union.Selecting
import SelectorEngine.Search
import SelectorEngine.Selector.Abbreviation
import SelectorEngine.Selector.Anchor
import SelectorEngine.Selector.Flags
import SelectorEngine.Selector.Json
import SelectorEngine.Selector.Rank
import SelectorEngine.Selector.Token
import SelectorEngine.Text
import SelectorEngine.Text.CaseTable
import SelectorEngine.Text.HiddenTable
import SelectorEngine.Tree.Arena
import SelectorEngine.Tree.View
import SelectorEngine.Tree.Walk
import SelectorEngine.Warning
