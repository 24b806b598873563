import SelectorEngine.Text

/-! Why a selector list cannot be compiled. -/
namespace SelectorEngine

inductive UnsupportedFeature where
  | pseudoElements
  | columnCombinators
deriving DecidableEq, Repr

inductive ArgumentFault where
  | missing
  | unexpected
  | selectorListExpected
  | invalidFormula (formula : String)
  /-- A reason given by a filter of the caller's. -/
  | other (reason : String)
deriving DecidableEq, Repr

inductive CompileError where
  | unsupported (feature : UnsupportedFeature)
  | unknownPseudoClass (name : String)
  | invalidArgument (name : String) (fault : ArgumentFault)
  /-- A selector starts with a combinator while that is not allowed. -/
  | relativeSelector
  /-- Aliases that stand for one another without end. -/
  | endlessAlias
deriving DecidableEq, Repr

def UnsupportedFeature.message : UnsupportedFeature → String
  | pseudoElements => "pseudo-elements"
  | columnCombinators => "column combinators"

def ArgumentFault.message : ArgumentFault → String
  | missing => "requires an argument"
  | unexpected => "doesn't take any arguments"
  | selectorListExpected => "expects a selector list"
  | invalidFormula formula => "invalid formula " ++ Text.quoted formula
  | other reason => reason

def CompileError.message : CompileError → String
  | unsupported feature => feature.message ++ " are not supported"
  | unknownPseudoClass name => "unknown pseudo-class :" ++ name
  | invalidArgument name fault =>
    "invalid arguments for pseudo-class :" ++ name ++ ": " ++ fault.message
  | relativeSelector =>
    "relative selectors are not allowed when relative selector support is disabled"
  | endlessAlias => "aliases of pseudo-classes stand for one another without end"

end SelectorEngine
