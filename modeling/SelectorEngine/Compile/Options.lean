import SelectorEngine.Compile.Error
import SelectorEngine.Match.Predicate
import SelectorEngine.Selector.Flags
import SelectorEngine.Selector.Token
import SelectorEngine.Tree.View

/-! What a compilation depends on besides the selector list: the tree, the identity of nodes, flags, the
scope of relative selectors, and the pseudo-classes of the caller's. -/
namespace SelectorEngine

/-- Nodes that relative selectors and `:scope` refer to, given as one node or as a collection. -/
inductive MatchContext (ν : Type) where
  | node (node : ν)
  | nodes (nodes : List ν)

def MatchContext.toList {ν : Type} : MatchContext ν → List ν
  | node only => [only]
  | nodes all => all

/-- What `:scope` refers to in one selector list. -/
inductive Scope (ν : Type) where
  | fixed (context : MatchContext ν)
  /-- The node a relative `:has()` is being asked about. -/
  | subject

/-- The part of the options that filters see. -/
structure Basis (ν : Type) where
  tree : TreeView ν
  same : ν → ν → Bool
  flags : Flags

abbrev CompileM (σ : Type) := ExceptT CompileError (SessionM σ)

/-- A filter gets what is compiled already and its argument, and answers with the whole. -/
abbrev Filter (ν σ : Type) :=
  Predicate ν σ → Option String → Basis ν → CompileM σ (Predicate ν σ)

structure CustomCheck (ν σ : Type) where
  takesArgument : Bool
  check : ν → Option String → StateM σ Bool

/-- Pseudo-classes of the caller's by name. They are looked up before the built-in ones, aliases
first, then filters, then checks; an entry added later hides an earlier one of its name. -/
structure CustomClasses (ν σ : Type) where
  aliases : List (String × SelectorList) := []
  filters : List (String × Filter ν σ) := []
  checks : List (String × CustomCheck ν σ) := []

structure Options (ν σ : Type) extends Basis ν where
  /-- Takes precedence over a context given with the selector list. -/
  context : Option (MatchContext ν)
  /-- What the outermost part of every group finally defers to. -/
  root : Predicate ν σ
  custom : CustomClasses ν σ
  /-- Groups that do not mention `:scope` are prefixed with it when there is a scope; only in arguments
  of pseudo-classes they are not. -/
  anchored : Bool

namespace Options

variable {ν σ : Type}

def ofTree (tree : TreeView ν) : Options ν σ where
  tree := tree
  same := tree.same
  flags := {}
  context := none
  root := .alwaysTrue
  custom := {}
  anchored := true

/-- Options for the selector list in the argument of a pseudo-class. -/
def embedded (options : Options ν σ) : Options ν σ :=
  { options with
    context := none
    root := .alwaysTrue
    flags := { options.flags with relativeSelector := true }
    anchored := true }

def unanchored (options : Options ν σ) : Options ν σ := { options with anchored := false }

/-- For tests whose results depend on more than the node. -/
def unremembering (options : Options ν σ) : Options ν σ :=
  { options with flags := { options.flags with cacheResults := false } }

/-- How the tree is climbed through nodes of any kind. -/
def climb (options : Options ν σ) : Climb ν where
  above := options.tree.ancestors
  key := options.tree.key

end Options

/-- How the tree is climbed through elements only. -/
def TreeView.elementClimb {ν : Type} (tree : TreeView ν) : Climb ν where
  above := tree.elementAncestors
  key := tree.key

/-- Puts one token in front of what is compiled already. -/
abbrev Step (ν σ : Type) :=
  Options ν σ → Option (Scope ν) → Predicate ν σ → CompileM σ (Predicate ν σ)

end SelectorEngine
