import SelectorEngine.Compile.AttributeTest
import SelectorEngine.Compile.Position

/-! Built-in pseudo-classes that see their argument and what is compiled already. -/
namespace SelectorEngine

variable {ν σ : Type}

inductive BuiltinFilter where
  | contains
  | containsFolded
  | counting (counting : Counting)
  | root
  | scope
  | state (state : ElementState)
  | lang

namespace BuiltinFilter

def ofName? : String → Option BuiltinFilter
  | "contains" => some contains
  | "icontains" => some containsFolded
  | "nth-child" => some (counting { fromEnd := false, sameName := false })
  | "nth-last-child" => some (counting { fromEnd := true, sameName := false })
  | "nth-of-type" => some (counting { fromEnd := false, sameName := true })
  | "nth-last-of-type" => some (counting { fromEnd := true, sameName := true })
  | "root" => some root
  | "scope" => some scope
  | "hover" => some (state .hovered)
  | "visited" => some (state .visited)
  | "active" => some (state .active)
  | "lang" => some lang
  | _ => none

def needArgument (name : String) : Option String → CompileM σ String
  | some argument => return argument
  | none => throw (.invalidArgument name .missing)

/-- The element has no element above it. -/
def rootStep : Step ν σ := fun options _ next =>
  next.guard (.holds fun node => (options.tree.elementParent node).isNone)

/-- The element is one of the nodes of the scope, or the root where there is none. -/
def scopeStep : Step ν σ := fun options scope next =>
  match scope with
  | none => rootStep options scope next
  | some .subject => next.guard (.isSubject options.same)
  | some (.fixed context) =>
    match context.toList with
    | [] => rootStep options scope next
    | nodes => next.guard (.holds fun node => nodes.any (options.same · node))

/-- The text of the node, folded, contains the argument. -/
def textStep (fold : String → String) (argument : String) : Step ν σ := fun options _ next =>
  let piece := fold argument
  next.andInherited options.tree.elementClimb options.flags.cacheResults
    (.holds fun node => Text.contains piece (fold (options.tree.text node)))

def step (filter : BuiltinFilter) (name : String) (argument : Option String) : Step ν σ :=
  fun options scope next => do
    match filter with
    | contains => textStep id (← needArgument name argument) options scope next
    | containsFolded => textStep Text.lower (← needArgument name argument) options scope next
    | counting how => how.step name (← needArgument name argument) options scope next
    | root => rootStep options scope next
    | .scope => scopeStep options scope next
    | state which =>
      if options.tree.supports which then
        next.guard (.holds fun node => options.tree.isIn node which)
      else
        return .alwaysFalse
    | lang =>
      let value ← needArgument name argument
      attributeStep { name := "lang", action := .equals, value } options scope next

end BuiltinFilter
end SelectorEngine
