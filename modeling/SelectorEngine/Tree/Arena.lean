import SelectorEngine.Tree.View

/-! Trees of nodes in an arena. Nodes are numbered in order of allocation; number zero is the document.
Appending links a child to its new parent and to the parent's last child, and leaves every other link
as it is: a child that is appended twice is listed twice. -/
namespace SelectorEngine

inductive Content where
  | document
  | element (name : String) (attributes : List (String × String))
  | text (data : String)
  | comment (data : String)
deriving DecidableEq, Repr

structure Node where
  content : Content
  parent : Option Nat := none
  children : List Nat := []
  next : Option Nat := none
  previous : Option Nat := none
deriving DecidableEq, Repr

/-- Attributes keep one value for a name, the one set last. -/
def setAttribute (attributes : List (String × String)) (name value : String) :
    List (String × String) :=
  (name, value) :: attributes.filter (·.1 != name)

def attributesOf (settings : List (String × String)) : List (String × String) :=
  settings.foldl (fun attributes (name, value) => setAttribute attributes name value) []

structure Arena where
  nodes : Array Node := #[{ content := .document }]

namespace Arena

def get? (arena : Arena) (id : Nat) : Option Node := arena.nodes[id]?

/-- A new node without relations, and its number. -/
def alloc (arena : Arena) (content : Content) : Arena × Nat :=
  ({ nodes := arena.nodes.push { content } }, arena.nodes.size)

def update (arena : Arena) (id : Nat) (change : Node → Node) : Arena :=
  { nodes := arena.nodes.modify id change }

/-- Makes `child` the last child of `parent`; nothing when one of them does not exist. -/
def appendChild? (arena : Arena) (parent child : Nat) : Option Arena := do
  let above ← arena.get? parent
  let _ ← arena.get? child
  let linked := (arena.update parent fun node => { node with children := node.children ++ [child] })
    |>.update child fun node => { node with parent := some parent }
  match above.children.getLast? with
  | none => return linked
  | some last =>
    return (linked.update last fun node => { node with next := some child })
      |>.update child fun node => { node with previous := some last }

/-- Allocates a node and appends it. -/
def appendNew? (arena : Arena) (parent : Nat) (content : Content) : Option (Arena × Nat) := do
  let (allocated, id) := arena.alloc content
  return (← allocated.appendChild? parent id, id)

def parent (arena : Arena) (id : Nat) : Option Nat := arena.get? id >>= Node.parent

def children (arena : Arena) (id : Nat) : List Nat :=
  match arena.get? id with
  | some node => node.children
  | none => []

def next (arena : Arena) (id : Nat) : Option Nat := arena.get? id >>= Node.next

def previous (arena : Arena) (id : Nat) : Option Nat := arena.get? id >>= Node.previous

/-- A node without a parent is its own only sibling. -/
def siblings (arena : Arena) (id : Nat) : List Nat :=
  match arena.parent id with
  | some parent => arena.children parent
  | none => [id]

/-- Name and attributes of an element. -/
def element? (arena : Arena) (id : Nat) : Option (String × List (String × String)) :=
  match arena.get? id with
  | some { content := .element name attributes, .. } => some (name, attributes)
  | _ => none

def textWithin (arena : Arena) : Nat → Nat → String
  | 0, _ => ""
  | depth + 1, id =>
    match arena.get? id with
    | some node =>
      match node.content with
      | .text data => data
      | .element _ _ | .document => String.join (node.children.map (textWithin arena depth))
      | .comment _ => ""
    | none => ""

/-- A text node has its own data, comments have nothing, and all else the text of its children. -/
def textContent (arena : Arena) (id : Nat) : String := arena.textWithin arena.nodes.size id

def descendantsWithin (arena : Arena) : Nat → Nat → List Nat
  | 0, _ => []
  | depth + 1, id => (arena.children id).flatMap fun child =>
    child :: descendantsWithin arena depth child

/-- The nodes below a node in document order. -/
def descendants (arena : Arena) (id : Nat) : List Nat := arena.descendantsWithin arena.nodes.size id

/-- One step through nodes that are still to be visited, and all that is below them: the first one is
visited, and its children come before the others. -/
def visit? (arena : Arena) : List Nat → Option (Nat × List Nat)
  | [] => none
  | id :: pending => some (id, arena.children id ++ pending)

/-- An arena as a tree: node numbers are the handles and their own keys, and no state is reported. -/
def view (arena : Arena) : TreeView Nat where
  isElement id := (arena.element? id).isSome
  name id := ((arena.element? id).map Prod.fst).getD ""
  parent := arena.parent
  children := arena.children
  siblings := arena.siblings
  attributeValue id name := do (← arena.element? id).2.lookup name
  text := arena.textContent
  same first second := first == second
  key := some
  bound := arena.nodes.size

end Arena
end SelectorEngine
