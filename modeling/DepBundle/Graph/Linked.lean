import DepBundle.Graph.Basic
/-!
# Graphs — the order modules run in, and what they export

Modules run in the order a walk along their requests is done with them. A
walk goes depth first: it comes to everything that can be reached, is done
with a node once it is done with what the node leads to, and passes over
what leads back to a node it is in the middle of.

In that order the names that each exports are settled: its own, and those
of what it passes on. Where modules pass one another on in a circle, the
one that runs later contributes only its own names.
-/

namespace DepBundle

namespace Graph

section

variable {α : Type} [DecidableEq α]

/-- Where a walk is. -/
structure Walk (α : Type) where
  /-- The nodes it has come to. -/
  seen : List α := []
  /-- The nodes it is done with, in order. -/
  done : List α := []

namespace Walk

/-- The walk after coming to a node, at most `n` nodes deep. -/
def visit (next : α → List α) : Nat → Walk α → α → Walk α
  | 0, w, _ => w
  | n + 1, w, a =>
    if a ∈ w.seen then w
    else
      let w := (next a).foldl (visit next n) { w with seen := a :: w.seen }
      { w with done := w.done ++ [a] }

end Walk

/-- The nodes that can be reached from `starts`, in the order a walk is
done with them; `size` bounds how many there are. -/
def postOrder (next : α → List α) (size : Nat) (starts : List α) : List α :=
  (starts.foldl (Walk.visit next size) ({} : Walk α)).done

end

/-- The names a module exports. -/
structure Exports where
  names : OrderedSet String := .empty
  /-- The modules of the host that it passes on all exports of. -/
  externals : OrderedSet String := .empty

/-- A graph with the order of its modules and their exports. -/
structure Linked where
  graph : Graph
  /-- The modules in the order they run, those of the host among them. -/
  order : List String
  exports : OrderedMap String Exports

/-- The modules in the order they run: what a module asks for comes before
it, and entries follow one another. -/
def runOrder (g : Graph) : List String :=
  postOrder (fun id => (g.staticTargets id).filter g.vertices.contains) g.vertices.size
    ((g.entries.map (·.id)).filter g.vertices.contains)

/-- Whether a module runs before another. -/
def runsBefore (order : List String) (a b : String) : Bool := order.idxOf a < order.idxOf b

/-- The exports of a module, where those of the modules before it are
settled. -/
def exportsOf (g : Graph) (order : List String) (settled : OrderedMap String Exports)
    (m : Bundled) : Exports :=
  (g.starTargets m.id).foldl (fun e target =>
    match g.bundled? target with
    | none => { e with externals := e.externals.insert target }
    | some t =>
      let known := (settled.get? target).getD {}
      let names := if runsBefore order target m.id then known.names else t.localExports
      { names := e.names.insertMany (names.toList.filter (· != "default"))
        externals := e.externals.insertMany known.externals.toList })
    { names := m.localExports }

/-- The exports of the modules in order. -/
def settleExports (g : Graph) (order : List String) : OrderedMap String Exports :=
  (order.filterMap g.bundled?).foldl (fun settled m =>
    settled.insert m.id (g.exportsOf order settled m)) .empty

/-- The graph with its order and exports. -/
def link (g : Graph) : Linked :=
  let order := g.runOrder
  ⟨g, order, g.settleExports order⟩

namespace Linked

/-- The parts of the output in the order they run. -/
def sorted (l : Linked) : List String := l.order.filter fun id => (l.graph.bundled? id).isSome

/-- When a module runs; `none` where it never does. -/
def position? (l : Linked) (id : String) : Option Nat := l.order.idxOf? id

/-- What a module exports. -/
def exportsOf (l : Linked) (id : String) : Exports := (l.exports.get? id).getD {}

end Linked

end Graph

end DepBundle
