import AccessRights.Document.Node
import AccessRights.Path

/-!
# Selecting nodes by a path

`Node.findAll` walks a path from a node and gives the nodes reached, each once, in
document order.  Two nodes of one document are the same exactly if their numbers are.
What a step leads to from one node is in increasing order of numbers already, so the
lists for several nodes are merged pair by pair, and a number that two lists share is
kept once (`mergeByNumber`).
-/

namespace AccessRights

/-- Merges two lists of nodes in increasing order of their numbers into one.  Of two
nodes with the same number the first list's is kept. -/
def mergeByNumber : List Node → List Node → List Node
  | [], others => others
  | node :: nodes, others =>
    others.takeWhile (fun other => decide (other.number < node.number)) ++
      node :: mergeByNumber nodes
        (others.dropWhile fun other => decide (other.number ≤ node.number))

namespace Node

/-- The nodes on one axis. -/
def along (node : Node) : Axis → List Node
  | .child => node.children
  | .descendant => node.descendants

/-- The nodes that one step leads to. -/
def select (node : Node) (step : Step) : List Node :=
  (node.along step.axis).filter fun reached => step.test.accepts reached.name

/-- The nodes that one step leads to from several nodes. -/
def selectAll (nodes : List Node) (step : Step) : List Node :=
  nodes.foldr (fun node found => mergeByNumber (node.select step) found) []

/-- The nodes that a path leads to, in document order. -/
def findAll (node : Node) (path : Path) : List Node :=
  path.steps.foldl selectAll [node]

end Node

end AccessRights
