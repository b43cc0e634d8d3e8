import Retag.Markup.Tree

/-! Graphs of nodes: trees with every alias replaced by the node that it stands for. -/

namespace Retag.Markup

/-- A node, with the names of its parts. --/
inductive Node where
  | scalar (tag : Tag) (text : Text.Wobbly)
  | seq (tag : Tag) (items : List Nat)
  | map (tag : Tag) (entries : List (Nat × Nat))
  deriving DecidableEq, Repr

namespace Node

def tag : Node → Tag
  | .scalar t _ | .seq t _ | .map t _ => t

def withTag (t : Tag) : Node → Node
  | .scalar _ text => .scalar t text
  | .seq _ items => .seq t items
  | .map _ entries => .map t entries

end Node

/-- The nodes of a document, each named by its place. --/
abbrev Graph := Array Node

namespace Graph

def node (g : Graph) (n : Nat) : Node :=
  (g[n]?).getD (.scalar .null "")

/-- The entries of a node that is a mapping. --/
def entries (g : Graph) (n : Nat) : List (Nat × Nat) :=
  match g.node n with
  | .map _ entries => entries
  | _ => []

def setEntries (g : Graph) (n : Nat) (entries : List (Nat × Nat)) : Graph :=
  g.setIfInBounds n (.map (g.node n).tag entries)

end Graph

/-- A graph in the making: the nodes so far, and the nodes of the anchors so far. --/
structure Drawing where
  nodes : Graph := #[]
  anchors : List (String × Nat) := []

namespace Drawing

/-- Takes a name for a node, and notes its anchor. --/
def reserve (d : Drawing) (anchor : Option String) : Drawing :=
  { nodes := d.nodes.push (.scalar .null "")
    anchors := match anchor with
      | some a => (a, d.nodes.size) :: d.anchors
      | none => d.anchors }

/-- Gives a name its node. --/
def fill (d : Drawing) (n : Nat) (node : Node) : Drawing :=
  { d with nodes := d.nodes.setIfInBounds n node }

mutual

/-- Draws a tree; the nodes get names in the order in which they are written. --/
def draw (d : Drawing) : Tree → Nat × Drawing
  | .alias name => ((d.anchors.lookup name).getD 0, d)
  | .scalar anchor tag text => (d.nodes.size, (d.reserve anchor).fill d.nodes.size (.scalar tag text))
  | .seq anchor tag items =>
    let (ns, e) := drawItems (d.reserve anchor) items
    (d.nodes.size, e.fill d.nodes.size (.seq tag ns))
  | .map anchor tag entries =>
    let (ns, e) := drawEntries (d.reserve anchor) entries
    (d.nodes.size, e.fill d.nodes.size (.map tag ns))

def drawItems (d : Drawing) : List Tree → List Nat × Drawing
  | [] => ([], d)
  | t :: rest =>
    let (n, d) := draw d t
    let (ns, d) := drawItems d rest
    (n :: ns, d)

def drawEntries (d : Drawing) : List (Tree × Tree) → List (Nat × Nat) × Drawing
  | [] => ([], d)
  | (k, v) :: rest =>
    let (m, d) := draw d k
    let (n, d) := draw d v
    let (ns, d) := drawEntries d rest
    ((m, n) :: ns, d)

end

end Drawing

namespace Graph

/-- The graph of a tree, and the name of its root. --/
def ofTree (t : Tree) : Graph × Nat :=
  let (n, d) := Drawing.draw {} t
  (d.nodes, n)

/-! ### Merging -/

/-- Takes the first merge key out of a mapping: the value that it has, and the graph without the entry. --/
def takeMerge? (g : Graph) (n : Nat) : Option (Nat × Graph) :=
  let isMerge (e : Nat × Nat) : Bool := (g.node e.1).tag == .merge
  let es := g.entries n
  (es.find? isMerge).map fun e => (e.2, g.setEntries n (es.eraseP isMerge))

/-- Makes the keys of a mapping that stand for its scalar value ordinary texts. --/
def plainKeys (g : Graph) (n : Nat) : Graph :=
  (g.entries n).foldl
    (fun g e => if (g.node e.1).tag == .value then g.setIfInBounds e.1 ((g.node e.1).withTag .str) else g) g

mutual

/-- Replaces the merge keys of a mapping by the entries of the mappings that they name, in front of its own. --/
def flatten : Nat → Graph → Nat → Except Fault Graph
  | 0, g, _ => .ok g
  | fuel + 1, g, n => do
    let (merged, g) ← collect fuel g n
    let g := g.plainKeys n
    return if merged.isEmpty then g else g.setEntries n (merged ++ g.entries n)

/-- Takes all merge keys out of a mapping: the entries that they stand for, and the graph without them. --/
def collect : Nat → Graph → Nat → Except Fault (List (Nat × Nat) × Graph)
  | 0, g, _ => .ok ([], g)
  | fuel + 1, g, n =>
    match g.takeMerge? n with
    | none => .ok ([], g)
    | some (v, g) => do
      let (es, g) ← match g.node v with
        | .map .. => do
          -- The mapping that is merged loses its own merge keys for good, also where it stands elsewhere.
          let g ← flatten fuel g v
          pure (g.entries v, g)
        | .seq _ items => gather fuel g items
        | .scalar .. => .error .malformed
      let (rest, g) ← collect fuel g n
      return (es ++ rest, g)

/-- The entries of a row of mappings, those of the last mapping first. --/
def gather : Nat → Graph → List Nat → Except Fault (List (Nat × Nat) × Graph)
  | 0, g, _ => .ok ([], g)
  | _, g, [] => .ok ([], g)
  | fuel + 1, g, m :: rest =>
    match g.node m with
    | .map .. => do
      let g ← flatten fuel g m
      let es := g.entries m
      let (others, g) ← gather fuel g rest
      -- Later entries win, so those of the first mapping come last.
      return (others ++ es, g)
    | _ => .error .malformed

end

/-- The number of parts of all nodes, which bounds the merges that there can be. --/
def weight (g : Graph) : Nat :=
  g.foldl (fun n node => n + match node with
    | .scalar .. => 1
    | .seq _ items => items.length + 1
    | .map _ entries => entries.length + 1) 0

end Graph

end Retag.Markup
