import Retag.Document.Value
import Retag.Markup.Graph
import Retag.Markup.Scalar

/-! The document that a graph of nodes stands for. Every node becomes one cell, so that nodes with several places
    become shared cells. Containers are made empty and filled later, in the order in which they were made: this is
    what lets them hold themselves, and what decides which of two faults is found first. -/

namespace Retag.Markup

/-- A document in the making: the nodes; the cells so far; the cells of the nodes that have one; the containers
    that are still empty, in the order of their making; and the cell of the value that is no number. --/
structure Builder where
  graph : Graph
  cells : Cells := #[]
  made : List (Nat × Ref) := []
  waiting : List Nat := []
  nan : Option Ref := none

namespace Builder

/-- The scalar text of a node. A mapping stands for the value of its scalar key. --/
def scalarText (g : Graph) : Nat → Nat → Except Fault Text.Wobbly
  | 0, _ => .error (.broken .endlessScalar)
  | fuel + 1, n => match g.node n with
    | .scalar _ text => .ok text
    | .seq .. => .error .malformed
    | .map _ entries => match entries.find? fun e => (g.node e.1).tag == .value with
      | some e => scalarText g fuel e.2
      | none => .error .malformed

/-- The scalar that a node stands for, given its text. --/
def scalar (node : Node) (text : Text.Wobbly) : Except Fault Scalar :=
  match node.tag, node with
  | .timestamp, .map .. => .error (.broken .mappingAsTimestamp)
  | tag, _ => readText tag text

/-- Notes the cell of a node. --/
def note (b : Builder) (n : Nat) (r : Ref) : Builder :=
  { b with made := (n, r) :: b.made }

def add (b : Builder) (c : Cell) : Ref × Builder :=
  (b.cells.size, { b with cells := b.cells.push c })

/-- Adds the cell of a scalar. The word for what is no number always stands for the same cell. --/
def addScalar (b : Builder) (n : Nat) : Except Fault (Ref × Builder) := do
  let text ← scalarText b.graph (b.graph.size + 1) n
  let v ← scalar (b.graph.node n) text
  match v == .float .nan && isNanText text, b.nan with
  | true, some r => return (r, b)
  | true, none =>
    let (r, b) := b.add (.scalar v)
    return (r, { b with nan := some r })
  | false, _ => return b.add (.scalar v)

/-- The cell of a node, made if there is none yet. --/
def make (b : Builder) (n : Nat) : Except Fault (Ref × Builder) :=
  match b.made.lookup n with
  | some r => .ok (r, b)
  | none =>
    -- A container is empty until its turn comes, so that it can be a part of itself.
    let container (c : Cell) : Except Fault (Ref × Builder) :=
      let (r, b) := b.add c
      .ok (r, { b.note n r with waiting := b.waiting ++ [n] })
    match (b.graph.node n).tag with
    | .seq | .omap | .pairs => container (.list [])
    | .map => container (.mapping [])
    | .set => container (.set [])
    | .merge | .value | .other _ => .error .malformed
    | _ => do
      let (r, b) ← b.addScalar n
      return (r, b.note n r)

def makeAll (b : Builder) : List Nat → Except Fault (List Ref × Builder)
  | [] => .ok ([], b)
  | n :: rest => do
    let (r, b) ← b.make n
    let (rs, b) ← makeAll b rest
    return (r :: rs, b)

/-- The entries of a mapping. A key is a scalar, and keys that are equal are one. --/
def makeEntries (b : Builder) (found : List (Ref × Ref)) : List (Nat × Nat) → Except Fault (List (Ref × Ref) × Builder)
  | [] => .ok (found, b)
  | (k, v) :: rest => do
    let (key, b) ← b.make k
    if (b.cells.get key).kind?.isSome then .error .malformed
    let (value, b) ← b.make v
    makeEntries b (b.cells.insertEntry found key value) rest

/-- The pairs of a row of mappings of one entry each. --/
def makePairs (b : Builder) : List Nat → Except Fault (List Ref × Builder)
  | [] => .ok ([], b)
  | n :: rest => match b.graph.node n with
    | .map _ [(k, v)] => do
      let (key, b) ← b.make k
      let (value, b) ← b.make v
      let (r, b) := b.add (.pair key value)
      let (rs, b) ← makePairs b rest
      return (r :: rs, b)
    | _ => .error .malformed

/-- Puts a cell in the place of the container that a node has. --/
def fillWith (b : Builder) (n : Nat) (c : Cell) : Builder :=
  match b.made.lookup n with
  | some r => { b with cells := b.cells.put r c }
  | none => b

/-- Fills the container of a node; `weight` bounds the merges. --/
def fill (weight : Nat) (b : Builder) (n : Nat) : Except Fault Builder := do
  match b.graph.node n with
  | .scalar .. => .error .malformed
  | .seq tag items => match tag with
    | .seq => do
      let (rs, b) ← b.makeAll items
      return b.fillWith n (.list rs)
    | .omap | .pairs => do
      let (rs, b) ← b.makePairs items
      return b.fillWith n (.list rs)
    | _ => .error .malformed
  | .map tag _ =>
    if tag == .map || tag == .set then do
      let g ← b.graph.flatten (4 * weight + 4) n
      let (es, b) ← makeEntries { b with graph := g } [] (g.entries n)
      return b.fillWith n (if tag == .set then .set (es.map Prod.fst) else .mapping es)
    else .error .malformed

/-- Fills the waiting containers, and those that come to wait. --/
def fillAll (weight : Nat) : Nat → Builder → Except Fault Builder
  | 0, b => .ok b
  | fuel + 1, b => match b.waiting with
    | [] => .ok b
    | n :: rest => do fillAll weight fuel (← { b with waiting := rest }.fill weight n)

end Builder

/-- The document of a graph with a root. --/
def Graph.document (g : Graph) (root : Nat) : Except Fault Document := do
  let (r, b) ← { graph := g : Builder }.make root
  let b ← b.fillAll g.weight (g.size + 1)
  return ⟨b.cells, r⟩

end Retag.Markup

namespace Retag.Document

def empty : Document :=
  ⟨#[.mapping []], 0⟩

/-- Whether a document is nothing but null. --/
def isNull (d : Document) : Bool :=
  d.cells.get d.root == .scalar .null

end Retag.Document
