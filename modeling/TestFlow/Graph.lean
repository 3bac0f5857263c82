import TestFlow.Component
import TestFlow.Flow.Basic
import TestFlow.Sift

/-!
# Graphs

The graph of a flow has the nodes and connections that could be accepted, in the order they were
listed, and the reasons why others were not.

Reference: specification, §3 (node, connection) and §7 (recoverable errors).

## Main definitions

* `Node`, `Node.steps` — an accepted node and its steps;
* `Edge` — an accepted connection;
* `Rejection` — why a node or connection was not accepted, with its code, subject and wording;
* `Graph` — all three, with `Graph.dependencies`;
* `Graph.build` — the graph of a flow.
-/

namespace TestFlow

/-!
## Accepted and rejected

A node is known by its position among the accepted nodes, and an edge joins two positions.  A node
whose payload could not be decoded is accepted too: it takes its place in the order and reports its
payload there.
-/

/-- An accepted node. -/
structure Node where
  id : String
  kind : Kind
  payload : Except Json.DecodeError Component

/-- What stands for a payload that could not be decoded. -/
def Kind.unread (kind : Kind) (e : Json.DecodeError) : Draft :=
  .notice (kind.label ++ " configuration could not be read: " ++ e.message)

def Node.drafts (node : Node) : List Draft :=
  match node.payload with
  | .ok component => component.drafts
  | .error e => [node.kind.unread e]

def Node.steps (node : Node) : List Step :=
  node.drafts.map (Draft.step node.id)

/-- An accepted connection, from the position of one node to that of another. -/
structure Edge where
  connectionId : String
  source : Nat
  target : Nat
  output : Option String
  input : Option String

/-- Why a node or connection was not accepted. -/
inductive Rejection where
  /-- The id of a node is blank. -/
  | blankId (id typeName : String)
  /-- An accepted node has the same id. -/
  | duplicateNode (id : String)
  /-- The type of a node is not known. -/
  | unknownType (id typeName : String)
  /-- An earlier connection has the same id. -/
  | duplicateConnection (id source target : String)
  /-- A connection joins a node to itself. -/
  | selfConnection (id node : String)
  /-- The node that a connection starts from was not accepted. -/
  | unknownSource (id source : String)
  /-- The node that a connection leads to was not accepted. -/
  | unknownTarget (id target : String)
  deriving DecidableEq, Repr

namespace Rejection

def code : Rejection → String
  | .blankId _ _ => "G001"
  | .duplicateNode _ => "G001"
  | .unknownType _ _ => "G002"
  | .unknownSource _ _ => "G003"
  | .unknownTarget _ _ => "G003"
  | .selfConnection _ _ => "G004"
  | .duplicateConnection _ _ _ => "G005"

/-- The id of the node or connection that was not accepted. -/
def subject : Rejection → String
  | .blankId id _ => id
  | .duplicateNode id => id
  | .unknownType id _ => id
  | .unknownSource id _ => id
  | .unknownTarget id _ => id
  | .selfConnection id _ => id
  | .duplicateConnection id _ _ => id

def message : Rejection → String
  | .blankId _ typeName => "Node of type '" ++ typeName ++ "' has an empty id"
  | .duplicateNode id => "Duplicate node id '" ++ id ++ "'"
  | .unknownType _ typeName => "Unknown component type '" ++ typeName ++ "'"
  | .unknownSource id source =>
    "Connection '" ++ id ++ "' references unknown source node '" ++ source ++ "'"
  | .unknownTarget id target =>
    "Connection '" ++ id ++ "' references unknown target node '" ++ target ++ "'"
  | .selfConnection id node =>
    "Connection '" ++ id ++ "' connects node '" ++ node ++ "' to itself"
  | .duplicateConnection id source target =>
    "Duplicate connection id '" ++ id ++ "' (" ++ source ++ " -> " ++ target ++ ")"

/-- A rejection as a step of the scenario. -/
def step (rejection : Rejection) : Step :=
  .warn rejection.subject rejection.message

end Rejection

/-- The accepted nodes and connections of a flow, and why others were not accepted. -/
structure Graph where
  nodes : List Node
  edges : List Edge
  rejections : List Rejection

namespace Graph

/-- The position of the node with an id. -/
def position? (nodes : List Node) (id : String) : Option Nat :=
  nodes.findIdx? fun node => node.id == id

def idAt (graph : Graph) (position : Nat) : String :=
  (graph.nodes[position]?.map Node.id).getD ""

/-- The positions that the edges into a position come from, in the order of the connections. -/
def sourcesOf (graph : Graph) (position : Nat) : List Nat :=
  (graph.edges.filter fun edge => edge.target == position).map Edge.source

/-- The ids of the nodes that connections into a node come from, in the order of the connections. -/
def dependencies (graph : Graph) (id : String) : List String :=
  match position? graph.nodes id with
  | none => []
  | some position => (graph.sourcesOf position).map graph.idAt

end Graph

end TestFlow

namespace TestFlow.Graph

/-!
## Building a graph

Building a graph never fails: every node and connection of a flow is either accepted or rejected
with a reason.  Nodes come first.  A node is accepted if its id is not blank, no accepted node
before it has the same id, and its type is known, and these are checked in that order.  A connection
is accepted if its id is blank or not that of any connection before it, accepted or not, and it
joins two different accepted nodes.
-/

/-- Accepts or rejects a node, given the ids of the nodes accepted before it. -/
def acceptNode (taken : List String) (record : NodeRecord) : Except Rejection Node :=
  if Text.isBlank record.id then .error (.blankId record.id record.typeName)
  else if taken.contains record.id then .error (.duplicateNode record.id)
  else
    match Kind.ofTypeName? record.typeName with
    | none => .error (.unknownType record.id record.typeName)
    | some kind => .ok ⟨record.id, kind, Component.decode kind record.data⟩

def nodeOutcomes (records : List NodeRecord) : List (Except Rejection Node) :=
  sift acceptNode Node.id [] records

/-- Accepts or rejects a connection, given the accepted nodes and the ids of the connections before
it. -/
def acceptConnection (nodes : List Node) (earlier : List String) (record : ConnectionRecord) :
    Except Rejection Edge :=
  -- a blank id is no id, and any number of connections may have it
  if !Text.isBlank record.id && earlier.contains record.id then
    .error (.duplicateConnection record.id record.source record.target)
  else
    match position? nodes record.source, position? nodes record.target with
    | some source, some target =>
      if source = target then .error (.selfConnection record.id record.source)
      else .ok ⟨record.id, source, target, record.output, record.input⟩
    | none, _ => .error (.unknownSource record.id record.source)
    | some _, none => .error (.unknownTarget record.id record.target)

/-- The outcome of each connection of a flow, where `earlier` has the ids of the connections before
the first, the last of which comes first. -/
def connectionOutcomes (nodes : List Node) :
    (earlier : List String) → List ConnectionRecord → List (Except Rejection Edge)
  | _, [] => []
  | earlier, record :: rest =>
    -- the id is used up even if the connection is rejected
    acceptConnection nodes earlier record :: connectionOutcomes nodes (record.id :: earlier) rest

def build (flow : Flow) : Graph :=
  let nodeOutcomes := nodeOutcomes flow.nodes
  let nodes := accepted nodeOutcomes
  let connectionOutcomes := connectionOutcomes nodes [] flow.connections
  { nodes := nodes
    edges := accepted connectionOutcomes
    rejections := refused nodeOutcomes ++ refused connectionOutcomes }

end TestFlow.Graph
