import TestFlow.Compile

/-!
# The trace of a compilation

A compilation can be watched through the events it gives rise to.  They come in the order of the
work: the nodes and then the connections of the flow as the graph is built, the order of the nodes,
each node as its steps are made, and the document as a whole.  A text that cannot be read gives rise
to none.

Reference: specification, §10.2 (logging).

## Main definitions

* `Event` — what can happen, with the level, target, message and fields it is logged with;
* `Flow.events` — the events of compiling a flow;
* `traceText` — the events of compiling the flow in a text.
-/

namespace TestFlow

/-- How much an event matters. -/
inductive Level where
  | warn
  | debug
  | trace
  deriving DecidableEq, Repr

def Level.name : Level → String
  | .warn => "WARN"
  | .debug => "DEBUG"
  | .trace => "TRACE"

/-- What can happen while a flow is compiled. -/
inductive Event where
  /-- A node was not accepted. -/
  | droppedNode (id typeName code : String)
  /-- The payload of an accepted node could not be decoded. -/
  | malformedPayload (id error : String)
  /-- A connection was not accepted. -/
  | droppedConnection (id code : String)
  /-- The connections go in a circle of so many nodes. -/
  | foundCycle (id : String) (length : Nat)
  /-- The nodes were put in order. -/
  | resolvedOrder (nodes edges : Nat)
  /-- There will be no document. -/
  | aborted (error : String)
  /-- A node asked for a comparison that is not known. -/
  | unrecognizedOperator (id operator : String)
  /-- A node contributed so many steps. -/
  | emittedNode (id typeName : String) (steps : Nat)
  /-- The document is complete. -/
  | compiled (nodes steps diagnostics : Nat)
  deriving DecidableEq, Repr

namespace Event

def level : Event → Level
  | .droppedNode _ _ _ => .warn
  | .droppedConnection _ _ => .warn
  | .emittedNode _ _ _ => .trace
  | _ => .debug

/-- The part of the work that an event is logged under. -/
def target : Event → String
  | .droppedNode _ _ _ => "flow_compiler::parse"
  | .malformedPayload _ _ => "flow_compiler::parse"
  | .droppedConnection _ _ => "flow_compiler::parse"
  | .foundCycle _ _ => "flow_compiler::resolve"
  | .resolvedOrder _ _ => "flow_compiler::resolve"
  | .unrecognizedOperator _ _ => "flow_compiler::emit"
  | .emittedNode _ _ _ => "flow_compiler::emit"
  | .aborted _ => "flow_compiler::compile"
  | .compiled _ _ _ => "flow_compiler::compile"

def message : Event → String
  | .droppedNode _ _ _ => "Dropping node"
  | .malformedPayload _ _ => "Node payload does not match its kind"
  | .droppedConnection _ _ => "Dropping connection"
  | .foundCycle _ _ => "Dependency cycle detected"
  | .resolvedOrder _ _ => "Resolved emission order"
  | .aborted _ => "Compile aborted"
  | .unrecognizedOperator _ _ => "Unrecognized operator, using equals"
  | .emittedNode _ _ _ => "Emitted node"
  | .compiled _ _ _ => "Compiled flow"

def fields : Event → List (String × String)
  | .droppedNode id typeName code => [("node_id", id), ("node_type", typeName), ("code", code)]
  | .malformedPayload id error => [("node_id", id), ("error", error)]
  | .droppedConnection id code => [("connection_id", id), ("code", code)]
  | .foundCycle id length => [("node_id", id), ("cycle_len", length.repr)]
  | .resolvedOrder nodes edges => [("node_count", nodes.repr), ("edge_count", edges.repr)]
  | .aborted error => [("error", error)]
  | .unrecognizedOperator id operator => [("node_id", id), ("operator", operator)]
  | .emittedNode id typeName steps =>
    [("node_id", id), ("node_type", typeName), ("emitted", steps.repr)]
  | .compiled nodes steps diagnostics =>
    [("node_count", nodes.repr), ("step_count", steps.repr),
      ("diagnostic_count", diagnostics.repr)]

end Event

/-- The event of accepting or rejecting a node, if there is one. -/
def NodeRecord.event? (record : NodeRecord) : Except Rejection Node → Option Event
  | .error rejection => some (.droppedNode record.id record.typeName rejection.code)
  | .ok node =>
    match node.payload with
    | .ok _ => none
    | .error e => some (.malformedPayload node.id e.message)

/-- The event of accepting or rejecting a connection, if there is one. -/
def ConnectionRecord.event? (record : ConnectionRecord) : Except Rejection Edge → Option Event
  | .error rejection => some (.droppedConnection record.id rejection.code)
  | .ok _ => none

/-- The events of building the graph of a flow. -/
def Flow.buildEvents (flow : Flow) : List Event :=
  let outcomes := Graph.nodeOutcomes flow.nodes
  (List.zipWith NodeRecord.event? flow.nodes outcomes).filterMap id ++
    (List.zipWith ConnectionRecord.event? flow.connections
      (Graph.connectionOutcomes (accepted outcomes) [] flow.connections)).filterMap id

def Node.events (node : Node) : List Event :=
  let operator := match node.payload with
    | .ok component => component.unrecognized?
    | .error _ => none
  (operator.map fun name => Event.unrecognizedOperator node.id name).toList ++
    [.emittedNode node.id node.kind.typeName node.steps.length]

def Graph.compileEvents (graph : Graph) : List Event :=
  match graph.order with
  | .error failure =>
    -- the first node of a circle is listed twice
    [.foundCycle (failure.node.getD "") (failure.cycle.length - 1), .aborted failure.display]
  | .ok order =>
    let document := Document.ofSteps (graph.steps order)
    [.resolvedOrder order.length graph.edges.length] ++ order.flatMap Node.events ++
      [.compiled graph.nodes.length document.steps.length document.diagnosticCount]

def Flow.events (flow : Flow) : List Event :=
  flow.buildEvents ++ (Graph.build flow).compileEvents

def traceText (s : String) : List Event :=
  match Flow.read s with
  | .ok flow => flow.events
  | .error _ => []

end TestFlow
