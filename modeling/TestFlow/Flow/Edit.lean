import TestFlow.Flow.Basic

/-!
# Edits of a flow

While a flow is drawn, components and connections are added at the end of their lists, taken away by
id and put in the opposite order.

Drawing is no part of compiling.  No other function of the library uses the edits and no result is
about them; they are here for whoever replays a session of the editor and compiles the flow in
between.

Reference: specification, §1 (the canvas is out of scope; it meets the compiler in the flow alone).
-/

namespace TestFlow

/-- One change to a flow. -/
inductive Edit where
  /-- Adds a component behind all others. -/
  | addNode (node : NodeRecord)
  /-- Adds a connection behind all others. -/
  | addConnection (connection : ConnectionRecord)
  /-- Takes away every component with the id. -/
  | removeNode (id : String)
  /-- Takes away every connection with the id. -/
  | removeConnection (id : String)
  /-- Puts the components in the opposite order. -/
  | reverseNodes
  /-- Puts the connections in the opposite order. -/
  | reverseConnections

def Flow.edit (flow : Flow) : Edit → Flow
  | .addNode node => { flow with nodes := flow.nodes ++ [node] }
  | .addConnection connection =>
    { flow with connections := flow.connections ++ [connection] }
  | .removeNode id => { flow with nodes := flow.nodes.filter fun node => node.id != id }
  | .removeConnection id =>
    { flow with connections := flow.connections.filter fun connection => connection.id != id }
  | .reverseNodes => { flow with nodes := flow.nodes.reverse }
  | .reverseConnections => { flow with connections := flow.connections.reverse }

end TestFlow
