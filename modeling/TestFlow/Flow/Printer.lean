import TestFlow.Flow.Basic
import TestFlow.Json.Basic

/-!
# Flows as JSON

A flow is written with all of its fields, in the order in which they are declared, and null for an
output or input that is not named.

Reference: specification, §3 (the fields of nodes and connections) and §6 (input).
-/

namespace TestFlow

/-- The name of an output or input, or null. -/
def terminalJson : Option String → Json
  | none => .null
  | some name => .string name

/-- A node with all of its fields. -/
def NodeRecord.toJson (node : NodeRecord) : Json :=
  .object [("id", .string node.id), ("type", .string node.typeName), ("data", node.data)]

/-- A connection with all of its fields. -/
def ConnectionRecord.toJson (connection : ConnectionRecord) : Json :=
  .object [
    ("id", .string connection.id),
    ("fromNodeId", .string connection.source),
    ("toNodeId", .string connection.target),
    ("fromOutput", terminalJson connection.output),
    ("toInput", terminalJson connection.input)]

/-- A flow with both of its lists. -/
def Flow.toJson (flow : Flow) : Json :=
  .object [
    ("nodes", .array (flow.nodes.map NodeRecord.toJson)),
    ("connections", .array (flow.connections.map ConnectionRecord.toJson))]

def Flow.compact (flow : Flow) : String :=
  flow.toJson.compact

end TestFlow
