import TestFlow.Json.Basic
import TestFlow.Json.Reader.Record

/-!
# Flows

A flow is drawn in an editor as components joined by connections, and arrives as a JSON text.

Reference: specification, §3 (node, connection) and §6 (input).

## Main definitions

* `NodeRecord`, `ConnectionRecord`, `Flow` — a flow as it was drawn;
* `Flow.parse` — a flow read from its text.
-/

namespace TestFlow

/-!
## Records

Nothing in a record has been checked yet: ids may be blank or repeated, types unknown, and
connections may lead nowhere.
-/

/-- A component as it was drawn: its id, the name of its type and a payload of any shape. -/
structure NodeRecord where
  id : String
  typeName : String
  data : Json

/-- A connection as it was drawn, from the node that comes first to the node that depends on it.
It may name the output it starts from and the input it leads to. -/
structure ConnectionRecord where
  id : String
  source : String
  target : String
  output : Option String
  input : Option String

/-- The components and connections of a drawing, each in the order they were listed. -/
structure Flow where
  nodes : List NodeRecord
  connections : List ConnectionRecord

def Flow.empty : Flow where
  nodes := []
  connections := []

/-!
## Flows read from a text

A flow is a record of two lists.  Both may be left out, and the list of connections may be null.  A
node needs an id and a type; its payload is null if left out.  A connection needs the ids of the two
nodes it joins; its own id is empty if left out, and its output and input may be null.
-/

open Json (Reader depthLimit)
open Json.Reader

/-- The fields of a node.  A payload has three brackets around it. -/
def NodeRecord.layout (fuel : Nat) : Layout NodeRecord where
  name := "NodeRecord"
  empty := ⟨"", "", .null⟩
  fields := [
    .of "id" true text fun s node => { node with id := s },
    .of "type" true text fun s node => { node with typeName := s },
    .of "data" false (value fuel (depthLimit - 3)) fun v node => { node with data := v }]

def ConnectionRecord.layout : Layout ConnectionRecord where
  name := "ConnectionRecord"
  empty := ⟨"", "", "", none, none⟩
  fields := [
    .of "id" false text fun s connection => { connection with id := s },
    .of "fromNodeId" true text fun s connection => { connection with source := s },
    .of "toNodeId" true text fun s connection => { connection with target := s },
    .of "fromOutput" false (optional text) fun s connection => { connection with output := s },
    .of "toInput" false (optional text) fun s connection => { connection with input := s }]

def Flow.layout (fuel : Nat) : Layout Flow where
  name := "FlowInput"
  empty := .empty
  fields := [
    .of "nodes" false (sequence fuel (record fuel (NodeRecord.layout fuel))) fun nodes flow =>
      { flow with nodes := nodes },
    .of "connections" false (optional (sequence fuel (record fuel ConnectionRecord.layout)))
      fun connections flow => { flow with connections := connections.getD [] }]

/-- Reads a flow from its JSON text. -/
def Flow.parse (s : String) : Except Json.ReadError Flow :=
  Json.Reader.run (fun fuel => record fuel (Flow.layout fuel)) s

end TestFlow
