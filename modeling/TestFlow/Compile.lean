import TestFlow.Flow.Basic
import TestFlow.Graph
import TestFlow.Order
import TestFlow.Script

/-!
# Compiling a flow

A flow compiles to a document, or fails.

Reference: specification, §4.1 (compile operation) and §7 (fatal errors).

## Main definitions

* `Failure` — why a flow was not compiled;
* `Graph.order` — the nodes in the order of their steps;
* `Graph.compile`, `Flow.compile` — the document of a graph or flow;
* `compileText` — from the text of a flow to the text of its document.
-/

namespace TestFlow

/-!
## Failures

Only two things keep a flow from being compiled: its text cannot be read, or its connections go in a
circle.  Everything else is reported inside the document.
-/

/-- The part of the work in which a failure arises. -/
inductive Phase where
  | parse
  | resolve
  deriving DecidableEq, Repr

def Phase.name : Phase → String
  | .parse => "Parse"
  | .resolve => "Resolve"

/-- Why a flow was not compiled.  For a circle of connections, `cycle` has the ids of its nodes and
ends with the first of them, which is the `node` as well. -/
structure Failure where
  code : String
  phase : Phase
  message : String
  node : Option String
  cycle : List String
  deriving DecidableEq, Repr

namespace Failure

/-- The code of a text that cannot be read. -/
def parseCode : String := "P001"

/-- The code of a circle of connections. -/
def cycleCode : String := "R001"

def ofParse (code message : String) : Failure where
  code := code
  phase := .parse
  message := message
  node := none
  cycle := []

def ofCycle (path : List String) : Failure where
  code := cycleCode
  phase := .resolve
  message := "Dependency cycle detected: " ++ " -> ".intercalate path
  node := path.head?
  cycle := path

def isCycle (failure : Failure) : Bool :=
  failure.phase == .resolve && failure.code == cycleCode

/-- The whole text of a failure. -/
def display (failure : Failure) : String :=
  "[" ++ failure.phase.name ++ ":" ++ failure.code ++ "] " ++ failure.message ++
    match failure.node with
    | some id => " (node '" ++ id ++ "')"
    | none => ""

end Failure

/-!
## Compiling a flow

A flow compiles to a document.  The nodes and connections that were not accepted are reported first,
and then each accepted node contributes its steps, in an order in which it comes after all that it
depends on.
-/

/-- The accepted nodes in the order of their steps. -/
def Graph.order (graph : Graph) : Except Failure (List Node) :=
  match (Dependencies.ofGraph graph).order with
  | .ok positions => .ok (positions.filterMap fun position => graph.nodes[position]?)
  | .error circle => .error (.ofCycle (circle.map graph.idAt))

/-- The steps of a graph whose nodes come in the given order. -/
def Graph.steps (graph : Graph) (order : List Node) : List Step :=
  graph.rejections.map Rejection.step ++ order.flatMap Node.steps

def Graph.compile (graph : Graph) : Except Failure Document :=
  graph.order.map fun order => .ofSteps (graph.steps order)

def Flow.compile (flow : Flow) : Except Failure Document :=
  (Graph.build flow).compile

def Flow.read (s : String) : Except Failure Flow :=
  (Flow.parse s).mapError fun e =>
    .ofParse Failure.parseCode ("Failed to parse flow JSON: " ++ e.message)

/-- The text of the document of the flow in a text. -/
def compileText (s : String) : Except Failure String := do
  let flow ← Flow.read s
  let document ← flow.compile
  .ok document.render

end TestFlow
