import TestFlow.Proofs.Component.Emit
import TestFlow.Proofs.Graph.Account
import TestFlow.Proofs.Order.Emission
import Mathlib.Algebra.Ring.Nat

/-!
# A document is made of blocks

A compilation can hand on the steps made so far, from the rejections to the first node and from each
node to the next in the order.  What comes out is a block for each: the rejections, as they were
found, and then the nodes one by one, each with the steps that it makes when nothing was made
before.

Nothing of the flow but its own record bears on the block of a node.  A flow with that record alone
compiles to the block and nothing else, since no other node can take the id and no connection is
needed.  So the number of steps is told by the rejections and by the nodes, each taken by itself.

Reference: specification, §2 (control flow, one append-only value handed on from node to node) and
§8 (step count).

## Main definitions

* `Node.block` — the steps that a node makes when nothing was made before;
* `Graph.emit` — compiling by handing on the steps made so far;
* `Flow.alone` — the flow of a single record;
* `Flow.MadeOfBlocks` — what the steps of a document have to do with the nodes of its flow.

## Main statement

* `compile_makes_blocks` — the document of a flow is made of blocks.
-/

namespace TestFlow

/-- The steps that a node makes when nothing was made before. -/
def Node.block (node : Node) : List Step :=
  node.emit Step.say []

/-- The block of a node is made of its steps. -/
theorem Node.block_eq_steps (node : Node) : node.block = node.steps := by
  rw [Node.block, node.emit_say, List.nil_append]

/-- A node leaves what was made before in place and puts its block behind. -/
theorem Node.emit_eq_append_block (node : Node) (made : List Step) :
    node.emit Step.say made = made ++ node.block := by
  rw [node.emit_say, node.block_eq_steps]

/-! ## Compiling by handing on -/

namespace Graph

/-- The steps of a graph whose nodes come in the given order, made by handing on the steps made so
far. -/
def emit (graph : Graph) (order : List Node) : List Step :=
  let reported := graph.rejections.foldl (fun made rejection => made ++ [rejection.step]) []
  order.foldl (fun made node => node.emit Step.say made) reported

/-- The nodes leave what was made before in place and put their blocks behind, in their order. -/
theorem foldl_emit (order : List Node) (made : List Step) :
    order.foldl (fun made node => node.emit Step.say made) made =
      made ++ order.flatMap Node.block := by
  -- The first node makes its block behind `made`, and the others theirs behind both.
  induction order generalizing made with
  | nil => simp
  | cons node rest ih =>
      rw [List.foldl_cons, ih, node.emit_eq_append_block, List.flatMap_cons, List.append_assoc]

/-- Handing on gives the rejections and then the blocks of the nodes in their order. -/
theorem emit_eq_blocks (graph : Graph) (order : List Node) :
    graph.emit order = graph.rejections.map Rejection.step ++ order.flatMap Node.block := by
  have hreported : graph.rejections.foldl (fun made rejection => made ++ [rejection.step]) [] =
      graph.rejections.map Rejection.step := by
    rw [List.foldl_append_eq_append, List.nil_append, ← List.flatMap_def, List.map_eq_flatMap]
  rw [emit, foldl_emit, hreported]

/-- Handing on gives the steps of the compilation. -/
theorem emit_eq_steps (graph : Graph) (order : List Node) :
    graph.emit order = graph.steps order := by
  rw [emit_eq_blocks, Graph.steps, funext Node.block_eq_steps]

/-- The length of a document, told by the rejections and the blocks. -/
theorem length_steps (graph : Graph) {order : List Node} (hperm : order.Perm graph.nodes) :
    (graph.steps order).length =
      graph.rejections.length + (graph.nodes.map fun node => node.block.length).sum := by
  have hsum := (hperm.map fun node => node.block.length).sum_nat
  rw [← emit_eq_steps, emit_eq_blocks, List.length_append, List.length_map, List.length_flatMap,
    hsum]

/-- A graph whose nodes have an order compiles. -/
theorem compile_of_order {graph : Graph} {order : List Node} (h : graph.order = .ok order) :
    graph.compile = .ok (.ofSteps (graph.steps order)) := by
  rw [Graph.compile, h]
  rfl

/-- A document comes with the order of its nodes. -/
theorem exists_order_of_compile {graph : Graph} {document : Document}
    (h : graph.compile = .ok document) :
    ∃ order, graph.order = .ok order ∧ document = .ofSteps (graph.steps order) := by
  cases horder : graph.order with
  | error failure =>
      rw [Graph.compile, horder] at h
      cases h
  | ok order =>
      rw [compile_of_order horder] at h
      cases h
      exact ⟨order, rfl, rfl⟩

/-! ## Flows of one record -/

/-- A node with no connections has an order, in which it comes by itself. -/
theorem order_singleton (node : Node) (rejections : List Rejection) :
    (⟨[node], [], rejections⟩ : Graph).order = .ok [node] := by
  have hgraph : (⟨[node], [], rejections⟩ : Graph).WellFormed := by
    constructor
    · exact List.nodup_singleton node.id
    all_goals
      intro edge hedge
      cases hedge
  cases horder : (⟨[node], [], rejections⟩ : Graph).order with
  | error failure =>
      -- a failure shows a circle of connections, and there are none
      obtain ⟨id, hcircle⟩ := hgraph.order_error_iff_cyclic.mp ⟨failure, horder⟩
      obtain ⟨next, ⟨edge, hedge, -⟩, -⟩ := Relation.TransGen.head'_iff.mp hcircle
      cases hedge
  | ok order => rw [List.perm_singleton.mp (hgraph.order_perm horder)]

end Graph

namespace Flow

/-- The flow with a single record and no connections. -/
def alone (record : NodeRecord) : Flow where
  nodes := [record]
  connections := []

/-- The graph of a record that is accepted has its node and nothing else. -/
theorem build_alone {record : NodeRecord} {node : Node}
    (h : Graph.acceptNode [] record = .ok node) :
    Graph.build (alone record) = ⟨[node], [], []⟩ := by
  simp [Graph.build, Graph.nodeOutcomes, Graph.connectionOutcomes, alone, sift, h]

/-- A record that is accepted among others is accepted alone, and compiles to its block. -/
theorem compile_alone {taken : List String} {record : NodeRecord} {node : Node}
    (h : Graph.acceptNode taken record = .ok node) :
    (alone record).compile = .ok (.ofSteps node.block) := by
  have halone : Graph.acceptNode [] record = .ok node := by
    -- Of what is asked of a record, only that its id is not taken looks at other records.
    obtain ⟨hblank, -, hkind⟩ := Graph.acceptNode_eq_ok_iff.mp h
    exact Graph.acceptNode_eq_ok_iff.mpr ⟨hblank, List.not_mem_nil, hkind⟩
  rw [Flow.compile, build_alone halone, Graph.compile_of_order (Graph.order_singleton node [])]
  simp [Graph.steps, node.block_eq_steps]

/-! ## Documents -/

/-- The steps of a document are those that its flow makes by handing them on, and they are the
rejections and then the blocks of the nodes in their order.  The nodes are those of the accepted
records, and each accepted record makes the block of its node alone. -/
structure MadeOfBlocks (flow : Flow) (order : List Node) (document : Document) : Prop where
  order_eq : (Graph.build flow).order = .ok order
  steps_eq_emit : document.steps = (Graph.build flow).emit order
  steps_eq_blocks : document.steps =
    (Graph.build flow).rejections.map Rejection.step ++ order.flatMap Node.block
  exists_record : ∀ node ∈ order, ∃ (i : Nat) (record : NodeRecord),
    flow.nodes[i]? = some record ∧ (Graph.nodeOutcomes flow.nodes)[i]? = some (.ok node)
  alone_eq : ∀ (i : Nat) (record : NodeRecord) (node : Node), flow.nodes[i]? = some record →
    (Graph.nodeOutcomes flow.nodes)[i]? = some (.ok node) →
      node ∈ order ∧ (alone record).compile = .ok (.ofSteps node.block)
  length_eq : document.steps.length = (Graph.build flow).rejections.length +
    ((Graph.build flow).nodes.map fun node => node.block.length).sum

end Flow

/-- A flow that compiles has an order, and its document is made of the blocks of its nodes in that
order.  Nothing that was made before has a part in the block of a node. -/
theorem compile_makes_blocks (flow : Flow) {document : Document} (h : flow.compile = .ok document) :
    (∃ order, flow.MadeOfBlocks order document) ∧
      ∀ (node : Node) (made : List Step),
        node.emit Step.say made = made ++ node.emit Step.say [] := by
  obtain ⟨order, horder, rfl⟩ := Graph.exists_order_of_compile h
  have hperm := (Graph.build_wellFormed flow).order_perm horder
  have hmem : ∀ node, node ∈ order ↔ .ok node ∈ Graph.nodeOutcomes flow.nodes := by
    intro node
    rw [hperm.mem_iff]
    exact mem_accepted
  refine ⟨⟨order, horder, ?_, ?_, ?_, ?_, ?_⟩, Node.emit_eq_append_block⟩
  · exact ((Graph.build flow).emit_eq_steps order).symm
  · exact ((Graph.build flow).emit_eq_steps order).symm.trans (Graph.emit_eq_blocks _ order)
  · intro node hnode
    obtain ⟨i, hi⟩ := List.mem_iff_getElem?.mp ((hmem node).mp hnode)
    obtain ⟨record, hrecord, -⟩ := Graph.exists_record_of_getElem?_nodeOutcomes hi
    exact ⟨i, record, hrecord, hi⟩
  · intro i record node hrecord hi
    refine ⟨(hmem node).mpr (List.mem_of_getElem? hi), ?_⟩
    rw [Graph.getElem?_nodeOutcomes, hrecord, Option.map_some, Option.some.injEq] at hi
    exact Flow.compile_alone hi
  · exact (Graph.build flow).length_steps hperm

/-- Two messages listed the wrong way round, with a node whose id is taken and a connection that
leads nowhere. -/
def untidyMessages : Flow :=
  messageFlow ["b", "a", "b"] [("a", "b"), ("b", "z")]

/-- The two rejections come first, in the order of the records, and the messages behind them in
the order of their connection. -/
theorem untidyMessages_makes_blocks :
    ∃ document, untidyMessages.compile = .ok document ∧
      document.steps = [.diagnostic "b" "Duplicate node id 'b'",
        .diagnostic "" "Connection '' references unknown target node 'z'",
        .instruction .star "print 'a'", .instruction .star "print 'b'"] ∧
      ∃ order, untidyMessages.MadeOfBlocks order document := by
  have horder : (Graph.build untidyMessages).order = .ok (["a", "b"].map fun id =>
      ⟨id, .message, Component.decode .message (.object [("message", .string id)])⟩) := by
    cbv
  have hcompile := Graph.compile_of_order horder
  exact ⟨_, hcompile, by decide +kernel, (compile_makes_blocks untidyMessages hcompile).1⟩

end TestFlow
