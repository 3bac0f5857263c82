import TestFlow.Proofs.Order.Emission

/-!
# When compiling fails

A flow fails to compile for one reason only: its accepted connections lead from some node back to
it.  A text fails to compile if it cannot be read, or if the flow that it holds fails.

Nothing else reaches the failure.  The search is run on the dependencies of the graph, and these are
made from the ends of its edges; the ids that a failure shows are those of its nodes.  So two graphs
with the same ids and the same ends fail alike (`Graph.compile_error_congr`), whatever the payloads
of their nodes are and whatever was rejected before.

Reference: specification, §7 (fatal errors).

## Main statement

* `compile_fails_iff_cyclic` — which flows and which texts fail to compile, and with what failure.
-/

namespace TestFlow

/-- The positions that an edge joins. -/
def Edge.ends (edge : Edge) : Nat × Nat :=
  (edge.source, edge.target)

namespace Graph

variable {graph other : Graph}

/-! ## What a failure depends on -/

/-- The sources of the edges into a position are told by the ends of the edges. -/
theorem sourcesOf_eq_ends (graph : Graph) (position : Nat) :
    graph.sourcesOf position =
      ((graph.edges.map Edge.ends).filter fun ends => ends.2 == position).map Prod.fst := by
  rw [List.filter_map, List.map_map]
  rfl

/-- The id at a position is told by the ids. -/
theorem idAt_eq_ids (graph : Graph) (position : Nat) :
    graph.idAt position = graph.ids[position]?.getD "" := by
  rw [idAt, ids, List.getElem?_map]

theorem idAt_congr (hids : graph.ids = other.ids) : graph.idAt = other.idAt := by
  funext position
  rw [idAt_eq_ids, idAt_eq_ids, hids]

/-- The dependencies of a graph are told by the number of its nodes and the ends of its edges. -/
theorem ofGraph_congr (hids : graph.ids = other.ids)
    (hends : graph.edges.map Edge.ends = other.edges.map Edge.ends) :
    Dependencies.ofGraph graph = Dependencies.ofGraph other := by
  have hlength : graph.nodes.length = other.nodes.length := by
    simpa [ids] using congrArg List.length hids
  have hsources : graph.sourcesOf = other.sourcesOf := by
    funext position
    rw [sourcesOf_eq_ends, sourcesOf_eq_ends, hends]
  rw [Dependencies.ofGraph, Dependencies.ofGraph, hlength, hsources]

/-- A graph fails to compile exactly if its nodes have no order, and with the same failure. -/
theorem compile_eq_error_iff {failure : Failure} :
    graph.compile = .error failure ↔ graph.order = .error failure := by
  -- Once there is an order, nothing can fail any more.
  unfold Graph.compile
  cases graph.order with
  | error failure' =>
      constructor
      · rintro ⟨⟩
        rfl
      · rintro ⟨⟩
        rfl
  | ok order => exact iff_of_false (by rintro ⟨⟩) (by rintro ⟨⟩)

/-- Graphs with the same ids and the same ends of edges fail alike. -/
theorem compile_error_congr (hids : graph.ids = other.ids)
    (hends : graph.edges.map Edge.ends = other.edges.map Edge.ends) (failure : Failure) :
    graph.compile = .error failure ↔ other.compile = .error failure := by
  rw [compile_eq_error_iff, compile_eq_error_iff, Graph.order, Graph.order,
    ofGraph_congr hids hends, idAt_congr hids]
  cases (Dependencies.ofGraph other).order with
  | error path => exact Iff.rfl
  | ok positions => exact iff_of_false (by rintro ⟨⟩) (by rintro ⟨⟩)

end Graph

/-! ## Flows -/

/-- A flow fails to compile exactly if its accepted connections lead from some node back to it. -/
theorem Flow.compile_error_iff_cyclic (flow : Flow) :
    (∃ failure, flow.compile = .error failure) ↔ (Graph.build flow).Cyclic := by
  rw [← (Graph.build_wellFormed flow).order_error_iff_cyclic]
  exact exists_congr fun failure => Graph.compile_eq_error_iff

/-- The failure of a flow is that of a circle. -/
theorem Flow.exists_ofCycle_of_compile {flow : Flow} {failure : Failure}
    (h : flow.compile = .error failure) : ∃ path, failure = .ofCycle path := by
  obtain ⟨path, -, rfl⟩ := Graph.order_eq_error (Graph.compile_eq_error_iff.mp h)
  exact ⟨_, rfl⟩

/-! ## Texts -/

/-- A text that cannot be read fails with the reader's message. -/
theorem compileText_of_parse_error {s : String} {e : Json.ReadError}
    (h : Flow.parse s = .error e) :
    compileText s =
      .error (.ofParse Failure.parseCode ("Failed to parse flow JSON: " ++ e.message)) := by
  have hread : Flow.read s =
      .error (.ofParse Failure.parseCode ("Failed to parse flow JSON: " ++ e.message)) := by
    rw [Flow.read, h]
    rfl
  rw [compileText, hread]
  rfl

/-- A text that can be read compiles as its flow does. -/
theorem compileText_of_parse_ok {s : String} {flow : Flow} (h : Flow.parse s = .ok flow) :
    compileText s = flow.compile.map Document.render := by
  have hread : Flow.read s = .ok flow := by
    rw [Flow.read, h]
    rfl
  rw [compileText, hread]
  cases hcompile : flow.compile with
  | error failure =>
      -- Reading has been done; compiling comes next and ends the work here.
      show flow.compile.bind _ = _
      rw [hcompile]
      rfl
  | ok document =>
      show flow.compile.bind _ = _
      rw [hcompile]
      rfl

/-- A text fails to compile exactly if it cannot be read or its flow fails to compile. -/
theorem compileText_error_iff (s : String) :
    (∃ failure, compileText s = .error failure) ↔
      (∃ e, Flow.parse s = .error e) ∨
        ∃ flow, Flow.parse s = .ok flow ∧ ∃ failure, flow.compile = .error failure := by
  cases hparse : Flow.parse s with
  | error e =>
      rw [compileText_of_parse_error hparse]
      exact iff_of_true ⟨_, rfl⟩ (Or.inl ⟨e, rfl⟩)
  | ok flow =>
      rw [compileText_of_parse_ok hparse]
      cases hcompile : flow.compile with
      | error failure => exact iff_of_true ⟨failure, rfl⟩ (Or.inr ⟨flow, rfl, failure, hcompile⟩)
      | ok document =>
          refine iff_of_false (by rintro ⟨failure, ⟨⟩⟩) ?_
          rintro (⟨e, ⟨⟩⟩ | ⟨_, ⟨⟩, failure, hfailure⟩)
          rw [hcompile] at hfailure
          cases hfailure

/-! ## Main statement -/

/-- A flow fails to compile exactly if its accepted connections have a circle, and then with the
failure of a circle.  A text fails exactly if it cannot be read, and then with the failure of a text
that cannot be read, or if the accepted connections of its flow have a circle; otherwise it gives
the text of the document.  Payloads and rejected records have no part in this. -/
theorem compile_fails_iff_cyclic (flow : Flow) (s : String) :
    ((∃ failure, flow.compile = .error failure) ↔ (Graph.build flow).Cyclic) ∧
      (∀ failure, flow.compile = .error failure →
        failure.code = "R001" ∧ failure.phase = .resolve ∧ failure.isCycle = true) ∧
      ((∃ failure, compileText s = .error failure) ↔
        (∃ e, Flow.parse s = .error e) ∨
          ∃ parsed, Flow.parse s = .ok parsed ∧ (Graph.build parsed).Cyclic) ∧
      (∀ e, Flow.parse s = .error e → ∃ failure, compileText s = .error failure ∧
        failure.code = "P001" ∧ failure.phase = .parse) ∧
      (∀ parsed, Flow.parse s = .ok parsed →
        compileText s = parsed.compile.map Document.render) ∧
      ∀ graph : Graph, graph.ids = (Graph.build flow).ids →
        graph.edges.map Edge.ends = (Graph.build flow).edges.map Edge.ends →
        ∀ failure, graph.compile = .error failure ↔ flow.compile = .error failure := by
  refine ⟨flow.compile_error_iff_cyclic, ?_, ?_, ?_, ?_, ?_⟩
  · intro failure h
    obtain ⟨path, rfl⟩ := Flow.exists_ofCycle_of_compile h
    exact ⟨rfl, rfl, rfl⟩
  · rw [compileText_error_iff]
    simp only [Flow.compile_error_iff_cyclic]
  · intro e h
    exact ⟨_, compileText_of_parse_error h, rfl, rfl⟩
  · intro parsed h
    exact compileText_of_parse_ok h
  · intro graph hids hends failure
    exact Graph.compile_error_congr hids hends failure

end TestFlow
