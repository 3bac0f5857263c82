import TestFlow.Proofs.Compile.Blocks
import TestFlow.Proofs.Firsts
import TestFlow.Proofs.Graph.Outcomes

/-!
# Connections that say nothing new

A connection may be drawn twice.  The second one is accepted like the first, as an edge of its own,
and the edges behind it move up by one.  Still it changes nothing in the document, and neither in
the circle that is shown if there is no document.

The reason is that a source which comes several times among the sources of a node counts where it
comes first.  The connection that is there already has its edge before the new one, so the new edge
repeats a source that was met before (`eraseDups_append_cons_of_mem`).  All else that a compilation
looks at is the same: the nodes, and the rejections, since the id of the new connection is not used
by any other one.

Reference: specification, §3 (dependencies are de-duplicated, in connection order) and §4.2
(dependency resolver).

## Main definitions

* `Flow.AcceptsConnection` — the connection at a place in a flow is accepted;
* `Flow.connectAt` — a flow with one more connection.

## Main statement

* `redundant_connection_changes_nothing` — a flow with a connection more that was there before
  compiles to the same document, or fails in the same way.
-/

namespace TestFlow

namespace Graph

variable {graph other : Graph}

/-- A compilation looks at the nodes, what they depend on, and the rejections. -/
theorem compile_congr (hnodes : graph.nodes = other.nodes)
    (hdeps : Dependencies.ofGraph graph = Dependencies.ofGraph other)
    (hrejections : graph.rejections = other.rejections) : graph.compile = other.compile := by
  have hidAt : graph.idAt = other.idAt := by
    funext position
    rw [idAt, idAt, hnodes]
  have horder : graph.order = other.order := by
    rw [Graph.order, Graph.order, hdeps, hidAt, hnodes]
  have hsteps : graph.steps = other.steps := by
    funext order
    rw [Graph.steps, Graph.steps, hrejections]
  rw [Graph.compile, Graph.compile, horder, hsteps]

/-- An edge behind another one with the same ends gives no position more to depend on. -/
theorem eraseDups_sourcesOf_insert {front back : List Edge} {first again : Edge}
    (hedges : graph.edges = front ++ back) (hother : other.edges = front ++ again :: back)
    (hfirst : first ∈ front) (hsource : again.source = first.source)
    (htarget : again.target = first.target) (position : Nat) :
    (other.sourcesOf position).eraseDups = (graph.sourcesOf position).eraseDups := by
  rw [sourcesOf, sourcesOf, hedges, hother, List.filter_append, List.filter_append,
    List.filter_cons, List.map_append, List.map_append]
  by_cases hinto : again.target = position
  -- The edge leads to the position: its source was met before, at the first edge.
  · have hmet : again.source ∈
        (front.filter fun edge => edge.target == position).map Edge.source := by
      rw [hsource]
      apply List.mem_map_of_mem
      simp [List.mem_filter, hfirst, ← htarget, hinto]
    rw [if_pos (by simpa using hinto), List.map_cons]
    exact eraseDups_append_cons_of_mem hmet _
  · rw [if_neg (by simpa using hinto)]

/-- An edge behind another one with the same ends leaves the dependencies as they are. -/
theorem ofGraph_insert {front back : List Edge} {first again : Edge}
    (hnodes : other.nodes = graph.nodes) (hedges : graph.edges = front ++ back)
    (hother : other.edges = front ++ again :: back) (hfirst : first ∈ front)
    (hsource : again.source = first.source) (htarget : again.target = first.target) :
    Dependencies.ofGraph other = Dependencies.ofGraph graph := by
  rw [Dependencies.ofGraph, Dependencies.ofGraph, hnodes]
  simp only [eraseDups_sourcesOf_insert hedges hother hfirst hsource htarget]

end Graph

namespace Flow

/-- The connection at a place in a flow is accepted. -/
def AcceptsConnection (flow : Flow) (i : Nat) (record : ConnectionRecord) : Prop :=
  flow.connections[i]? = some record ∧ ∃ edge,
    (Graph.connectionOutcomes (Graph.build flow).nodes [] flow.connections)[i]? = some (.ok edge)

/-- A flow with one more connection, behind the first `k` of those that it had. -/
def connectAt (flow : Flow) (k : Nat) (extra : ConnectionRecord) : Flow :=
  { flow with connections := flow.connections.take k ++ extra :: flow.connections.drop k }

/-- The ids of the first `k` connections of a flow, the last of which comes first. -/
def idsBefore (flow : Flow) (k : Nat) : List String :=
  ((flow.connections.take k).map ConnectionRecord.id).reverse

/-- The ids before a place are those of connections of the flow. -/
theorem mem_idsBefore {flow : Flow} {k : Nat} {id : String} (h : id ∈ flow.idsBefore k) :
    ∃ record ∈ flow.connections, record.id = id := by
  obtain ⟨record, hrecord, hid⟩ := List.mem_map.mp (List.mem_reverse.mp h)
  exact ⟨record, List.mem_of_mem_take hrecord, hid⟩

/-- The outcomes of the connections of a flow, parted at the place of a new one. -/
theorem connectionOutcomes_take_drop (flow : Flow) (nodes : List Node) (k : Nat) :
    Graph.connectionOutcomes nodes [] flow.connections =
      Graph.connectionOutcomes nodes [] (flow.connections.take k) ++
        Graph.connectionOutcomes nodes (flow.idsBefore k) (flow.connections.drop k) := by
  have happend := Graph.connectionOutcomes_append nodes (flow.connections.take k)
    (flow.connections.drop k) []
  rwa [List.take_append_drop, List.append_nil] at happend

/-- A new connection whose id is its own leaves the outcomes of all others as they are. -/
theorem connectionOutcomes_connectAt {flow : Flow} {extra : ConnectionRecord}
    (hid : Text.isBlank extra.id = true ∨ ∀ record ∈ flow.connections, record.id ≠ extra.id)
    (nodes : List Node) (k : Nat) :
    Graph.connectionOutcomes nodes [] (flow.connectAt k extra).connections =
      Graph.connectionOutcomes nodes [] (flow.connections.take k) ++
        Graph.acceptConnection nodes (flow.idsBefore k) extra ::
          Graph.connectionOutcomes nodes (flow.idsBefore k) (flow.connections.drop k) := by
  have hbehind : ∀ later ∈ flow.connections.drop k, Text.isBlank later.id = true ∨
      (later.id ∈ extra.id :: flow.idsBefore k ↔ later.id ∈ flow.idsBefore k) := by
    intro later hlater
    by_cases hsame : later.id = extra.id
    · -- a connection that has the id of the new one has a blank id
      rcases hid with hblank | hown
      · exact Or.inl (hsame ▸ hblank)
      · exact absurd hsame (hown later (List.mem_of_mem_drop hlater))
    · exact Or.inr (by simp [hsame])
  rw [connectAt, Graph.connectionOutcomes_append, Graph.connectionOutcomes, List.append_nil,
    ← idsBefore, Graph.connectionOutcomes_congr hbehind]

/-- A connection that is accepted somewhere is accepted again under an id of its own, between the
same two nodes. -/
theorem acceptConnection_extra {flow : Flow} {i k : Nat} {original extra : ConnectionRecord}
    (haccepted : flow.AcceptsConnection i original) (hlater : i < k)
    (hsource : extra.source = original.source) (htarget : extra.target = original.target)
    (hid : Text.isBlank extra.id = true ∨ ∀ record ∈ flow.connections, record.id ≠ extra.id) :
    ∃ first again : Edge,
      first ∈ accepted (Graph.connectionOutcomes (Graph.build flow).nodes []
        (flow.connections.take k)) ∧
      Graph.acceptConnection (Graph.build flow).nodes (flow.idsBefore k) extra = .ok again ∧
      again.source = first.source ∧ again.target = first.target := by
  obtain ⟨horiginal, first, hfirst⟩ := haccepted
  have hcheck := hfirst
  rw [Graph.getElem?_connectionOutcomes, horiginal, Option.map_some, Option.some.injEq,
    Graph.acceptConnection_eq_ok_iff] at hcheck
  obtain ⟨-, hfrom, hto, hne, -⟩ := hcheck
  have hunused : Text.isBlank extra.id = true ∨ extra.id ∉ flow.idsBefore k := by
    refine hid.imp_right fun hown hmem => ?_
    obtain ⟨record, hrecord, hsame⟩ := mem_idsBefore hmem
    exact hown record hrecord hsame
  refine ⟨first, ⟨extra.id, first.source, first.target, extra.output, extra.input⟩, ?_, ?_, rfl,
    rfl⟩
  · have hshort : i < (Graph.connectionOutcomes (Graph.build flow).nodes []
        (flow.connections.take k)).length := by
      -- The original stands before the place of the new one, so its edge is among those in front.
      have hi := (List.getElem?_eq_some_iff.mp horiginal).1
      rw [Graph.length_connectionOutcomes, List.length_take]
      omega
    rw [connectionOutcomes_take_drop flow _ k, List.getElem?_append_left hshort] at hfirst
    exact mem_accepted.mpr (List.mem_of_getElem? hfirst)
  · exact Graph.acceptConnection_eq_ok_iff.mpr
      ⟨hunused, hsource ▸ hfrom, htarget ▸ hto, hne, rfl, rfl, rfl⟩

end Flow

/-- Where a connection is accepted, one more between the same two nodes, anywhere behind it and
under an id that is blank or its own, becomes an edge of the graph and changes nothing that is
compiled: the document is the same, or the failure is. -/
theorem redundant_connection_changes_nothing {flow : Flow} {i k : Nat}
    {original extra : ConnectionRecord} (haccepted : flow.AcceptsConnection i original)
    (hlater : i < k) (hsource : extra.source = original.source)
    (htarget : extra.target = original.target)
    (hid : Text.isBlank extra.id = true ∨ ∀ record ∈ flow.connections, record.id ≠ extra.id) :
    (flow.connectAt k extra).compile = flow.compile ∧
      (Graph.build (flow.connectAt k extra)).edges.length =
        (Graph.build flow).edges.length + 1 := by
  obtain ⟨first, again, hfirst, hagain, hfrom, hto⟩ :=
    Flow.acceptConnection_extra haccepted hlater hsource htarget hid
  have hnodes : (Graph.build (flow.connectAt k extra)).nodes = (Graph.build flow).nodes := rfl
  have houtcomes := Flow.connectionOutcomes_take_drop flow (Graph.build flow).nodes k
  have houtcomes' := Flow.connectionOutcomes_connectAt hid (Graph.build flow).nodes k
  rw [hagain] at houtcomes'
  -- The new outcome stands between the two halves of the old ones.  Being accepted, it is one edge
  -- more and no rejection.
  have hedges := congrArg accepted houtcomes
  have hedges' := congrArg accepted houtcomes'
  rw [accepted_append] at hedges hedges'
  rw [accepted_ok_cons] at hedges'
  have hrejections :
      (Graph.build (flow.connectAt k extra)).rejections = (Graph.build flow).rejections := by
    have hrefused := congrArg refused houtcomes'
    rw [refused_append, refused_ok_cons, ← refused_append, ← houtcomes] at hrefused
    exact congrArg (refused (Graph.nodeOutcomes flow.nodes) ++ ·) hrefused
  constructor
  · exact Graph.compile_congr hnodes
      (Graph.ofGraph_insert hnodes hedges hedges' hfirst hfrom hto) hrejections
  · have hlength := congrArg List.length hedges
    have hlength' := congrArg List.length hedges'
    rw [List.length_append] at hlength hlength'
    rw [List.length_cons] at hlength'
    exact hlength'.trans (congrArg (· + 1) hlength.symm)

/-- In a diamond, a second connection along one of its sides, put between those of the other ends.
-/
theorem diamond_redundant_connection :
    diamond.AcceptsConnection 1 ⟨"", "a", "c", none, none⟩ ∧
      (diamond.connectAt 3 ⟨"x", "a", "c", some "out", none⟩).compile = diamond.compile ∧
      (Graph.build (diamond.connectAt 3 ⟨"x", "a", "c", some "out", none⟩)).edges.length =
        (Graph.build diamond).edges.length + 1 := by
  have haccepted : diamond.AcceptsConnection 1 ⟨"", "a", "c", none, none⟩ :=
    ⟨rfl, ⟨"", 3, 2, none, none⟩, by cbv⟩
  have hown : ∀ record ∈ diamond.connections, record.id ≠ "x" := by
    simp [diamond, messageFlow]
  exact ⟨haccepted, redundant_connection_changes_nothing haccepted (by decide) rfl rfl
    (Or.inr hown)⟩

end TestFlow
