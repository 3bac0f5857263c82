import TestFlow.Graph
import TestFlow.Proofs.Sift
import Mathlib.Logic.Relation

/-!
# Well-formed graphs

Whatever records a flow holds, the graph built from them is *well formed*: no two of its nodes have
the same id, and each of its edges joins the positions of two different nodes.  Nothing else about
building is needed to reason about the order of the nodes, so the results on the order are stated
for well-formed graphs and reach flows through `Graph.build_wellFormed`.

Reference: specification, §3 (node, connection).

## Main definitions

* `Graph.WellFormed` — distinct ids, and edges between different nodes of the graph;
* `Graph.Connects` — an accepted connection from the node with one id to the node with another;
* `Graph.Cyclic` — the accepted connections lead from some node back to it.
-/

namespace TestFlow

namespace Graph

/-! ## Connections between accepted nodes -/

/-- The ids of the accepted nodes, in the order they were listed. -/
def ids (graph : Graph) : List String :=
  graph.nodes.map Node.id

/-- There is an accepted connection from the node with one id to the node with another. -/
def Connects (graph : Graph) (source target : String) : Prop :=
  ∃ edge ∈ graph.edges, graph.ids[edge.source]? = some source ∧
    graph.ids[edge.target]? = some target

/-- The accepted connections lead from some node back to it. -/
def Cyclic (graph : Graph) : Prop :=
  ∃ id, Relation.TransGen graph.Connects id id

/-! ## What building guarantees -/

/-- No two nodes have the same id, and each edge joins two different nodes of the graph. -/
structure WellFormed (graph : Graph) : Prop where
  ids_nodup : graph.ids.Nodup
  source_lt : ∀ edge ∈ graph.edges, edge.source < graph.nodes.length
  target_lt : ∀ edge ∈ graph.edges, edge.target < graph.nodes.length
  source_ne_target : ∀ edge ∈ graph.edges, edge.source ≠ edge.target

/-- A node is accepted exactly if its id is not blank and not taken and its type is known. -/
theorem acceptNode_eq_ok_iff {taken : List String} {record : NodeRecord} {node : Node} :
    acceptNode taken record = .ok node ↔
      Text.isBlank record.id = false ∧ record.id ∉ taken ∧
        ∃ kind, Kind.ofTypeName? record.typeName = some kind ∧
          node = ⟨record.id, kind, Component.decode kind record.data⟩ := by
  unfold acceptNode
  by_cases hblank : Text.isBlank record.id = true
  · simp [hblank]
  · by_cases htaken : record.id ∈ taken
    · simp [hblank, htaken]
    · cases hkind : Kind.ofTypeName? record.typeName with
      | none => simp [hblank, htaken]
      | some kind => simp [hblank, htaken, eq_comm]

/-- A connection is accepted exactly if its id is blank or new and it joins two different nodes. -/
theorem acceptConnection_eq_ok_iff {nodes : List Node} {earlier : List String}
    {record : ConnectionRecord} {edge : Edge} :
    acceptConnection nodes earlier record = .ok edge ↔
      (Text.isBlank record.id = true ∨ record.id ∉ earlier) ∧
        position? nodes record.source = some edge.source ∧
        position? nodes record.target = some edge.target ∧ edge.source ≠ edge.target ∧
        edge.connectionId = record.id ∧ edge.output = record.output ∧
        edge.input = record.input := by
  unfold acceptConnection
  by_cases hused : Text.isBlank record.id = false ∧ record.id ∈ earlier
  · simp [hused]
  · have hfree : Text.isBlank record.id = true ∨ record.id ∉ earlier := by
      by_cases hblank : Text.isBlank record.id = true
      · exact Or.inl hblank
      · exact Or.inr fun hmem => hused ⟨by simpa using hblank, hmem⟩
    rw [if_neg (by simpa using hused)]
    cases hsource : position? nodes record.source with
    | none => simp
    | some source =>
        cases htarget : position? nodes record.target with
        | none => simp
        | some target =>
            obtain ⟨connectionId, source', target', output, input⟩ := edge
            by_cases hsame : source = target
            · simp only [hsame, if_true, Option.some.injEq, reduceCtorEq, false_iff]
              rintro ⟨-, hs, ht, hne, -⟩
              exact hne (hs.symm.trans ht)
            · simp only [hsame, if_false, Except.ok.injEq, Edge.mk.injEq, Option.some.injEq]
              constructor
              · rintro ⟨rfl, rfl, rfl, rfl, rfl⟩
                exact ⟨hfree, rfl, rfl, hsame, rfl, rfl, rfl⟩
              · rintro ⟨-, rfl, rfl, -, rfl, rfl, rfl⟩
                exact ⟨rfl, rfl, rfl, rfl, rfl⟩

/-- The position of an id is that of a node with the id. -/
theorem getElem?_of_position? {nodes : List Node} {id : String} {position : Nat}
    (h : position? nodes id = some position) :
    ∃ node, nodes[position]? = some node ∧ node.id = id := by
  rw [position?, List.findIdx?_eq_some_iff_getElem] at h
  obtain ⟨hlt, hid, -⟩ := h
  exact ⟨nodes[position], List.getElem?_eq_getElem hlt, by simpa using hid⟩

/-- The position of an id is a position of a node. -/
theorem lt_of_position? {nodes : List Node} {id : String} {position : Nat}
    (h : position? nodes id = some position) : position < nodes.length := by
  obtain ⟨node, hnode, -⟩ := getElem?_of_position? h
  exact (List.getElem?_eq_some_iff.mp hnode).1

/-- An accepted edge is the outcome of one of the connections. -/
theorem exists_record_of_mem_accepted {nodes : List Node} {edge : Edge}
    {records : List ConnectionRecord} (earlier : List String)
    (h : edge ∈ accepted (connectionOutcomes nodes earlier records)) :
    ∃ record ∈ records, ∃ before, acceptConnection nodes before record = .ok edge := by
  induction records generalizing earlier with
  | nil => simp [connectionOutcomes] at h
  | cons record rest ih =>
      -- accepted or not, the first record adds its id to those that the rest are checked against
      rw [connectionOutcomes] at h
      cases houtcome : acceptConnection nodes earlier record with
      | error rejection =>
          rw [houtcome, accepted_error_cons] at h
          obtain ⟨found, hfound, hedge⟩ := ih (record.id :: earlier) h
          exact ⟨found, List.mem_cons_of_mem record hfound, hedge⟩
      | ok first =>
          rw [houtcome, accepted_ok_cons, List.mem_cons] at h
          rcases h with rfl | h
          · exact ⟨record, List.mem_cons_self, earlier, houtcome⟩
          · obtain ⟨found, hfound, hedge⟩ := ih (record.id :: earlier) h
            exact ⟨found, List.mem_cons_of_mem record hfound, hedge⟩

/-- An edge of a flow's graph comes from a connection record that joins the same two nodes. -/
theorem exists_record_of_mem_edges {flow : Flow} {edge : Edge} (h : edge ∈ (build flow).edges) :
    ∃ record ∈ flow.connections,
      position? (build flow).nodes record.source = some edge.source ∧
        position? (build flow).nodes record.target = some edge.target ∧
        edge.source ≠ edge.target := by
  obtain ⟨record, hrecord, before, hok⟩ := exists_record_of_mem_accepted [] h
  obtain ⟨-, hsource, htarget, hne, -⟩ := acceptConnection_eq_ok_iff.mp hok
  exact ⟨record, hrecord, hsource, htarget, hne⟩

/-- The nodes of a flow's graph have distinct ids. -/
theorem build_ids_nodup (flow : Flow) : (build flow).ids.Nodup := by
  have hfresh : ∀ taken record node, acceptNode taken record = .ok node → node.id ∉ taken := by
    intro taken record node hok
    obtain ⟨-, hnew, kind, -, rfl⟩ := acceptNode_eq_ok_iff.mp hok
    exact hnew
  exact nodup_keys_sift hfresh flow.nodes [] List.nodup_nil

/-- The graph of every flow is well formed. -/
theorem build_wellFormed (flow : Flow) : (build flow).WellFormed where
  ids_nodup := build_ids_nodup flow
  source_lt := by
    intro edge hedge
    obtain ⟨record, -, hsource, -⟩ := exists_record_of_mem_edges hedge
    exact lt_of_position? hsource
  target_lt := by
    intro edge hedge
    obtain ⟨record, -, -, htarget, -⟩ := exists_record_of_mem_edges hedge
    exact lt_of_position? htarget
  source_ne_target := by
    intro edge hedge
    obtain ⟨record, -, -, -, hne⟩ := exists_record_of_mem_edges hedge
    exact hne

end Graph

end TestFlow
