import TestFlow.Proofs.Firsts
import TestFlow.Proofs.Graph.Outcomes
import TestFlow.Proofs.Order.Parts

/-!
# Independent flows

Two flows that have nothing to do with each other can be drawn side by side: the nodes of the second
are listed behind those of the first, and the connections of both are mixed in any way.  The order
of the nodes is that of the first flow and then that of the second, and where one of the flows has a
circle, its failure is the failure of both.

A record has the outcome that it has in its own flow.  This is so for nodes, since no id is taken in
both flows, and for connections, since no id that counts is used in both and since the nodes that a
connection names have moved together, by nothing or by the number of nodes in front.  So the graph
of both has the nodes of both graphs, and their edges are mixed as the connections are
(`interleaving_accepted`).  Edges into nodes of the one flow are found by leaving out those of the
other, and then the order is that of dependencies made of two parts.

Reference: specification, §4.1 (independent subgraphs keep the input order of their roots).

## Main definitions

* `Interleaving` — a list has the members of two others, those of each in their order;
* `Flow.Independent` — two flows share no ids and do not name each other's nodes;
* `Flow.beside` — one flow with the nodes of two and given connections.

## Main statement

* `independent_flows_compose` — the order of two independent flows drawn side by side.
-/

namespace TestFlow

/-! ## Interleavings -/

/-- A list has the members of two others, those of each in their order. -/
inductive Interleaving {α : Type} : List α → List α → List α → Prop
  | nil : Interleaving [] [] []
  | left {first second whole : List α} (a : α) (h : Interleaving first second whole) :
      Interleaving (a :: first) second (a :: whole)
  | right {first second whole : List α} (a : α) (h : Interleaving first second whole) :
      Interleaving first (a :: second) (a :: whole)

namespace Interleaving

variable {α : Type} {first second whole : List α}

/-- It makes no difference which of the two lists is named first. -/
theorem swap (h : Interleaving first second whole) : Interleaving second first whole := by
  induction h with
  | nil => exact .nil
  | left a _ ih => exact .right a ih
  | right a _ ih => exact .left a ih

/-- What only members of the first list satisfy is found in the first list. -/
theorem filter_eq_left (h : Interleaving first second whole) {p : α → Bool}
    (hsecond : ∀ a ∈ second, p a = false) : whole.filter p = first.filter p := by
  induction h with
  | nil => rfl
  | left a _ ih => rw [List.filter_cons, List.filter_cons, ih hsecond]
  | right a _ ih =>
      obtain ⟨ha, hrest⟩ := List.forall_mem_cons.mp hsecond
      rw [List.filter_cons, if_neg (by simp [ha]), ih hrest]

/-- What only members of the second list satisfy is found in the second list. -/
theorem filter_eq_right (h : Interleaving first second whole) {p : α → Bool}
    (hfirst : ∀ a ∈ first, p a = false) : whole.filter p = second.filter p :=
  h.swap.filter_eq_left hfirst

end Interleaving

/-! ## Graphs side by side -/

namespace Graph

/-- A graph has the nodes of one graph and behind them those of another, and the edges of both in
any mixture. -/
structure SideBySide (first second whole : Graph) : Prop where
  nodes_eq : whole.nodes = first.nodes ++ second.nodes
  edges : Interleaving first.edges
    (second.edges.map (Edge.move (first.nodes.length + ·))) whole.edges

namespace SideBySide

variable {first second whole : Graph}

theorem length_eq (h : SideBySide first second whole) :
    whole.nodes.length = first.nodes.length + second.nodes.length := by
  rw [h.nodes_eq, List.length_append]

/-- The nodes of the first graph keep their positions. -/
theorem getElem?_left (h : SideBySide first second whole) {i : Nat}
    (hi : i < first.nodes.length) : whole.nodes[i]? = first.nodes[i]? := by
  rw [h.nodes_eq, List.getElem?_append_left hi]

/-- The nodes of the second graph are behind those of the first. -/
theorem getElem?_right (h : SideBySide first second whole) (i : Nat) :
    whole.nodes[first.nodes.length + i]? = second.nodes[i]? := by
  rw [h.nodes_eq, List.getElem?_append_right (Nat.le_add_right _ _), Nat.add_sub_cancel_left]

/-- Nodes of the first graph have the sources that they had. -/
theorem sourcesOf_left (h : SideBySide first second whole) {node : Nat}
    (hnode : node < first.nodes.length) : whole.sourcesOf node = first.sourcesOf node := by
  -- the edges of the second graph lead behind the nodes of the first
  have hforeign : ∀ edge ∈ second.edges.map (Edge.move (first.nodes.length + ·)),
      (edge.target == node) = false := by
    intro edge hedge
    obtain ⟨original, -, rfl⟩ := List.mem_map.mp hedge
    rw [beq_eq_false_iff_ne, Edge.target_move]
    omega
  rw [sourcesOf, sourcesOf, h.edges.filter_eq_left hforeign]

/-- The sources of a node of the second graph have moved with it. -/
theorem sourcesOf_right (hfirst : first.WellFormed) (h : SideBySide first second whole)
    (node : Nat) :
    whole.sourcesOf (first.nodes.length + node) =
      (second.sourcesOf node).map (first.nodes.length + ·) := by
  have hforeign : ∀ edge ∈ first.edges,
      (edge.target == first.nodes.length + node) = false := by
    intro edge hedge
    have htarget := hfirst.target_lt edge hedge
    rw [beq_eq_false_iff_ne]
    omega
  have hinto : ((fun edge : Edge => edge.target == first.nodes.length + node) ∘
      Edge.move (first.nodes.length + ·)) = fun edge => edge.target == node := by
    funext edge
    simp
  rw [sourcesOf, h.edges.filter_eq_right hforeign, List.filter_map, hinto, List.map_map, sourcesOf,
    List.map_map]
  rfl

/-- The dependencies of the first graph are found in the whole where they were. -/
theorem embeds_left (h : SideBySide first second whole) :
    (Dependencies.ofGraph first).Embeds (Dependencies.ofGraph whole) id where
  injective := Function.injective_id
  of_place := by
    intro node hnode
    rw [Dependencies.size_ofGraph] at hnode
    have hlt : node < whole.nodes.length := by
      rw [h.length_eq]
      omega
    rw [id, Dependencies.of_ofGraph hlt, Dependencies.of_ofGraph hnode, h.sourcesOf_left hnode,
      List.map_id]

/-- The dependencies of the second graph are found in the whole behind the nodes of the first. -/
theorem embeds_right (hfirst : first.WellFormed) (h : SideBySide first second whole) :
    (Dependencies.ofGraph second).Embeds (Dependencies.ofGraph whole)
      (first.nodes.length + ·) where
  injective := fun _ _ => Nat.add_left_cancel
  of_place := by
    intro node hnode
    rw [Dependencies.size_ofGraph] at hnode
    have hlt : first.nodes.length + node < whole.nodes.length := by
      rw [h.length_eq]
      omega
    rw [Dependencies.of_ofGraph hlt, Dependencies.of_ofGraph hnode, h.sourcesOf_right hfirst,
      eraseDups_map_of_injective fun _ _ => Nat.add_left_cancel]

/-- Positions in the first graph are those of the same ids. -/
theorem map_idAt_left (h : SideBySide first second whole) {positions : List Nat}
    (hlt : ∀ i ∈ positions, i < first.nodes.length) :
    positions.map whole.idAt = positions.map first.idAt := by
  apply List.map_congr_left
  intro i hi
  rw [idAt, idAt, h.getElem?_left (hlt i hi)]

/-- Positions in the second graph are those of the same ids after they have moved. -/
theorem map_idAt_right (h : SideBySide first second whole) (positions : List Nat) :
    (positions.map (first.nodes.length + ·)).map whole.idAt = positions.map second.idAt := by
  rw [List.map_map]
  apply List.map_congr_left
  intro i _
  rw [Function.comp, idAt, idAt, h.getElem?_right]

/-- Positions in the first graph are those of the same nodes. -/
theorem filterMap_left (h : SideBySide first second whole) {positions : List Nat}
    (hlt : ∀ i ∈ positions, i < first.nodes.length) :
    (positions.filterMap fun i => whole.nodes[i]?) =
      positions.filterMap fun i => first.nodes[i]? := by
  apply List.filterMap_congr
  intro i hi
  exact h.getElem?_left (hlt i hi)

/-- Positions in the second graph are those of the same nodes after they have moved. -/
theorem filterMap_right (h : SideBySide first second whole) (positions : List Nat) :
    ((positions.map (first.nodes.length + ·)).filterMap fun i => whole.nodes[i]?) =
      positions.filterMap fun i => second.nodes[i]? := by
  rw [List.filterMap_map]
  apply List.filterMap_congr
  intro i _
  exact h.getElem?_right i

/-- Graphs side by side have the order of the first and then that of the second, unless one of them
has none. -/
theorem order_eq (hfirst : first.WellFormed) (hsecond : second.WellFormed)
    (hwhole : whole.WellFormed) (h : SideBySide first second whole) :
    whole.order = do
      let front ← first.order
      let back ← second.order
      return front ++ back := by
  have hdeps := Dependencies.wellFormed_ofGraph hfirst
  have hparts := Dependencies.order_of_parts hdeps (Dependencies.wellFormed_ofGraph hsecond)
    (Dependencies.wellFormed_ofGraph hwhole) (by simp [h.length_eq]) h.embeds_left
    (by simpa using h.embeds_right hfirst)
  rw [Dependencies.size_ofGraph] at hparts
  rw [Graph.order, hparts, Graph.order, Graph.order]
  -- three outcomes: a circle in the first part, a circle in the second, or two orders
  rcases horder : (Dependencies.ofGraph first).order with circle | front
  · have hlt := (Dependencies.order_error hdeps horder).lt_size hdeps
    rw [Dependencies.size_ofGraph] at hlt
    show Except.error (Failure.ofCycle (circle.map whole.idAt)) = _
    rw [h.map_idAt_left hlt]
    rfl
  · have hlt := hfirst.positions_lt horder
    rcases (Dependencies.ofGraph second).order with circle | back
    · show Except.error
        (Failure.ofCycle ((circle.map (first.nodes.length + ·)).map whole.idAt)) = _
      rw [h.map_idAt_right]
      rfl
    · show Except.ok ((front ++ back.map (first.nodes.length + ·)).filterMap
        fun i => whole.nodes[i]?) = _
      rw [List.filterMap_append, h.filterMap_left hlt, h.filterMap_right]
      rfl

end SideBySide

/-! ## Connections side by side -/

/-- Records stand in a whole as they do in a part of it: they use the same ids there, and the nodes
that they name have moved. -/
def StandAs (records : List ConnectionRecord) (nodes : List Node) (used : List String)
    (move : Nat → Nat) (whole : List Node) (earlier : List String) : Prop :=
  ∀ record ∈ records,
    (Text.isBlank record.id = true ∨ (record.id ∈ earlier ↔ record.id ∈ used)) ∧
      position? whole record.source = (position? nodes record.source).map move ∧
      position? whole record.target = (position? nodes record.target).map move

section StandAs

variable {records : List ConnectionRecord} {nodes whole : List Node} {used earlier : List String}
  {move : Nat → Nat} {record : ConnectionRecord}

/-- A record that stands as it does in the part has the same outcome there. -/
theorem StandAs.acceptConnection_eq (hmove : Function.Injective move)
    (h : StandAs (record :: records) nodes used move whole earlier) :
    acceptConnection whole earlier record =
      (acceptConnection nodes used record).map (Edge.move move) := by
  obtain ⟨hused, hsource, htarget⟩ := h record List.mem_cons_self
  rw [acceptConnection_congr hused, acceptConnection_move hmove hsource htarget]

/-- Behind a record of the part, the others stand as before. -/
theorem StandAs.behind (h : StandAs (record :: records) nodes used move whole earlier) :
    StandAs records nodes (record.id :: used) move whole (record.id :: earlier) := by
  intro later hlater
  obtain ⟨hused, hplaces⟩ := h later (List.mem_cons_of_mem record hlater)
  refine ⟨hused.imp_right fun hsame => ?_, hplaces⟩
  rw [List.mem_cons, List.mem_cons, hsame]

/-- Behind a record from elsewhere, the records stand as before. -/
theorem StandAs.behind_foreign (h : StandAs records nodes used move whole earlier)
    (hforeign : ∀ own ∈ records, own.id = record.id → Text.isBlank own.id = true) :
    StandAs records nodes used move whole (record.id :: earlier) := by
  intro own hown
  obtain ⟨hused, hplaces⟩ := h own hown
  refine ⟨?_, hplaces⟩
  by_cases hsame : own.id = record.id
  · exact Or.inl (hforeign own hown hsame)
  · refine hused.imp_right fun hiff => ?_
    rw [List.mem_cons, or_iff_right hsame, hiff]

end StandAs

/-- The edges of connections that are mixed are mixed in the same way. -/
theorem interleaving_accepted {nodes others whole : List Node} {move moveOthers : Nat → Nat}
    (hmove : Function.Injective move) (hmoveOthers : Function.Injective moveOthers)
    {first second all : List ConnectionRecord} (hall : Interleaving first second all)
    (hids : ∀ record ∈ first, ∀ other ∈ second, record.id = other.id →
      Text.isBlank record.id = true)
    {used usedOthers earlier : List String}
    (hfirst : StandAs first nodes used move whole earlier)
    (hsecond : StandAs second others usedOthers moveOthers whole earlier) :
    Interleaving ((accepted (connectionOutcomes nodes used first)).map (Edge.move move))
      ((accepted (connectionOutcomes others usedOthers second)).map (Edge.move moveOthers))
      (accepted (connectionOutcomes whole earlier all)) := by
  -- The induction is on how the connections are mixed.  A connection of one flow uses up its id for
  -- both, which the records of the other flow do not notice since they do not have it.
  induction hall generalizing used usedOthers earlier with
  | nil => exact .nil
  | @left first second all record _ ih =>
      have hrest : ∀ own ∈ first, ∀ other ∈ second, own.id = other.id →
          Text.isBlank own.id = true := fun own hown =>
        hids own (List.mem_cons_of_mem record hown)
      have hforeign : ∀ own ∈ second, own.id = record.id → Text.isBlank own.id = true := by
        intro own hown hsame
        exact hsame ▸ hids record List.mem_cons_self own hown hsame.symm
      have hbehind := ih hrest hfirst.behind (hsecond.behind_foreign hforeign)
      rw [connectionOutcomes, connectionOutcomes, hfirst.acceptConnection_eq hmove]
      rcases acceptConnection nodes used record with rejection | edge
      · exact hbehind
      · exact .left (edge.move move) hbehind
  | @right first second all record _ ih =>
      have hrest : ∀ own ∈ first, ∀ other ∈ second, own.id = other.id →
          Text.isBlank own.id = true := fun own hown other hother =>
        hids own hown other (List.mem_cons_of_mem record hother)
      have hforeign : ∀ own ∈ first, own.id = record.id → Text.isBlank own.id = true :=
        fun own hown => hids own hown record List.mem_cons_self
      have hbehind := ih hrest (hfirst.behind_foreign hforeign) hsecond.behind
      rw [connectionOutcomes, connectionOutcomes, hsecond.acceptConnection_eq hmoveOthers]
      rcases acceptConnection others usedOthers record with rejection | edge
      · exact hbehind
      · exact .right (edge.move moveOthers) hbehind

/-- A name that none of the nodes behind has is where it was. -/
theorem position?_append_left (nodes : List Node) {others : List Node} {name : String}
    (h : name ∉ others.map Node.id) : position? (nodes ++ others) name = position? nodes name := by
  have hnone := position?_eq_none_iff.mpr h
  unfold position? at hnone ⊢
  rw [List.findIdx?_append, hnone, Option.map_none, Option.or_none]

/-- A name that none of the nodes in front has moves with the node that has it. -/
theorem position?_append_right {nodes : List Node} (others : List Node) {name : String}
    (h : name ∉ nodes.map Node.id) :
    position? (nodes ++ others) name = (position? others name).map (nodes.length + ·) := by
  have hnone := position?_eq_none_iff.mpr h
  unfold position? at hnone ⊢
  rw [List.findIdx?_append, hnone, Option.none_or]
  simp only [Nat.add_comm]

end Graph

/-! ## Flows side by side -/

namespace Flow

/-- Two flows have nothing to do with each other: no node of the one has the id of a node of the
other, no connection of the one names a node of the other, and an id that connections of both have
is blank. -/
structure Independent (flow other : Flow) : Prop where
  node_ids : ∀ record ∈ flow.nodes, record.id ∉ other.nodes.map NodeRecord.id
  names : ∀ connection ∈ flow.connections,
    connection.source ∉ other.nodes.map NodeRecord.id ∧
      connection.target ∉ other.nodes.map NodeRecord.id
  other_names : ∀ connection ∈ other.connections,
    connection.source ∉ flow.nodes.map NodeRecord.id ∧
      connection.target ∉ flow.nodes.map NodeRecord.id
  connection_ids : ∀ connection ∈ flow.connections, ∀ another ∈ other.connections,
    connection.id = another.id → Text.isBlank connection.id = true

/-- The flow with the nodes of two, and with the given connections. -/
def beside (flow other : Flow) (connections : List ConnectionRecord) : Flow where
  nodes := flow.nodes ++ other.nodes
  connections := connections

variable {flow other : Flow}

/-- No node is refused for the sake of a node of the other flow. -/
theorem nodes_build_beside (h : flow.Independent other) (connections : List ConnectionRecord) :
    (Graph.build (flow.beside other connections)).nodes =
      (Graph.build flow).nodes ++ (Graph.build other).nodes := by
  have hids : ∀ record ∈ other.nodes, record.id ∉ flow.nodes.map NodeRecord.id := by
    intro record hrecord hmem
    obtain ⟨own, hown, hsame⟩ := List.mem_map.mp hmem
    exact h.node_ids own hown (hsame ▸ List.mem_map_of_mem hrecord)
  show accepted (Graph.nodeOutcomes (flow.nodes ++ other.nodes)) = _
  rw [Graph.nodeOutcomes_append hids, accepted_append]
  rfl

/-- The graph of independent flows has their graphs side by side. -/
theorem sideBySide_build (h : flow.Independent other) {connections : List ConnectionRecord}
    (hall : Interleaving flow.connections other.connections connections) :
    (Graph.build flow).SideBySide (Graph.build other)
      (Graph.build (flow.beside other connections)) := by
  have hnodes := nodes_build_beside h connections
  refine ⟨hnodes, ?_⟩
  have hfirst : Graph.StandAs flow.connections (Graph.build flow).nodes [] id
      (Graph.build (flow.beside other connections)).nodes [] := by
    intro record hrecord
    obtain ⟨hsource, htarget⟩ := h.names record hrecord
    have hforeign : (Graph.build other).nodes.map Node.id ⊆ other.nodes.map NodeRecord.id :=
      Graph.map_id_accepted_subset other.nodes
    rw [hnodes, Graph.position?_append_left _ fun hmem => hsource (hforeign hmem),
      Graph.position?_append_left _ fun hmem => htarget (hforeign hmem), Option.map_id]
    exact ⟨Or.inr Iff.rfl, rfl, rfl⟩
  have hsecond : Graph.StandAs other.connections (Graph.build other).nodes []
      ((Graph.build flow).nodes.length + ·)
      (Graph.build (flow.beside other connections)).nodes [] := by
    intro record hrecord
    obtain ⟨hsource, htarget⟩ := h.other_names record hrecord
    have hforeign : (Graph.build flow).nodes.map Node.id ⊆ flow.nodes.map NodeRecord.id :=
      Graph.map_id_accepted_subset flow.nodes
    rw [hnodes, Graph.position?_append_right _ fun hmem => hsource (hforeign hmem),
      Graph.position?_append_right _ fun hmem => htarget (hforeign hmem)]
    exact ⟨Or.inr Iff.rfl, rfl, rfl⟩
  have hedges := Graph.interleaving_accepted Function.injective_id (fun _ _ => Nat.add_left_cancel)
    hall h.connection_ids hfirst hsecond
  have hstay : Edge.move id = id := rfl
  rwa [hstay, List.map_id] at hedges

end Flow

/-- Two flows that have nothing to do with each other are put in order together as they are alone.
The nodes of the second are listed behind those of the first, and the connections of both are mixed
in any way.  The failure of the first is the failure of both; otherwise that of the second is; and
if both have an order, the two follow each other. -/
theorem independent_flows_compose {flow other : Flow} (h : flow.Independent other)
    {connections : List ConnectionRecord}
    (hall : Interleaving flow.connections other.connections connections) :
    (Graph.build (flow.beside other connections)).order = do
      let front ← (Graph.build flow).order
      let back ← (Graph.build other).order
      return front ++ back :=
  (Flow.sideBySide_build h hall).order_eq (Graph.build_wellFormed flow)
    (Graph.build_wellFormed other) (Graph.build_wellFormed _)

/-- Two messages, the second of which comes first. -/
def reversedPair (later earlier : String) : Flow :=
  messageFlow [later, earlier] [(earlier, later)]

/-- Two pairs of messages side by side, where the connection of the second pair is listed first. -/
theorem reversedPairs_compose :
    (reversedPair "b" "a").Independent (reversedPair "y" "x") ∧
      ∃ connections, Interleaving (reversedPair "b" "a").connections
        (reversedPair "y" "x").connections connections ∧
      connections.map ConnectionRecord.source = ["x", "a"] ∧
      (Graph.build ((reversedPair "b" "a").beside (reversedPair "y" "x") connections)).order.map
        (List.map Node.id) = .ok ["a", "b", "x", "y"] := by
  have hindependent : (reversedPair "b" "a").Independent (reversedPair "y" "x") := by
    have hblank : Text.isBlank "" = true := rfl
    constructor <;> simp [reversedPair, messageFlow, hblank]
  have hall : Interleaving (reversedPair "b" "a").connections (reversedPair "y" "x").connections
      [⟨"", "x", "y", none, none⟩, ⟨"", "a", "b", none, none⟩] :=
    .right _ (.left _ .nil)
  refine ⟨hindependent, _, hall, rfl, ?_⟩
  have hfirst : (Graph.build (reversedPair "b" "a")).order = .ok (["a", "b"].map fun id =>
      ⟨id, .message, Component.decode .message (.object [("message", .string id)])⟩) := by
    cbv
  have hsecond : (Graph.build (reversedPair "y" "x")).order = .ok (["x", "y"].map fun id =>
      ⟨id, .message, Component.decode .message (.object [("message", .string id)])⟩) := by
    cbv
  rw [independent_flows_compose hindependent hall, hfirst, hsecond]
  rfl

end TestFlow
