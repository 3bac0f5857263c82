import TestFlow.Compile
import TestFlow.Proofs.Graph.WellFormed
import TestFlow.Proofs.Order.Invariant

/-!
# The order of emission

The search works on positions.  Here its results are carried to the nodes of a graph and their ids:
an order lists every accepted node once and the source of each accepted connection before its
target, and a failure shows a circle of accepted connections.  Since no order is possible along a
circle, one of the two says whether the accepted connections have a circle.

Reference: specification, §4.2 (dependency resolver) and §7 (a circular flow is fatal).

## Main definitions

* `Precedes` — one id stands before another in a list of ids;
* `Graph.IsEmissionOrder` — every accepted node once, and dependencies first;
* `Graph.ShowsCircle` — a failure shows a circle of accepted connections and nothing else.

## Main statements

* `order_lists_dependencies_first` — the order of a flow is an emission order;
* `order_failure_shows_circle` — the failure of a flow shows a circle;
* `Graph.WellFormed.order_error_iff_cyclic` — there is a failure exactly if there is a circle.
-/

namespace TestFlow

/-- One id stands before another in a list: both are listed, and every place of the first comes
before every place of the second. -/
def Precedes (ids : List String) (earlier later : String) : Prop :=
  earlier ∈ ids ∧ later ∈ ids ∧ ∀ i j : Nat, ids[i]? = some earlier → ids[j]? = some later → i < j

/-- In a list that has an id before another, so does the first place of each. -/
theorem Precedes.idxOf_lt {ids : List String} {earlier later : String}
    (h : Precedes ids earlier later) : ids.idxOf earlier < ids.idxOf later := by
  obtain ⟨hearlier, hlater, hplaces⟩ := h
  exact hplaces _ _ (List.getElem?_idxOf hearlier) (List.getElem?_idxOf hlater)

namespace Graph

/-- A list of nodes has each accepted node once and nothing else, and each accepted connection leads
from a node to one strictly behind it. -/
structure IsEmissionOrder (graph : Graph) (order : List Node) : Prop where
  perm : order.Perm graph.nodes
  ids_nodup : (order.map Node.id).Nodup
  precedes : ∀ source target, graph.Connects source target →
    Precedes (order.map Node.id) source target

/-- A failure lists `k ≥ 2` different ids of accepted nodes and the first of them again, each of
them connected to the one listed before it, and names the first.  Every node that it lists is on a
circle of accepted connections, so a node that only leads to the circle is not listed. -/
structure ShowsCircle (graph : Graph) (failure : Failure) (k : Nat) : Prop where
  two_le : 2 ≤ k
  length_eq : failure.cycle.length = k + 1
  closes : failure.cycle[k]? = failure.cycle[0]?
  nodup : (failure.cycle.take k).Nodup
  mem_ids : ∀ id ∈ failure.cycle, id ∈ graph.ids
  connects : ∀ i < k, ∃ source target, failure.cycle[i + 1]? = some source ∧
    failure.cycle[i]? = some target ∧ graph.Connects source target
  node_eq : failure.node = failure.cycle[0]?
  on_circle : ∀ id ∈ failure.cycle, Relation.TransGen graph.Connects id id

end Graph

/-! ## Dependencies of a graph -/

namespace Dependencies

@[simp] theorem size_ofGraph (graph : Graph) : (ofGraph graph).size = graph.nodes.length := by
  simp [size, ofGraph]

/-- A node depends on the sources of the edges into it, without repeats. -/
theorem of_ofGraph {graph : Graph} {node : Nat} (h : node < graph.nodes.length) :
    (ofGraph graph).of node = (graph.sourcesOf node).eraseDups := by
  simp [of, ofGraph, h]

/-- A node depends on the nodes that edges into it come from. -/
theorem mem_of_ofGraph {graph : Graph} (hgraph : graph.WellFormed) {node dep : Nat} :
    dep ∈ (ofGraph graph).of node ↔
      ∃ edge ∈ graph.edges, edge.source = dep ∧ edge.target = node := by
  by_cases hlt : node < graph.nodes.length
  · rw [of_ofGraph hlt, List.mem_eraseDups, Graph.sourcesOf, List.mem_map]
    simp only [List.mem_filter, beq_iff_eq]
    constructor
    · rintro ⟨edge, ⟨hedge, htarget⟩, hsource⟩
      exact ⟨edge, hedge, hsource, htarget⟩
    · rintro ⟨edge, hedge, hsource, htarget⟩
      exact ⟨edge, ⟨hedge, htarget⟩, hsource⟩
  -- positions behind the last node have no dependencies, and no edge leads to them
  · rw [of_eq_nil (by simpa using hlt)]
    constructor
    · intro hmem
      cases hmem
    · rintro ⟨edge, hedge, -, rfl⟩
      exact absurd (hgraph.target_lt edge hedge) hlt

/-- The dependencies of a well-formed graph are well formed. -/
theorem wellFormed_ofGraph {graph : Graph} (hgraph : graph.WellFormed) :
    (ofGraph graph).WellFormed where
  lt_size := by
    intro node dep hdep
    obtain ⟨edge, hedge, rfl, -⟩ := (mem_of_ofGraph hgraph).mp hdep
    rw [size_ofGraph]
    exact hgraph.source_lt edge hedge
  ne_self := by
    intro node dep hdep
    obtain ⟨edge, hedge, rfl, rfl⟩ := (mem_of_ofGraph hgraph).mp hdep
    exact hgraph.source_ne_target edge hedge

/-- In an order without repeats, a dependency has an earlier place than what depends on it. -/
theorem Respects.lt {deps : Dependencies} {order : List Nat} (h : deps.Respects order)
    (hnodup : order.Nodup) {i j dep node : Nat} (hi : order[i]? = some dep)
    (hj : order[j]? = some node) (hdep : dep ∈ deps.of node) : i < j := by
  obtain ⟨k, hk⟩ := List.mem_iff_getElem?.mp (h j node hj dep hdep)
  rw [List.getElem?_take] at hk
  split at hk
  · rename_i hkj
    have hilt : i < order.length := (List.getElem?_eq_some_iff.mp hi).1
    rwa [(List.getElem?_inj hilt hnodup).mp (hi.trans hk.symm)]
  · cases hk

end Dependencies

namespace Graph

variable {graph : Graph}

/-! ## From positions to ids -/

/-- The id at a position of the graph. -/
theorem getElem?_ids {position : Nat} (h : position < graph.nodes.length) :
    graph.ids[position]? = some (graph.idAt position) := by
  simp [ids, idAt, h]

/-- In a well-formed graph, the id tells the position. -/
theorem WellFormed.position_eq (hgraph : graph.WellFormed) {p q : Nat} {id : String}
    (hp : graph.ids[p]? = some id) (hq : graph.ids[q]? = some id) : p = q :=
  (List.getElem?_inj (List.getElem?_eq_some_iff.mp hp).1 hgraph.ids_nodup).mp (hp.trans hq.symm)

/-- The position that a dependency stands for is connected to the position that depends on it. -/
theorem WellFormed.connects_of_mem (hgraph : graph.WellFormed) {node dep : Nat}
    (h : dep ∈ (Dependencies.ofGraph graph).of node) :
    graph.Connects (graph.idAt dep) (graph.idAt node) := by
  obtain ⟨edge, hedge, rfl, rfl⟩ := (Dependencies.mem_of_ofGraph hgraph).mp h
  exact ⟨edge, hedge, getElem?_ids (hgraph.source_lt edge hedge),
    getElem?_ids (hgraph.target_lt edge hedge)⟩

/-- The ids of the nodes at some positions of a graph. -/
theorem map_id_filterMap {positions : List Nat}
    (h : ∀ position ∈ positions, position < graph.nodes.length) :
    (positions.filterMap fun position => graph.nodes[position]?).map Node.id =
      positions.map graph.idAt := by
  induction positions with
  | nil => rfl
  | cons position rest ih =>
      have hposition : position < graph.nodes.length := h position List.mem_cons_self
      rw [List.filterMap_cons_some (List.getElem?_eq_getElem hposition), List.map_cons,
        List.map_cons, ih fun other hother => h other (List.mem_cons_of_mem position hother)]
      simp [idAt, hposition]

/-- An order of a graph lists the nodes at an order of its positions. -/
theorem order_eq_ok {order : List Node} (h : graph.order = .ok order) :
    ∃ positions, (Dependencies.ofGraph graph).order = .ok positions ∧
      order = positions.filterMap fun position => graph.nodes[position]? := by
  unfold Graph.order at h
  split at h
  · rename_i positions hpositions
    cases h
    exact ⟨positions, hpositions, rfl⟩
  · cases h

/-- A failure of a graph is that of a circle of its positions. -/
theorem order_eq_error {failure : Failure} (h : graph.order = .error failure) :
    ∃ path, (Dependencies.ofGraph graph).order = .error path ∧
      failure = .ofCycle (path.map graph.idAt) := by
  unfold Graph.order at h
  split at h
  · cases h
  · rename_i path hpath
    cases h
    exact ⟨path, hpath, rfl⟩

/-! ## Orders -/

/-- The entries of a list at all of its positions are the list. -/
theorem filterMap_getElem?_range {α : Type} (list : List α) :
    (List.range list.length).filterMap (fun position => list[position]?) = list := by
  induction list with
  | nil => rfl
  | cons head tail ih =>
      rw [List.length_cons, List.range_succ_eq_map, List.filterMap_cons, List.filterMap_map]
      exact congrArg (head :: ·) ih

/-- An order of positions has each position of the graph once. -/
theorem WellFormed.positions_perm (hgraph : graph.WellFormed) {positions : List Nat}
    (h : (Dependencies.ofGraph graph).order = .ok positions) :
    positions.Perm (List.range graph.nodes.length) := by
  rw [← Dependencies.size_ofGraph]
  exact (Dependencies.order_ok (Dependencies.wellFormed_ofGraph hgraph) h).1

/-- The positions in an order are those of nodes. -/
theorem WellFormed.positions_lt (hgraph : graph.WellFormed) {positions : List Nat}
    (h : (Dependencies.ofGraph graph).order = .ok positions) :
    ∀ position ∈ positions, position < graph.nodes.length := by
  intro position hposition
  exact List.mem_range.mp ((hgraph.positions_perm h).mem_iff.mp hposition)

/-- A place of an id in an order is a place of the position that has the id. -/
theorem WellFormed.getElem?_positions (hgraph : graph.WellFormed) {positions : List Nat}
    (h : (Dependencies.ofGraph graph).order = .ok positions) {place position : Nat} {id : String}
    (hplace : ((positions.filterMap fun position => graph.nodes[position]?).map Node.id)[place]? =
      some id)
    (hid : graph.ids[position]? = some id) : positions[place]? = some position := by
  have hlt := hgraph.positions_lt h
  rw [map_id_filterMap hlt, List.getElem?_map, Option.map_eq_some_iff] at hplace
  obtain ⟨other, hother, rfl⟩ := hplace
  rw [hother, hgraph.position_eq (getElem?_ids (hlt other (List.mem_of_getElem? hother))) hid]

/-- An order has the nodes of the graph, each of them once. -/
theorem WellFormed.order_perm (hgraph : graph.WellFormed) {order : List Node}
    (h : graph.order = .ok order) : order.Perm graph.nodes := by
  obtain ⟨positions, hpositions, rfl⟩ := order_eq_ok h
  have hnodes := (hgraph.positions_perm hpositions).filterMap fun position => graph.nodes[position]?
  rwa [filterMap_getElem?_range] at hnodes

/-- In an order, the source of a connection stands before its target. -/
theorem WellFormed.order_precedes (hgraph : graph.WellFormed) {order : List Node}
    (h : graph.order = .ok order) {source target : String}
    (hconnects : graph.Connects source target) :
    Precedes (order.map Node.id) source target := by
  have hids : (order.map Node.id).Perm graph.ids := (hgraph.order_perm h).map Node.id
  obtain ⟨edge, hedge, hsource, htarget⟩ := hconnects
  refine ⟨hids.mem_iff.mpr (List.mem_of_getElem? hsource),
    hids.mem_iff.mpr (List.mem_of_getElem? htarget), ?_⟩
  obtain ⟨positions, hpositions, rfl⟩ := order_eq_ok h
  obtain ⟨-, hrespects⟩ :=
    Dependencies.order_ok (Dependencies.wellFormed_ofGraph hgraph) hpositions
  have hnodup : positions.Nodup :=
    (hgraph.positions_perm hpositions).nodup_iff.mpr List.nodup_range
  intro i j hi hj
  exact hrespects.lt hnodup (hgraph.getElem?_positions hpositions hi hsource)
    (hgraph.getElem?_positions hpositions hj htarget)
    ((Dependencies.mem_of_ofGraph hgraph).mpr ⟨edge, hedge, rfl, rfl⟩)

/-- A graph is not cyclic if some list has the source of each connection before its target. -/
theorem not_cyclic_of_precedes {ids : List String}
    (h : ∀ source target, graph.Connects source target → Precedes ids source target) :
    ¬ graph.Cyclic := by
  rintro ⟨id, hcycle⟩
  -- places in the list grow along connections, so no walk comes back to where it started
  have hlater : ∀ target, Relation.TransGen graph.Connects id target →
      ids.idxOf id < ids.idxOf target := by
    intro target hwalk
    induction hwalk with
    | single hconnects => exact (h _ _ hconnects).idxOf_lt
    | tail _ hconnects ih => exact ih.trans (h _ _ hconnects).idxOf_lt
  exact lt_irrefl _ (hlater id hcycle)

/-- A graph with an order is not cyclic. -/
theorem WellFormed.not_cyclic_of_order (hgraph : graph.WellFormed) {order : List Node}
    (h : graph.order = .ok order) : ¬ graph.Cyclic :=
  not_cyclic_of_precedes fun _ _ hconnects => hgraph.order_precedes h hconnects

/-! ## Failures -/

/-- A failure lists the ids of a circle of at least two different nodes, each connected to the one
before it, and names the first of them. -/
theorem WellFormed.order_error (hgraph : graph.WellFormed) {failure : Failure}
    (h : graph.order = .error failure) :
    ∃ first rest, failure = .ofCycle (first :: rest ++ [first]) ∧ rest ≠ [] ∧
      (first :: rest).Nodup ∧
      (first :: rest ++ [first]).IsChain fun target source => graph.Connects source target := by
  obtain ⟨path, hpath, rfl⟩ := order_eq_error h
  have hdeps := Dependencies.wellFormed_ofGraph hgraph
  have hcircle := Dependencies.order_error hdeps hpath
  have hlt := hcircle.lt_size hdeps
  rw [Dependencies.size_ofGraph] at hlt
  obtain ⟨first, rest, rfl, hnodup, hchain⟩ := hcircle
  have hids : graph.idAt first :: rest.map graph.idAt ++ [graph.idAt first] =
      (first :: rest ++ [first]).map graph.idAt := by simp
  refine ⟨graph.idAt first, rest.map graph.idAt, by rw [hids], ?_, ?_, ?_⟩
  · -- a circle through one node would need an edge from the node to itself
    intro hrest
    rw [List.map_eq_nil_iff.mp hrest] at hchain
    exact hdeps.ne_self (List.isChain_pair.mp hchain) rfl
  · refine hnodup.map_on (f := graph.idAt) ?_
    intro p hp q hq hsame
    have hp' := getElem?_ids (hlt p (List.mem_append_left _ hp))
    have hq' := getElem?_ids (hlt q (List.mem_append_left _ hq))
    exact hgraph.position_eq hp' (hsame ▸ hq')
  · rw [hids, List.isChain_map]
    exact hchain.imp fun _ _ hdep => hgraph.connects_of_mem hdep

/-- Each member of a list that goes along a relation from a node back to it is on a circle. -/
theorem transGen_of_isChain_circle {first : String} {rest : List String}
    (h : (first :: rest ++ [first]).IsChain fun target source => graph.Connects source target) :
    ∀ id ∈ first :: rest ++ [first], Relation.TransGen graph.Connects id id := by
  have htrans : Trans (fun target source => Relation.TransGen graph.Connects source target)
      (fun target source => Relation.TransGen graph.Connects source target)
      (fun target source => Relation.TransGen graph.Connects source target) :=
    ⟨fun hab hbc => hbc.trans hab⟩
  have hwalks : (first :: rest ++ [first]).IsChain fun target source =>
      Relation.TransGen graph.Connects source target :=
    h.imp fun _ _ hconnects => .single hconnects
  obtain ⟨hinner, -, hback⟩ := List.pairwise_append.mp hwalks.pairwise
  -- each member is reached from the first and reaches it
  have hfirst : ∀ id ∈ first :: rest, Relation.TransGen graph.Connects first id := fun id hid =>
    hback id hid first (List.mem_singleton.mpr rfl)
  have hself : Relation.TransGen graph.Connects first first := hfirst first List.mem_cons_self
  intro id hid
  rw [List.mem_append, List.mem_cons, List.mem_singleton] at hid
  rcases hid with (rfl | hid) | rfl
  · exact hself
  · exact ((List.pairwise_cons.mp hinner).1 id hid).trans
      (hfirst id (List.mem_cons_of_mem first hid))
  · exact hself

/-- There is a failure exactly if the accepted connections lead from some node back to it. -/
theorem WellFormed.order_error_iff_cyclic (hgraph : graph.WellFormed) :
    (∃ failure, graph.order = .error failure) ↔ graph.Cyclic := by
  constructor
  · rintro ⟨failure, h⟩
    obtain ⟨first, rest, -, -, -, hchain⟩ := hgraph.order_error h
    exact ⟨first, transGen_of_isChain_circle hchain first List.mem_cons_self⟩
  · intro hcyclic
    cases h : graph.order with
    | error failure => exact ⟨failure, rfl⟩
    | ok order => exact absurd hcyclic (hgraph.not_cyclic_of_order h)

end Graph

/-! ## Flows -/

/-- An order of the nodes of a flow has each accepted node once and nothing else, and each accepted
connection leads from an earlier node to a later one. -/
theorem order_lists_dependencies_first (flow : Flow) {order : List Node}
    (h : (Graph.build flow).order = .ok order) : (Graph.build flow).IsEmissionOrder order := by
  have hgraph := Graph.build_wellFormed flow
  have hperm := hgraph.order_perm h
  have hids : (order.map Node.id).Perm (Graph.build flow).ids := hperm.map Node.id
  refine ⟨hperm, hids.nodup_iff.mpr hgraph.ids_nodup, ?_⟩
  intro source target hconnects
  exact hgraph.order_precedes h hconnects

/-- A flow of messages, each with the id of its node as its text, and of connections without ids. -/
def messageFlow (ids : List String) (connections : List (String × String)) : Flow where
  nodes := ids.map fun id => ⟨id, "LOG_MESSAGE", .object [("message", .string id)]⟩
  connections := connections.map fun (source, target) => ⟨"", source, target, none, none⟩

/-- Two ways from one node to another, all listed the wrong way round. -/
def diamond : Flow :=
  messageFlow ["d", "b", "c", "a"] [("a", "b"), ("a", "c"), ("b", "d"), ("c", "d")]

/-- Both ways through a diamond come after its source and before its target. -/
theorem diamond_lists_dependencies_first :
    ∃ order, (Graph.build diamond).order = .ok order ∧
      order.map Node.id = ["a", "b", "c", "d"] ∧ (Graph.build diamond).IsEmissionOrder order := by
  have h : (Graph.build diamond).order = .ok (["a", "b", "c", "d"].map fun id =>
      ⟨id, .message, Component.decode .message (.object [("message", .string id)])⟩) := by
    cbv
  exact ⟨_, h, rfl, order_lists_dependencies_first diamond h⟩

/-- When the nodes of a flow have no order, the failure shows a circle of accepted connections. -/
theorem order_failure_shows_circle (flow : Flow) {failure : Failure}
    (h : (Graph.build flow).order = .error failure) :
    ∃ k, (Graph.build flow).ShowsCircle failure k := by
  obtain ⟨first, rest, rfl, hrest, hnodup, hchain⟩ :=
    (Graph.build_wellFormed flow).order_error h
  have hcircles := Graph.transGen_of_isChain_circle hchain
  have hlength : (first :: rest ++ [first]).length = (first :: rest).length + 1 := by simp
  refine ⟨(first :: rest).length, ?_, hlength, ?_, ?_, ?_, ?_, rfl, hcircles⟩
  · have hpos := List.length_pos_iff.mpr hrest
    rw [List.length_cons]
    omega
  · show (first :: rest ++ [first])[(first :: rest).length]? = _
    rw [List.getElem?_append_right (Nat.le_refl _), Nat.sub_self]
    rfl
  · show ((first :: rest ++ [first]).take (first :: rest).length).Nodup
    rwa [List.take_left]
  · intro id hid
    obtain ⟨next, ⟨edge, -, hsource, -⟩, -⟩ := Relation.TransGen.head'_iff.mp (hcircles id hid)
    exact List.mem_of_getElem? hsource
  · intro i hi
    have hi' : i + 1 < (first :: rest ++ [first]).length := by omega
    exact ⟨_, _, List.getElem?_eq_getElem hi', List.getElem?_eq_getElem (Nat.lt_of_succ_lt hi'),
      List.isChain_iff_getElem.mp hchain i hi'⟩

/-- A node that depends on one of two nodes that depend on each other. -/
def circleBehindRoot : Flow :=
  messageFlow ["root", "x", "y"] [("x", "root"), ("y", "x"), ("x", "y")]

/-- The search comes to the circle from the root, which is not listed. -/
theorem circleBehindRoot_shows_circle :
    ∃ failure, (Graph.build circleBehindRoot).order = .error failure ∧
      failure.cycle = ["x", "y", "x"] ∧
      ∃ k, (Graph.build circleBehindRoot).ShowsCircle failure k := by
  have h : (Graph.build circleBehindRoot).order = .error (.ofCycle ["x", "y", "x"]) := by
    cbv
  exact ⟨_, h, rfl, order_failure_shows_circle circleBehindRoot h⟩

end TestFlow
