import TestFlow.Proofs.Graph.Incoming

/-!
# Stability of the order

Of the many orders that put dependencies first, the search gives one that leaves the list as it was
where it can.  A node overtakes one that was listed before it only for a reason: that node, or one
listed even earlier, depends on it.

The reason is in how the search goes.  Roots are taken by position, so once the root at a position
has been visited, all that is placed has been reached from roots up to there (`ReachedBelow`), and
what is placed later comes behind (`placed_prefix_of_visits`).  So whatever stands before the node
at a position is a dependency, near or far, of a root up to this position (`order_stable`).

If nodes are listed behind their dependencies, nothing that a node depends on is listed behind it,
so no node has a reason to overtake another.  This is the case for a flow that lists its nodes in
the order that the search gave: it accepts the same nodes and connections, and finds the same order.

Reference: specification, §4.2 (nodes in input order, dependencies first).

## Main definitions

* `Search.ReachedBelow` — what the search has come to, it has reached from the first roots;
* `Graph.IsStable` — a node overtakes another only for the sake of it or of one listed earlier;
* `Graph.ListedInOrder` — nodes are listed behind their dependencies;
* `Flow.relisted` — the accepted records of a flow, listed in the order of their nodes.

## Main statement

* `emission_order_is_stable` — the order of a flow is stable, and listing its records in this order
  gives the same order again.
-/

namespace TestFlow

/-- A position is one of the dependencies of another. -/
def Dependencies.LeadsTo (deps : Dependencies) (dep node : Nat) : Prop :=
  dep ∈ deps.of node

/-! ## What the search has reached -/

namespace Search

variable {deps : Dependencies} {search result : Search} {n root : Nat}

/-- All that is on the stack or placed is a dependency, near or far, of roots below a bound. -/
def ReachedBelow (deps : Dependencies) (n : Nat) (search : Search) : Prop :=
  ∀ node, node ∈ search.active ∨ node ∈ search.placed →
    ∃ root < n, Relation.ReflTransGen deps.LeadsTo node root

/-- A turn comes to nothing new but a dependency of a node on the stack. -/
theorem Turn.seen_cases (hturn : Turn deps search result) {node : Nat}
    (h : node ∈ result.active ∨ node ∈ result.placed) :
    (node ∈ search.active ∨ node ∈ search.placed) ∨
      ∃ user ∈ search.active, deps.LeadsTo node user := by
  obtain ⟨top, below, hstack, hstep⟩ := hturn
  rw [active_of_stack_cons hstack]
  rcases step_ok_cases hstep with ⟨-, rfl⟩ | ⟨next, hnext, ⟨-, rfl⟩ | ⟨-, rfl⟩⟩
  · rw [active_finish, placed_finish, List.mem_append, List.mem_singleton] at h
    rw [List.mem_cons]
    tauto
  · rw [active_advance, placed_advance] at h
    exact Or.inl h
  · rw [active_enter, active_advance, placed_enter, placed_advance, List.mem_cons, or_assoc] at h
    rcases h with rfl | h
    · exact Or.inr ⟨top.node, List.mem_cons_self, List.mem_of_getElem? hnext⟩
    · exact Or.inl h

/-- A turn goes on to dependencies only, so it stays below the bound. -/
theorem ReachedBelow.turn (h : ReachedBelow deps n search) (hturn : Turn deps search result) :
    ReachedBelow deps n result := by
  intro node hnode
  rcases hturn.seen_cases hnode with hseen | ⟨user, huser, hleads⟩
  · exact h node hseen
  · obtain ⟨root, hroot, hreach⟩ := h user (Or.inl huser)
    exact ⟨root, hroot, hreach.head hleads⟩

/-- Turns stay below the bound, since each of them does. -/
theorem ReachedBelow.turns (h : ReachedBelow deps n search)
    (hturns : Relation.ReflTransGen (Turn deps) search result) : ReachedBelow deps n result := by
  induction hturns with
  | refl => exact h
  | tail _ hturn ih => exact ih.turn hturn

/-- A turn places behind what is placed. -/
theorem Turn.placed_prefix (hturn : Turn deps search result) : search.placed <+: result.placed := by
  obtain ⟨top, below, -, hstep⟩ := hturn
  rcases step_ok_cases hstep with ⟨-, rfl⟩ | ⟨next, -, ⟨-, rfl⟩ | ⟨-, rfl⟩⟩
  · rw [placed_finish]
    exact List.prefix_append _ _
  · exact List.prefix_rfl
  · exact List.prefix_rfl

/-- Turns place behind what is placed. -/
theorem placed_prefix_of_turns (hturns : Relation.ReflTransGen (Turn deps) search result) :
    search.placed <+: result.placed := by
  induction hturns with
  | refl => exact List.prefix_rfl
  | tail _ hturn ih => exact ih.trans hturn.placed_prefix

/-- A visit does nothing, or it starts the root and takes turns. -/
theorem visit_ok_cases (hok : visit deps search root = .ok result) :
    result = search ∨ Relation.ReflTransGen (Turn deps) (search.enter root) result := by
  unfold visit at hok
  split at hok
  · exact Or.inr (turns_of_explore_ok hok).1
  · cases hok
    exact Or.inl rfl

/-- Visits of the roots of two lists are visits of the first and then of the second. -/
theorem visits_append {front back : List Nat}
    (hok : (front ++ back).foldlM (visit deps) search = .ok result) :
    ∃ middle, front.foldlM (visit deps) search = .ok middle ∧
      back.foldlM (visit deps) middle = .ok result := by
  rw [List.foldlM_append] at hok
  cases hfront : front.foldlM (visit deps) search with
  | error path =>
      rw [hfront] at hok
      cases hok
  | ok middle =>
      rw [hfront] at hok
      exact ⟨middle, rfl, hok⟩

/-- What a visit of each root keeps, the visits of all of them keep. -/
theorem visits_induction {P : Search → Prop} {roots : List Nat}
    (hvisit : ∀ root ∈ roots, ∀ search result, P search → visit deps search root = .ok result →
      P result)
    (h : P search) (hok : roots.foldlM (visit deps) search = .ok result) : P result := by
  induction roots generalizing search with
  | nil =>
      cases hok
      exact h
  | cons root roots ih =>
      rw [List.foldlM_cons] at hok
      cases hfirst : visit deps search root with
      | error path =>
          rw [hfirst] at hok
          cases hok
      | ok next =>
          rw [hfirst] at hok
          exact ih (fun other hother => hvisit other (List.mem_cons_of_mem root hother))
            (hvisit root List.mem_cons_self search next h hfirst) hok

/-- At the start the search has come to nothing. -/
theorem reachedBelow_start (deps : Dependencies) (n : Nat) :
    ReachedBelow deps n (start deps.size) := by
  rintro node (hnode | hnode)
  · cases hnode
  · simp [placed, start] at hnode

/-- The visit of a root below the bound stays below it. -/
theorem ReachedBelow.visit (h : ReachedBelow deps n search) (hroot : root < n)
    (hok : visit deps search root = .ok result) : ReachedBelow deps n result := by
  rcases visit_ok_cases hok with rfl | hturns
  · exact h
  · refine ReachedBelow.turns ?_ hturns
    intro node hnode
    rw [active_enter, placed_enter, List.mem_cons, or_assoc] at hnode
    rcases hnode with rfl | hnode
    · exact ⟨node, hroot, .refl⟩
    · exact h node hnode

/-- Visits of roots below a bound come to nothing but dependencies of such roots. -/
theorem ReachedBelow.visits {roots : List Nat} (hroots : ∀ root ∈ roots, root < n)
    (h : ReachedBelow deps n search) (hok : roots.foldlM (Search.visit deps) search = .ok result) :
    ReachedBelow deps n result :=
  visits_induction (fun root hroot _ _ hbefore hvisit => hbefore.visit (hroots root hroot) hvisit)
    h hok

/-- Visits place behind what is placed. -/
theorem placed_prefix_of_visits {roots : List Nat}
    (hok : roots.foldlM (visit deps) search = .ok result) : search.placed <+: result.placed := by
  have hvisit : ∀ root ∈ roots, ∀ before after, search.placed <+: before.placed →
      visit deps before root = .ok after → search.placed <+: after.placed := by
    intro root _ before after hbefore hafter
    rcases visit_ok_cases hafter with rfl | hturns
    · exact hbefore
    · have hmore := placed_prefix_of_turns hturns
      rw [placed_enter] at hmore
      exact hbefore.trans hmore
  exact visits_induction hvisit List.prefix_rfl hok

end Search

/-! ## Orders of positions -/

namespace Dependencies

variable {deps : Dependencies} {order : List Nat}

/-- An order starts with a part that has a given position and nothing but dependencies of positions
up to it. -/
theorem order_prefix (hdeps : deps.WellFormed) (h : deps.order = .ok order) {i : Nat}
    (hi : i < deps.size) :
    ∃ front, front <+: order ∧ i ∈ front ∧
      ∀ node ∈ front, ∃ root ≤ i, Relation.ReflTransGen deps.LeadsTo node root := by
  obtain ⟨result, hvisits, rfl⟩ := exists_visits_of_order h
  obtain ⟨more, hsize⟩ := Nat.exists_eq_add_of_le (Nat.succ_le_of_lt hi)
  have hrange : List.range deps.size =
      List.range (i + 1) ++ (List.range more).map (i + 1 + ·) := by
    rw [hsize, List.range_add]
  -- the first part of the order is what the visits of the roots up to the position have placed
  rw [hrange] at hvisits
  obtain ⟨middle, hfront, hback⟩ := Search.visits_append hvisits
  have hroots : ∀ root ∈ List.range (i + 1), root < deps.size := by
    intro root hroot
    have hle := List.mem_range.mp hroot
    omega
  obtain ⟨-, -, hplaced⟩ := (Search.invariant_start deps).visits_ok hdeps hroots rfl hfront
  have hreached : Search.ReachedBelow deps (i + 1) middle :=
    (Search.reachedBelow_start deps (i + 1)).visits (fun root => List.mem_range.mp) hfront
  refine ⟨middle.placed, Search.placed_prefix_of_visits hback,
    hplaced i (List.mem_range.mpr (Nat.lt_succ_self i)), ?_⟩
  intro node hnode
  obtain ⟨root, hroot, hwalk⟩ := hreached node (Or.inr hnode)
  exact ⟨root, Nat.le_of_lt_succ hroot, hwalk⟩

/-- A position that comes before a smaller one is a dependency of that one or of one still smaller.
-/
theorem order_stable (hdeps : deps.WellFormed) (h : deps.order = .ok order) {i j a b : Nat}
    (hij : i < j) (ha : order[a]? = some j) (hb : order[b]? = some i) (hab : a < b) :
    ∃ root ≤ i, Relation.TransGen deps.LeadsTo j root := by
  obtain ⟨hperm, -⟩ := order_ok hdeps h
  have hi : i < deps.size := List.mem_range.mp (hperm.mem_iff.mp (List.mem_of_getElem? hb))
  obtain ⟨front, ⟨back, rfl⟩, hmem, hreached⟩ := order_prefix hdeps h hi
  -- the place of the smaller position is in the first part, so all places before it are
  obtain ⟨c, hc⟩ := List.mem_iff_getElem?.mp hmem
  have hclt : c < front.length := (List.getElem?_eq_some_iff.mp hc).1
  have hcb : c = b := by
    refine (List.getElem?_inj ?_ (hperm.nodup_iff.mpr List.nodup_range)).mp ?_
    · rw [List.length_append]
      omega
    · rw [hb, List.getElem?_append_left hclt, hc]
  rw [List.getElem?_append_left (by omega)] at ha
  obtain ⟨root, hroot, hreach⟩ := hreached j (List.mem_of_getElem? ha)
  rcases Relation.reflTransGen_iff_eq_or_transGen.mp hreach with rfl | hwalk
  · omega
  · exact ⟨root, hroot, hwalk⟩

/-- Positions that all come after their dependencies are left as they are. -/
theorem order_eq_range (hdeps : deps.WellFormed)
    (hlisted : ∀ dep node, deps.LeadsTo dep node → dep < node) (h : deps.order = .ok order) :
    order = List.range deps.size := by
  obtain ⟨hperm, -⟩ := order_ok hdeps h
  have hnodup : order.Nodup := hperm.nodup_iff.mpr List.nodup_range
  have hwalks : ∀ {dep node : Nat}, Relation.TransGen deps.LeadsTo dep node → dep < node := by
    intro dep node hwalk
    induction hwalk with
    | single hleads => exact hlisted _ _ hleads
    | tail _ hleads ih => exact ih.trans (hlisted _ _ hleads)
  -- a larger position in front of a smaller one would be a dependency of something smaller still
  have hsorted : order.Pairwise (· < ·) := by
    rw [List.pairwise_iff_getElem]
    intro a b ha hb hab
    by_contra hle
    have hne : order[a] ≠ order[b] := fun hsame => hab.ne ((hnodup.getElem_inj_iff).mp hsame)
    have hlt : order[b] < order[a] := by omega
    obtain ⟨root, hroot, hwalk⟩ := order_stable hdeps h hlt (List.getElem?_eq_getElem ha)
      (List.getElem?_eq_getElem hb) hab
    have hback := hwalks hwalk
    omega
  refine hperm.eq_of_pairwise ?_ hsorted List.pairwise_lt_range
  intro first second _ _ hlt hgt
  omega

end Dependencies

/-! ## Orders of graphs -/

namespace Graph

variable {graph : Graph} {order : List Node}

/-- Where a node stands in the order before one that was listed earlier, that node or one listed
earlier still depends on it, at once or through others. -/
def IsStable (graph : Graph) (order : List Node) : Prop :=
  ∀ (i j : Nat) (first second : String), i < j → graph.ids[i]? = some first →
    graph.ids[j]? = some second → Precedes (order.map Node.id) second first →
      ∃ k ≤ i, ∃ user, graph.ids[k]? = some user ∧ Relation.TransGen graph.Connects second user

/-- The nodes are listed in an order that has dependencies first. -/
def ListedInOrder (graph : Graph) : Prop :=
  ∀ source target, graph.Connects source target → Precedes graph.ids source target

/-- A graph that is not cyclic has an order. -/
theorem WellFormed.exists_order (hgraph : graph.WellFormed) (h : ¬ graph.Cyclic) :
    ∃ order, graph.order = .ok order := by
  cases horder : graph.order with
  | error failure => exact absurd (hgraph.order_error_iff_cyclic.mp ⟨failure, horder⟩) h
  | ok order => exact ⟨order, rfl⟩

/-- The order of a graph is stable. -/
theorem WellFormed.isStable_order (hgraph : graph.WellFormed) (h : graph.order = .ok order) :
    graph.IsStable order := by
  obtain ⟨positions, hpositions, rfl⟩ := order_eq_ok h
  intro i j first second hij hfirst hsecond ⟨hmemSecond, hmemFirst, hplaces⟩
  obtain ⟨a, ha⟩ := List.mem_iff_getElem?.mp hmemSecond
  obtain ⟨b, hb⟩ := List.mem_iff_getElem?.mp hmemFirst
  obtain ⟨root, hroot, hwalk⟩ :=
    Dependencies.order_stable (Dependencies.wellFormed_ofGraph hgraph) hpositions hij
      (hgraph.getElem?_positions hpositions ha hsecond)
      (hgraph.getElem?_positions hpositions hb hfirst) (hplaces a b ha hb)
  have hi : i < graph.nodes.length := by
    simpa [ids] using (List.getElem?_eq_some_iff.mp hfirst).1
  have hsame : graph.idAt j = second := by rw [idAt_eq_ids, hsecond, Option.getD_some]
  refine ⟨root, hroot, graph.idAt root, getElem?_ids (by omega), ?_⟩
  rw [← hsame]
  exact hwalk.lift graph.idAt fun _ _ => hgraph.connects_of_mem

/-- Nodes that are listed behind their dependencies are left in the order in which they are. -/
theorem WellFormed.order_of_listedInOrder (hgraph : graph.WellFormed) (h : graph.ListedInOrder) :
    graph.order = .ok graph.nodes := by
  obtain ⟨order, horder⟩ := hgraph.exists_order (not_cyclic_of_precedes h)
  obtain ⟨positions, hpositions, rfl⟩ := order_eq_ok horder
  have hlisted : ∀ dep node, (Dependencies.ofGraph graph).LeadsTo dep node → dep < node := by
    intro dep node hleads
    obtain ⟨edge, hedge, rfl, rfl⟩ := (Dependencies.mem_of_ofGraph hgraph).mp hleads
    have hsource := getElem?_ids (hgraph.source_lt edge hedge)
    have htarget := getElem?_ids (hgraph.target_lt edge hedge)
    obtain ⟨-, -, hplaces⟩ := h _ _ ⟨edge, hedge, hsource, htarget⟩
    exact hplaces _ _ hsource htarget
  have hrange := Dependencies.order_eq_range (Dependencies.wellFormed_ofGraph hgraph) hlisted
    hpositions
  rw [horder, hrange, Dependencies.size_ofGraph, filterMap_getElem?_range]

end Graph

/-! ## Records in another order -/

namespace Graph

/-- Records that are all accepted have the ids of the nodes that they become. -/
theorem map_id_of_nodeOutcomes {records : List NodeRecord} {nodes : List Node}
    (h : nodeOutcomes records = nodes.map .ok) :
    records.map NodeRecord.id = nodes.map Node.id := by
  apply List.ext_getElem?
  intro i
  have hi : (nodeOutcomes records)[i]? = nodes[i]?.map .ok := by rw [h, List.getElem?_map]
  rw [List.getElem?_map, List.getElem?_map]
  cases hnode : nodes[i]? with
  | none =>
      rw [hnode, Option.map_none, getElem?_nodeOutcomes, Option.map_eq_none_iff] at hi
      rw [hi]
      rfl
  | some node =>
      rw [hnode, Option.map_some] at hi
      obtain ⟨record, hrecord, hid⟩ := exists_record_of_getElem?_nodeOutcomes hi
      rw [hrecord, Option.map_some, Option.map_some, hid]

/-- Records of nodes with different ids become these nodes, in whatever order they are listed, if no
id is taken before. -/
theorem sift_acceptNode_filterMap {nodes : List Node} {record? : Node → Option NodeRecord}
    {taken : List String} (hnodup : (nodes.map Node.id).Nodup)
    (hfree : ∀ node ∈ nodes, node.id ∉ taken)
    (hrecords : ∀ node ∈ nodes, ∃ record before, record? node = some record ∧
      acceptNode before record = .ok node) :
    sift acceptNode Node.id taken (nodes.filterMap record?) = nodes.map .ok := by
  induction nodes generalizing taken with
  | nil => rfl
  | cons node nodes ih =>
      obtain ⟨hnew, hnodup⟩ := List.nodup_cons.mp hnodup
      obtain ⟨hnode, hfree⟩ := List.forall_mem_cons.mp hfree
      obtain ⟨⟨record, before, hrecord, hok⟩, hrecords⟩ := List.forall_mem_cons.mp hrecords
      -- what was taken when the record was first accepted does not matter, only that its id is free
      -- now
      have hagain : acceptNode taken record = .ok node := by
        obtain ⟨hblank, -, kind, hkind, rfl⟩ := acceptNode_eq_ok_iff.mp hok
        exact acceptNode_eq_ok_iff.mpr ⟨hblank, hnode, kind, hkind, rfl⟩
      have hbehind : ∀ other ∈ nodes, other.id ∉ node.id :: taken := by
        intro other hother hmem
        rcases List.mem_cons.mp hmem with hsame | hmem
        · exact hnew (hsame ▸ List.mem_map_of_mem hother)
        · exact hfree other hother hmem
      rw [List.filterMap_cons_some hrecord, sift, hagain, List.map_cons]
      exact congrArg (Except.ok node :: ·) (ih hnodup hbehind hrecords)

/-- Which connections are kept depends on the ids of the nodes, and not on their order. -/
theorem kept_connectionOutcomes_congr {nodes others : List Node}
    (h : ∀ id, id ∈ nodes.map Node.id ↔ id ∈ others.map Node.id) (earlier : List String)
    (records : List ConnectionRecord) :
    kept records (connectionOutcomes nodes earlier records) =
      kept records (connectionOutcomes others earlier records) := by
  induction records generalizing earlier with
  | nil => rfl
  | cons record records ih =>
      have hsame : (∃ edge, acceptConnection nodes earlier record = .ok edge) ↔
          ∃ edge, acceptConnection others earlier record = .ok edge := by
        rw [(connectionFate_acceptConnection nodes earlier record).ok_iff,
          (connectionFate_acceptConnection others earlier record).ok_iff, h, h]
      have hrest := ih (record.id :: earlier)
      rw [connectionOutcomes, connectionOutcomes]
      -- of the four cases, the two in which only one of the lists accepts the record contradict
      -- `hsame`
      rcases hleft : acceptConnection nodes earlier record with rejection | edge <;>
        rcases hright : acceptConnection others earlier record with rejection' | edge'
      all_goals rw [hleft, hright] at hsame
      · rw [kept_error_cons, kept_error_cons, hrest]
      · simp at hsame
      · simp at hsame
      · rw [kept_ok_cons, kept_ok_cons, hrest]

end Graph

namespace Flow

/-- The record that was accepted under an id. -/
def record? (flow : Flow) (id : String) : Option NodeRecord :=
  flow.sanitized.nodes.find? fun record => record.id == id

/-- The flow that lists the accepted records in the order of their nodes.  All connections stay. -/
def relisted (flow : Flow) (order : List Node) : Flow where
  nodes := order.filterMap fun node => flow.record? node.id
  connections := flow.connections

variable {flow : Flow} {order : List Node}

/-- The accepted records have the ids of the accepted nodes, in their order. -/
theorem map_id_sanitized (flow : Flow) :
    flow.sanitized.nodes.map NodeRecord.id = (Graph.build flow).ids :=
  Graph.map_id_of_nodeOutcomes flow.nodeOutcomes_sanitized

/-- No two records were accepted under one id. -/
theorem record?_id {record : NodeRecord} (h : record ∈ flow.sanitized.nodes) :
    flow.record? record.id = some record := by
  have hnodup : (flow.sanitized.nodes.map NodeRecord.id).Nodup := by
    rw [map_id_sanitized]
    exact Graph.build_ids_nodup flow
  exact find?_key hnodup h

/-- Listing the accepted records in the order in which they were changes nothing. -/
theorem filterMap_record? (flow : Flow) :
    (Graph.build flow).nodes.filterMap (fun node => flow.record? node.id) =
      flow.sanitized.nodes := by
  have hids : (Graph.build flow).nodes.filterMap (fun node => flow.record? node.id) =
      (flow.sanitized.nodes.map NodeRecord.id).filterMap flow.record? := by
    rw [map_id_sanitized, Graph.ids, List.filterMap_map]
    rfl
  have hself : ∀ record ∈ flow.sanitized.nodes,
      (flow.record? ∘ NodeRecord.id) record = some record := fun _ => record?_id
  rw [hids, List.filterMap_map, List.filterMap_congr hself, List.filterMap_some]

/-- The records that are listed anew are the accepted ones, each of them once. -/
theorem relisted_perm (h : order.Perm (Graph.build flow).nodes) :
    (flow.relisted order).nodes.Perm flow.sanitized.nodes := by
  rw [← filterMap_record?]
  exact h.filterMap _

/-- The record of an accepted node becomes the node. -/
theorem exists_record?_of_mem {node : Node} (h : node ∈ (Graph.build flow).nodes) :
    ∃ record before, flow.record? node.id = some record ∧
      Graph.acceptNode before record = .ok node := by
  have houtcome : .ok node ∈ Graph.nodeOutcomes flow.sanitized.nodes := by
    rw [nodeOutcomes_sanitized]
    exact List.mem_map_of_mem h
  obtain ⟨before, record, hrecord, hok⟩ := exists_check_of_mem_sift houtcome
  obtain ⟨-, -, kind, -, rfl⟩ := Graph.acceptNode_eq_ok_iff.mp hok
  exact ⟨record, before, record?_id hrecord, hok⟩

/-- The records that are listed anew are all accepted, in the order in which they are listed. -/
theorem nodeOutcomes_relisted (h : order.Perm (Graph.build flow).nodes) :
    Graph.nodeOutcomes (flow.relisted order).nodes = order.map .ok := by
  have hids : (order.map Node.id).Perm (Graph.build flow).ids := h.map Node.id
  apply Graph.sift_acceptNode_filterMap (hids.nodup_iff.mpr (Graph.build_ids_nodup flow))
  · exact fun _ _ => List.not_mem_nil
  · exact fun node hnode => exists_record?_of_mem (h.mem_iff.mp hnode)

/-- The flow that is listed anew has the nodes in the order given. -/
theorem nodes_build_relisted (h : order.Perm (Graph.build flow).nodes) :
    (Graph.build (flow.relisted order)).nodes = order := by
  rw [Graph.build, nodeOutcomes_relisted h, accepted_map_ok]

/-- Listing the records anew leaves the accepted connections as they are. -/
theorem connects_relisted (h : order.Perm (Graph.build flow).nodes) {source target : String} :
    (Graph.build (flow.relisted order)).Connects source target ↔
      (Graph.build flow).Connects source target := by
  have hconnections : (flow.relisted order).sanitized.connections = flow.sanitized.connections := by
    apply Graph.kept_connectionOutcomes_congr
    intro id
    rw [nodes_build_relisted h, (h.map Node.id).mem_iff]
  rw [(Graph.build_wellFormed _).connects_iff (Graph.forall₂_joins_sanitized _), hconnections,
    (Graph.build_wellFormed _).connects_iff (Graph.forall₂_joins_sanitized _)]

/-- Listing the records in the order that a flow has gives this order. -/
theorem order_relisted (h : (Graph.build flow).order = .ok order) :
    (Graph.build (flow.relisted order)).order = .ok order := by
  have hgraph := Graph.build_wellFormed flow
  have hperm := hgraph.order_perm h
  have hlisted : (Graph.build (flow.relisted order)).ListedInOrder := by
    intro source target hconnects
    rw [Graph.ids, nodes_build_relisted hperm]
    exact hgraph.order_precedes h ((connects_relisted hperm).mp hconnects)
  have horder := (Graph.build_wellFormed _).order_of_listedInOrder hlisted
  rwa [nodes_build_relisted hperm] at horder

end Flow

/-! ## Main statement -/

/-- A flow without a circle has an order, and a node that comes in it before one listed earlier is a
dependency, near or far, of that one or of one listed earlier still.  So nodes that are listed
behind their dependencies keep their order, and if the accepted records are listed in the order that
a flow has, with all connections as they were, the order is the same. -/
theorem emission_order_is_stable (flow : Flow) :
    (¬ (Graph.build flow).Cyclic →
      ∃ order, (Graph.build flow).order = .ok order ∧ (Graph.build flow).IsStable order ∧
        (flow.relisted order).nodes.Perm flow.sanitized.nodes ∧
        (flow.relisted order).nodes.map NodeRecord.id = order.map Node.id ∧
        (Graph.build (flow.relisted order)).order = .ok order) ∧
      ((Graph.build flow).ListedInOrder →
        (Graph.build flow).order = .ok (Graph.build flow).nodes) := by
  have hgraph := Graph.build_wellFormed flow
  refine ⟨?_, hgraph.order_of_listedInOrder⟩
  intro hacyclic
  obtain ⟨order, horder⟩ := hgraph.exists_order hacyclic
  have hperm := hgraph.order_perm horder
  exact ⟨order, horder, hgraph.isStable_order horder, Flow.relisted_perm hperm,
    Graph.map_id_of_nodeOutcomes (Flow.nodeOutcomes_relisted hperm), Flow.order_relisted horder⟩

/-- The last node has to come before the first, the third has the id of the first. -/
def overtakingMessages : Flow :=
  messageFlow ["x", "y", "x", "a"] [("a", "x")]

/-- The messages of the same flow, listed behind what they depend on. -/
def orderedMessages : Flow :=
  messageFlow ["a", "x", "y"] [("a", "x")]

/-- The last node overtakes the second for the sake of the first, and listed in their new order the
nodes stay where they are. -/
theorem overtakingMessages_order_is_stable :
    ¬ (Graph.build overtakingMessages).Cyclic ∧
      (∃ order, (Graph.build overtakingMessages).order = .ok order ∧
        (Graph.build overtakingMessages).ids = ["x", "y", "a"] ∧
        order.map Node.id = ["a", "x", "y"] ∧ (Graph.build overtakingMessages).IsStable order ∧
        (overtakingMessages.relisted order).nodes.Perm overtakingMessages.sanitized.nodes ∧
        (overtakingMessages.relisted order).nodes.map NodeRecord.id = ["a", "x", "y"] ∧
        (Graph.build (overtakingMessages.relisted order)).order = .ok order) ∧
      (Graph.build orderedMessages).ListedInOrder ∧
      (Graph.build orderedMessages).order = .ok (Graph.build orderedMessages).nodes := by
  have hovertaking : (Graph.build overtakingMessages).order = .ok (["a", "x", "y"].map fun id =>
      ⟨id, .message, Component.decode .message (.object [("message", .string id)])⟩) := by
    cbv
  have hacyclic := (Graph.build_wellFormed overtakingMessages).not_cyclic_of_order hovertaking
  obtain ⟨order, horder, hstable, hperm, hids, hagain⟩ :=
    (emission_order_is_stable overtakingMessages).1 hacyclic
  obtain rfl := Except.ok.inj (hovertaking.symm.trans horder)
  have hordered : (Graph.build orderedMessages).order =
      .ok (Graph.build orderedMessages).nodes := by
    cbv
  have hlisted : (Graph.build orderedMessages).ListedInOrder := fun _ _ hconnects =>
    (Graph.build_wellFormed orderedMessages).order_precedes hordered hconnects
  exact ⟨hacyclic, ⟨_, horder, by cbv, rfl, hstable, hperm, hids, hagain⟩, hlisted,
    (emission_order_is_stable orderedMessages).2 hlisted⟩

end TestFlow
