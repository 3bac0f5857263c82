import TestFlow.Proofs.Compile.Blocks
import TestFlow.Proofs.Compile.Failure

/-!
# What payloads and ports can change

The *outline* of a flow is what is left of it without the payloads of its nodes and the ports of its
connections.  It settles which records are accepted, where the accepted nodes stand, which of them
the edges join and therefore the order of the nodes, or the circle that there is instead of one.
A payload is decoded while the graph is built, and still has no part in any of this: it shows in the
block of its own node and nowhere else.  Ports do not show at all.

Each fact is about two flows with the same outline.  What a check makes of a record is compared
after forgetting all but the id of the node or the ends of the edge, and the comparison is carried
along the list of records.

Reference: specification, §3 (node, connection) and §4.1 (compile operation).

## Main definitions

* `Flow.outline` — a flow without payloads and ports;
* `Flow.blockOf` — the block of the node with an id.

## Main statement

* `payloads_show_in_their_blocks` — flows with the same outline have documents that differ in the
  blocks of the nodes whose payloads differ.
-/

namespace TestFlow

/-! ## Outlines -/

/-- A node record without its payload. -/
def NodeRecord.outline (record : NodeRecord) : String × String :=
  (record.id, record.typeName)

/-- A record is told by its outline and its payload. -/
theorem NodeRecord.eq_of_outline {record other : NodeRecord}
    (houtline : record.outline = other.outline) (hdata : record.data = other.data) :
    record = other := by
  obtain ⟨hid, htype⟩ := Prod.mk.inj houtline
  rcases record with ⟨id, typeName, data⟩
  rcases other with ⟨id', typeName', data'⟩
  subst hid htype hdata
  rfl

/-- A connection record without its ports. -/
def ConnectionRecord.outline (record : ConnectionRecord) : String × String × String :=
  (record.id, record.source, record.target)

/-- A flow without payloads and ports. -/
def Flow.outline (flow : Flow) : List (String × String) × List (String × String × String) :=
  (flow.nodes.map NodeRecord.outline, flow.connections.map ConnectionRecord.outline)

namespace Graph

/-! ## Records with the same outline -/

/-- The payload of a node has no part in whether it is accepted. -/
theorem map_id_acceptNode_congr (taken : List String) (record other : NodeRecord)
    (h : record.outline = other.outline) :
    (acceptNode taken record).map Node.id = (acceptNode taken other).map Node.id := by
  obtain ⟨hid, htype⟩ := Prod.mk.inj h
  rw [acceptNode, acceptNode, hid, htype]
  split
  · rfl
  · split
    · rfl
    -- The payload is decoded only here, and what comes of it is forgotten with all but the id.
    · rcases Kind.ofTypeName? other.typeName with _ | kind <;> rfl

/-- Along a list of records too, only the outlines tell which ids are accepted and why others are
not. -/
theorem map_id_nodeOutcomes_congr {records others : List NodeRecord}
    (h : records.map NodeRecord.outline = others.map NodeRecord.outline) :
    (nodeOutcomes records).map (Except.map Node.id) =
      (nodeOutcomes others).map (Except.map Node.id) :=
  map_key_sift_congr map_id_acceptNode_congr h []

/-- The ids that a record is held against are told by the outline. -/
theorem takenBefore_congr {records others : List NodeRecord}
    (h : records.map NodeRecord.outline = others.map NodeRecord.outline) (i : Nat) :
    takenBefore records i = takenBefore others i := by
  rw [takenBefore, takenBefore, ← accepted_map_map, ← accepted_map_map, List.map_take,
    List.map_take, map_id_nodeOutcomes_congr h]

/-- The position of an id is told by the ids. -/
theorem position?_eq_findIdx? (nodes : List Node) (id : String) :
    position? nodes id = (nodes.map Node.id).findIdx? (· == id) := by
  rw [List.findIdx?_map]
  rfl

/-- The ports of a connection have no part in whether it is accepted and what it joins. -/
theorem map_ends_acceptConnection_congr {nodes others : List Node}
    (hids : nodes.map Node.id = others.map Node.id) (earlier : List String)
    (record other : ConnectionRecord) (h : record.outline = other.outline) :
    (acceptConnection nodes earlier record).map Edge.ends =
      (acceptConnection others earlier other).map Edge.ends := by
  obtain ⟨hid, hends⟩ := Prod.mk.inj h
  obtain ⟨hsource, htarget⟩ := Prod.mk.inj hends
  simp only [acceptConnection, position?_eq_findIdx?, hids, hid, hsource, htarget]
  split
  · rfl
  · split
    · split <;> rfl
    · rfl
    · rfl

/-- Along a list of connections too, only the outlines tell what is joined and what is rejected. -/
theorem map_ends_connectionOutcomes_congr {nodes others : List Node}
    (hids : nodes.map Node.id = others.map Node.id) {records records' : List ConnectionRecord}
    (h : records.map ConnectionRecord.outline = records'.map ConnectionRecord.outline)
    (earlier : List String) :
    (connectionOutcomes nodes earlier records).map (Except.map Edge.ends) =
      (connectionOutcomes others earlier records').map (Except.map Edge.ends) := by
  -- Both lists are taken apart together, since their outlines are the same list; the ids before a
  -- record grow alike.
  induction records generalizing records' earlier with
  | nil =>
      obtain rfl : records' = [] := List.map_eq_nil_iff.mp h.symm
      rfl
  | cons record records ih =>
      obtain ⟨record', records', rfl, hhead, hrest⟩ := List.map_eq_cons_iff.mp h.symm
      have hid : record.id = record'.id := congrArg Prod.fst hhead.symm
      rw [connectionOutcomes, connectionOutcomes, List.map_cons, List.map_cons, hid,
        map_ends_acceptConnection_congr hids earlier record record' hhead.symm,
        ih hrest.symm (record'.id :: earlier)]

/-! ## Graphs of flows with the same outline -/

variable {flow other : Flow}

/-- The accepted ids are told by the outline. -/
theorem build_ids_congr (h : flow.outline = other.outline) :
    (build flow).ids = (build other).ids := by
  have hnodes := map_id_nodeOutcomes_congr (congrArg Prod.fst h)
  rw [ids, ids, build, build, ← accepted_map_map, ← accepted_map_map, hnodes]

/-- The outcomes of the connections are told by the outline, up to the ports. -/
theorem build_connectionOutcomes_congr (h : flow.outline = other.outline) :
    (connectionOutcomes (build flow).nodes [] flow.connections).map (Except.map Edge.ends) =
      (connectionOutcomes (build other).nodes [] other.connections).map (Except.map Edge.ends) :=
  map_ends_connectionOutcomes_congr (build_ids_congr h) (congrArg Prod.snd h) []

/-- What the edges join is told by the outline. -/
theorem build_ends_congr (h : flow.outline = other.outline) :
    (build flow).edges.map Edge.ends = (build other).edges.map Edge.ends := by
  have hedges := congrArg accepted (build_connectionOutcomes_congr h)
  rwa [accepted_map_map, accepted_map_map] at hedges

/-- The rejections are told by the outline. -/
theorem build_rejections_congr (h : flow.outline = other.outline) :
    (build flow).rejections = (build other).rejections := by
  have hnodes := congrArg refused (map_id_nodeOutcomes_congr (congrArg Prod.fst h))
  have hconnections := congrArg refused (build_connectionOutcomes_congr h)
  rw [refused_map_map, refused_map_map] at hnodes hconnections
  exact congrArg₂ (· ++ ·) hnodes hconnections

/-- The order of the ids, or the failure, is told by the ids and the ends of the edges. -/
theorem map_id_order_congr {graph other : Graph} (hids : graph.ids = other.ids)
    (hends : graph.edges.map Edge.ends = other.edges.map Edge.ends) :
    graph.order.map (List.map Node.id) = other.order.map (List.map Node.id) := by
  have hid : ∀ position : Nat,
      graph.nodes[position]?.map Node.id = other.nodes[position]?.map Node.id := by
    intro position
    rw [← List.getElem?_map, ← List.getElem?_map]
    exact congrArg (·[position]?) hids
  rw [Graph.order, Graph.order, ofGraph_congr hids hends, idAt_congr hids]
  -- The search is the same for both graphs.  A circle is shown by its ids, and an order is read off
  -- the positions.
  rcases (Dependencies.ofGraph other).order with circle | positions
  · rfl
  · apply congrArg Except.ok
    rw [List.map_filterMap, List.map_filterMap, funext hid]

/-- The outcome of a record is told by the outline of its flow and its own payload. -/
theorem getElem?_nodeOutcomes_congr (h : flow.outline = other.outline) {i : Nat}
    (hdata : flow.nodes[i]?.map NodeRecord.data = other.nodes[i]?.map NodeRecord.data) :
    (nodeOutcomes flow.nodes)[i]? = (nodeOutcomes other.nodes)[i]? := by
  have hnodes : flow.nodes.map NodeRecord.outline = other.nodes.map NodeRecord.outline :=
    congrArg Prod.fst h
  have houtline := congrArg (·[i]?) hnodes
  simp only [List.getElem?_map] at houtline
  have hrecord : flow.nodes[i]? = other.nodes[i]? := by
    rcases hleft : flow.nodes[i]? with _ | record <;>
      rcases hright : other.nodes[i]? with _ | record'
    all_goals rw [hleft, hright] at houtline hdata
    · cases hdata
    · cases hdata
    · rw [NodeRecord.eq_of_outline (Option.some.inj houtline) (Option.some.inj hdata)]
  rw [getElem?_nodeOutcomes, getElem?_nodeOutcomes, hrecord, takenBefore_congr hnodes]

/-- A record whose counterpart is accepted is accepted, with the same id. -/
theorem exists_accepted_congr (h : flow.outline = other.outline) {i : Nat} {node : Node}
    (hnode : (nodeOutcomes flow.nodes)[i]? = some (.ok node)) :
    ∃ node', (nodeOutcomes other.nodes)[i]? = some (.ok node') ∧ node'.id = node.id := by
  have hids := congrArg (·[i]?) (map_id_nodeOutcomes_congr (congrArg Prod.fst h))
  simp only [List.getElem?_map, hnode, Option.map_some] at hids
  obtain ⟨outcome, houtcome, hid⟩ := Option.map_eq_some_iff.mp hids.symm
  rcases outcome with rejection | node'
  · cases hid
  · exact ⟨node', houtcome, Except.ok.inj hid⟩

end Graph

/-! ## Blocks by id -/

namespace Flow

/-- The block of the accepted node with an id. -/
def blockOf (flow : Flow) (id : String) : List Step :=
  (((Graph.build flow).nodes.find? fun node => node.id == id).map Node.block).getD []

variable {flow other : Flow}

/-- An id tells the node, so it tells the block. -/
theorem blockOf_id {node : Node} (h : node ∈ (Graph.build flow).nodes) :
    flow.blockOf node.id = node.block := by
  rw [blockOf, find?_key (Graph.build_ids_nodup flow) h]
  rfl

/-- Where the records of an id have the same payload, the id has the same block. -/
theorem blockOf_congr (h : flow.outline = other.outline) {id : String}
    (hid : id ∈ (Graph.build flow).ids)
    (hdata : ∀ (i : Nat) (node : Node),
      (Graph.nodeOutcomes flow.nodes)[i]? = some (.ok node) → node.id = id →
        flow.nodes[i]?.map NodeRecord.data = other.nodes[i]?.map NodeRecord.data) :
    flow.blockOf id = other.blockOf id := by
  obtain ⟨node, hnode, rfl⟩ := List.mem_map.mp hid
  obtain ⟨i, hi⟩ := List.mem_iff_getElem?.mp (mem_accepted.mp hnode)
  have hother := (Graph.getElem?_nodeOutcomes_congr h (hdata i node hi rfl)).symm.trans hi
  have hmem : node ∈ (Graph.build other).nodes := mem_accepted.mpr (List.mem_of_getElem? hother)
  rw [blockOf_id hnode, blockOf_id hmem]

/-- A flow compiles, and the nodes of its document come in the order of the ids. -/
structure CompilesInOrder (flow : Flow) (ids : List String) : Prop where
  perm : ids.Perm (Graph.build flow).ids
  order_eq : (Graph.build flow).order.map (List.map Node.id) = .ok ids
  compile_eq : flow.compile = .ok (.ofSteps
    ((Graph.build flow).rejections.map Rejection.step ++ ids.flatMap flow.blockOf))

/-- A flow whose nodes have an order compiles in it. -/
theorem compilesInOrder_of_order {order : List Node} (h : (Graph.build flow).order = .ok order) :
    flow.CompilesInOrder (order.map Node.id) := by
  have hperm := (Graph.build_wellFormed flow).order_perm h
  refine ⟨hperm.map Node.id, by rw [h]; rfl, ?_⟩
  have hblocks : (order.map Node.id).flatMap flow.blockOf = order.flatMap Node.steps := by
    rw [List.flatMap_map]
    apply List.flatMap_congr
    intro node hnode
    rw [blockOf_id (hperm.mem_iff.mp hnode), node.block_eq_steps]
  rw [Flow.compile, Graph.compile_of_order h, hblocks]
  rfl

/-- The block of a node stands where its id is in the order. -/
theorem CompilesInOrder.compile_eq_around {front back : List String} {node : Node}
    (h : flow.CompilesInOrder (front ++ node.id :: back))
    (hnode : node ∈ (Graph.build flow).nodes) :
    flow.compile = .ok (.ofSteps
      ((Graph.build flow).rejections.map Rejection.step ++ front.flatMap flow.blockOf ++
        node.block ++ back.flatMap flow.blockOf)) := by
  rw [h.compile_eq, List.flatMap_append, List.flatMap_cons, blockOf_id hnode, List.append_assoc,
    List.append_assoc]

/-- Flows with the same outline fail alike, or compile in the same order. -/
theorem compile_congr (h : flow.outline = other.outline) :
    (∃ failure, flow.compile = .error failure ∧ other.compile = .error failure) ∨
      ∃ ids, flow.CompilesInOrder ids ∧ other.CompilesInOrder ids := by
  have horders := Graph.map_id_order_congr (Graph.build_ids_congr h) (Graph.build_ends_congr h)
  rcases horder : (Graph.build flow).order with failure | order <;>
    rcases hother : (Graph.build other).order with failure' | order'
  all_goals rw [horder, hother] at horders
  · obtain rfl : failure = failure' := Except.error.inj horders
    exact Or.inl ⟨failure, Graph.compile_eq_error_iff.mpr horder,
      Graph.compile_eq_error_iff.mpr hother⟩
  · cases horders
  · cases horders
  · have hids : order.map Node.id = order'.map Node.id := Except.ok.inj horders
    refine Or.inr ⟨order.map Node.id, compilesInOrder_of_order horder, ?_⟩
    rw [hids]
    exact compilesInOrder_of_order hother

/-- Where the payloads of all records but one are the same, so are the blocks of all ids but that of
the record, if it is accepted. -/
theorem blockOf_congr_of_ne (h : flow.outline = other.outline) {i : Nat}
    (hdata : ∀ j : Nat, j ≠ i →
      flow.nodes[j]?.map NodeRecord.data = other.nodes[j]?.map NodeRecord.data)
    {id : String} (hid : id ∈ (Graph.build flow).ids)
    (hne : ∀ node, (Graph.nodeOutcomes flow.nodes)[i]? = some (.ok node) → node.id ≠ id) :
    flow.blockOf id = other.blockOf id := by
  apply blockOf_congr h hid
  rintro j node hj hnode
  apply hdata j
  rintro rfl
  exact hne node hj hnode

/-- A payload that changes by itself changes its own block, or nothing if its record is not
accepted. -/
theorem compile_congr_of_ne (h : flow.outline = other.outline) {i : Nat}
    (hdata : ∀ j : Nat, j ≠ i →
      flow.nodes[j]?.map NodeRecord.data = other.nodes[j]?.map NodeRecord.data) :
    flow.compile = other.compile ∨
      ∃ node node' before after,
        (Graph.nodeOutcomes flow.nodes)[i]? = some (.ok node) ∧
        (Graph.nodeOutcomes other.nodes)[i]? = some (.ok node') ∧
        flow.compile = .ok (.ofSteps (before ++ node.block ++ after)) ∧
        other.compile = .ok (.ofSteps (before ++ node'.block ++ after)) := by
  rcases compile_congr h with ⟨failure, hflow, hother⟩ | ⟨ids, hflow, hother⟩
  · exact Or.inl (hflow.trans hother.symm)
  have hblock : ∀ id ∈ ids,
      (∀ node, (Graph.nodeOutcomes flow.nodes)[i]? = some (.ok node) → node.id ≠ id) →
        flow.blockOf id = other.blockOf id := by
    intro id hid hne
    exact blockOf_congr_of_ne h hdata (hflow.perm.mem_iff.mp hid) hne
  by_cases haccepted : ∃ node, (Graph.nodeOutcomes flow.nodes)[i]? = some (.ok node)
  · obtain ⟨node, hnode⟩ := haccepted
    obtain ⟨node', hnode', hid⟩ := Graph.exists_accepted_congr h hnode
    have hmem := mem_accepted.mpr (List.mem_of_getElem? hnode)
    have hmem' := mem_accepted.mpr (List.mem_of_getElem? hnode')
    obtain ⟨front, back, rfl⟩ :=
      List.append_of_mem (hflow.perm.mem_iff.mpr (List.mem_map_of_mem hmem))
    -- the id comes once in the order, so the blocks on both sides of it are those of other ids
    have hnodup := hflow.perm.nodup_iff.mpr (Graph.build_ids_nodup flow)
    have honce : node.id ∉ front ++ back := (List.nodup_cons.mp (List.nodup_middle.mp hnodup)).1
    have hside : ∀ side, side ⊆ front ++ back →
        side.flatMap other.blockOf = side.flatMap flow.blockOf := by
      intro side hsub
      apply List.flatMap_congr
      intro id hid
      refine (hblock id ?_ ?_).symm
      · exact List.perm_middle.mem_iff.mpr (List.mem_cons_of_mem _ (hsub hid))
      · rintro found hfound rfl
        obtain rfl : node = found := Except.ok.inj (Option.some.inj (hnode.symm.trans hfound))
        exact honce (hsub hid)
    refine Or.inr ⟨node, node', _, _, hnode, hnode', hflow.compile_eq_around hmem, ?_⟩
    rw [← hid] at hother
    rw [hother.compile_eq_around hmem', hside front (List.subset_append_left _ _),
      hside back (List.subset_append_right _ _), Graph.build_rejections_congr h]
  · left
    have hblocks : ids.flatMap flow.blockOf = ids.flatMap other.blockOf := by
      apply List.flatMap_congr
      intro id hid
      exact hblock id hid fun node hnode => absurd ⟨node, hnode⟩ haccepted
    rw [hflow.compile_eq, hother.compile_eq, hblocks, Graph.build_rejections_congr h]

end Flow

/-- Flows with the same outline reject the same records, and fail alike or have documents whose
nodes come in the same order.  A record with the same payload in both has the same node and block.
So a payload that changes by itself changes no more than its own block, and ports change nothing. -/
theorem payloads_show_in_their_blocks {flow other : Flow} (h : flow.outline = other.outline) :
    (Graph.build flow).rejections = (Graph.build other).rejections ∧
      ((∃ failure, flow.compile = .error failure ∧ other.compile = .error failure) ∨
        ∃ ids, flow.CompilesInOrder ids ∧ other.CompilesInOrder ids) ∧
      (∀ (i : Nat) (node : Node),
        flow.nodes[i]?.map NodeRecord.data = other.nodes[i]?.map NodeRecord.data →
          (Graph.nodeOutcomes flow.nodes)[i]? = some (.ok node) →
            (Graph.nodeOutcomes other.nodes)[i]? = some (.ok node) ∧
              flow.blockOf node.id = node.block ∧ other.blockOf node.id = node.block) ∧
      (∀ i : Nat,
        (∀ j, j ≠ i → flow.nodes[j]?.map NodeRecord.data = other.nodes[j]?.map NodeRecord.data) →
          flow.compile = other.compile ∨
            ∃ node node' before after,
              (Graph.nodeOutcomes flow.nodes)[i]? = some (.ok node) ∧
              (Graph.nodeOutcomes other.nodes)[i]? = some (.ok node') ∧
              flow.compile = .ok (.ofSteps (before ++ node.block ++ after)) ∧
              other.compile = .ok (.ofSteps (before ++ node'.block ++ after))) ∧
      (flow.nodes = other.nodes → flow.compile = other.compile) := by
  refine ⟨Graph.build_rejections_congr h, Flow.compile_congr h, ?_, ?_, ?_⟩
  · intro i node hdata hnode
    have hother := (Graph.getElem?_nodeOutcomes_congr h hdata).symm.trans hnode
    exact ⟨hother, Flow.blockOf_id (mem_accepted.mpr (List.mem_of_getElem? hnode)),
      Flow.blockOf_id (mem_accepted.mpr (List.mem_of_getElem? hother))⟩
  · intro i hdata
    exact Flow.compile_congr_of_ne h hdata
  · intro hnodes
    rcases Flow.compile_congr h with ⟨failure, hflow, hother⟩ | ⟨ids, hflow, hother⟩
    · exact hflow.trans hother.symm
    · have hblocks : flow.blockOf = other.blockOf := by
        funext id
        rw [Flow.blockOf, Flow.blockOf, Graph.build, Graph.build, hnodes]
      rw [hflow.compile_eq, hother.compile_eq, hblocks, Graph.build_rejections_congr h]

/-- The untidy messages, where the first has no payload that can be read, and with ports. -/
def tornMessages : Flow where
  nodes := ⟨"b", "LOG_MESSAGE", .bool true⟩ :: (messageFlow ["a", "b"] []).nodes
  connections := untidyMessages.connections.map fun record => { record with output := some "out" }

/-- The payload that cannot be read is reported in its own block; all else in the document stays. -/
theorem tornMessages_show_in_their_blocks :
    untidyMessages.outline = tornMessages.outline ∧
      (Graph.build untidyMessages).rejections = (Graph.build tornMessages).rejections ∧
      untidyMessages.compile ≠ tornMessages.compile ∧
      ∃ node node' before after,
        (Graph.nodeOutcomes untidyMessages.nodes)[0]? = some (.ok node) ∧
        (Graph.nodeOutcomes tornMessages.nodes)[0]? = some (.ok node') ∧
        untidyMessages.compile = .ok (.ofSteps (before ++ node.block ++ after)) ∧
        tornMessages.compile = .ok (.ofSteps (before ++ node'.block ++ after)) := by
  have houtline : untidyMessages.outline = tornMessages.outline := rfl
  have hdata : ∀ j : Nat, j ≠ 0 →
      untidyMessages.nodes[j]?.map NodeRecord.data =
        tornMessages.nodes[j]?.map NodeRecord.data := by
    rintro (_ | j) hj
    · exact absurd rfl hj
    · rfl
  have horder : (Graph.build untidyMessages).order = .ok (["a", "b"].map fun id =>
      ⟨id, .message, Component.decode .message (.object [("message", .string id)])⟩) := by
    cbv
  have htorn : (Graph.build tornMessages).order = .ok
      [⟨"a", .message, Component.decode .message (.object [("message", .string "a")])⟩,
        ⟨"b", .message, Component.decode .message (.bool true)⟩] := by
    cbv
  have hne : untidyMessages.compile ≠ tornMessages.compile := by
    rw [Flow.compile, Flow.compile, Graph.compile_of_order horder, Graph.compile_of_order htorn]
    intro hsame
    have hsteps := congrArg Document.steps (Except.ok.inj hsame)
    revert hsteps
    decide +kernel
  obtain ⟨hrejections, -, -, hchange, -⟩ := payloads_show_in_their_blocks houtline
  exact ⟨houtline, hrejections, hne, (hchange 0 hdata).resolve_left hne⟩

end TestFlow
