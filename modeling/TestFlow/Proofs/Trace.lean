import TestFlow.Trace
import TestFlow.Proofs.Compile.Blocks
import TestFlow.Proofs.Editor
import TestFlow.Proofs.Flow.ReadBack
import Mathlib.Data.Finset.Card

/-!
# A trace accounts for its document

Who has the trace of a compilation can tell what became of the flow without seeing the document.
Building the graph warns of every record that is not accepted, once and in the order of the
rejections, and nothing that comes later warns of anything.  Then either the nodes have an order,
and each of them is told of when its steps have been made, or there is a circle, and no node is.

The numbers in a trace add up.  A rejection is one step of the document, and all other steps are
those of the nodes, so the warnings and the steps that the nodes are said to have made come to the
number of steps of the document as a whole.

Reference: specification, §7 (errors) and §10.2 (logging).

## Main definitions

* `Event.Reports` — an event reports a rejection;
* `warnings`, `worded` — the warnings of a trace, and its events with a given wording;
* `Flow.TellsDocument`, `Flow.TellsCircle` — what a trace tells of a document, or of a circle.

## Main statement

* `trace_accounts_for_document` — the trace of a text accounts for its document.
-/

namespace TestFlow

namespace Event

/-- The value of the field of an event with a name. -/
def field? (event : Event) (name : String) : Option String :=
  event.fields.lookup name

/-- An event has the code of a rejection, and the id of the node or connection that was rejected. -/
structure Reports (event : Event) (rejection : Rejection) : Prop where
  code_eq : event.field? "code" = some rejection.code
  subject_eq : event.field? "node_id" = some rejection.subject ∨
    event.field? "connection_id" = some rejection.subject

end Event

def warnings (events : List Event) : List Event :=
  events.filter fun event => event.level = .warn

def worded (message : String) (events : List Event) : List Event :=
  events.filter fun event => event.message = message

theorem warnings_append (events others : List Event) :
    warnings (events ++ others) = warnings events ++ warnings others :=
  List.filter_append ..

theorem worded_append (message : String) (events others : List Event) :
    worded message (events ++ others) = worded message events ++ worded message others :=
  List.filter_append ..

theorem worded_eq_nil {message : String} {events : List Event}
    (h : ∀ event ∈ events, event.message ≠ message) : worded message events = [] :=
  List.filter_eq_nil_iff.mpr fun event hevent => by simpa using h event hevent

/-! ## Warnings -/

/-- What is told of an outcome: a refusal is warned of, and nothing else is. -/
inductive Told {β : Type} : Option Event → Except Rejection β → Prop
  | refused {event : Event} {rejection : Rejection} (hlevel : event.level = .warn)
      (hreports : event.Reports rejection) : Told (some event) (.error rejection)
  | accepted {event? : Option Event} (hlevel : ∀ event ∈ event?, event.level ≠ .warn) (b : β) :
      Told event? (.ok b)

/-- The warnings among what is told of some outcomes report the refusals one by one. -/
theorem forall₂_reports_refused {β : Type} {told : List (Option Event)}
    {outcomes : List (Except Rejection β)} (h : List.Forall₂ Told told outcomes) :
    List.Forall₂ Event.Reports (warnings (told.filterMap id)) (refused outcomes) := by
  induction h with
  | nil => exact .nil
  | @cons event? outcome told outcomes hfirst _ ih =>
      cases hfirst with
      | @refused event rejection hlevel hreports =>
          rw [List.filterMap_cons_some (f := id) rfl, refused_error_cons, warnings,
            List.filter_cons_of_pos (by simpa using hlevel)]
          exact .cons hreports ih
      -- an accepted record may be told of too, but not as a warning
      | accepted hlevel b =>
          rw [refused_ok_cons]
          cases event? with
          | none => exact ih
          | some event =>
              rw [List.filterMap_cons_some (f := id) rfl, warnings,
                List.filter_cons_of_neg (by simpa using hlevel event rfl)]
              exact ih

/-- What is told of a node when it is accepted or rejected. -/
theorem told_acceptNode (taken : List String) (record : NodeRecord) :
    Told (record.event? (Graph.acceptNode taken record)) (Graph.acceptNode taken record) := by
  have hfate := Graph.nodeFate_acceptNode taken record
  cases houtcome : Graph.acceptNode taken record with
  | error rejection =>
      rw [houtcome] at hfate
      exact .refused rfl ⟨rfl, Or.inl (congrArg some hfate.code_iff.1.symm)⟩
  | ok node =>
      refine .accepted ?_ node
      rw [NodeRecord.event?]
      split
      · rintro event ⟨⟩
      · rintro event ⟨⟩
        exact Level.noConfusion

/-- What is told of a connection when it is accepted or rejected. -/
theorem told_acceptConnection (nodes : List Node) (earlier : List String)
    (record : ConnectionRecord) :
    Told (record.event? (Graph.acceptConnection nodes earlier record))
      (Graph.acceptConnection nodes earlier record) := by
  have hfate := Graph.connectionFate_acceptConnection nodes earlier record
  cases houtcome : Graph.acceptConnection nodes earlier record with
  | error rejection =>
      rw [houtcome] at hfate
      exact .refused rfl ⟨rfl, Or.inr (congrArg some hfate.code_iff.1.symm)⟩
  | ok edge => exact .accepted (by rintro event ⟨⟩) edge

/-- Every outcome of a node is told of by what stands in its place. -/
theorem told_nodeOutcomes (records : List NodeRecord) (taken : List String) :
    List.Forall₂ Told
      (List.zipWith NodeRecord.event? records (sift Graph.acceptNode Node.id taken records))
      (sift Graph.acceptNode Node.id taken records) := by
  -- the ids that are taken change along the list, so the claim is made for any of them
  induction records generalizing taken with
  | nil => exact .nil
  | cons record rest ih =>
      have hfirst := told_acceptNode taken record
      rw [sift]
      cases houtcome : Graph.acceptNode taken record with
      | error rejection =>
          rw [houtcome] at hfirst
          exact .cons hfirst (ih taken)
      | ok node =>
          rw [houtcome] at hfirst
          exact .cons hfirst (ih (node.id :: taken))

/-- Every outcome of a connection is told of by what stands in its place. -/
theorem told_connectionOutcomes (nodes : List Node) (records : List ConnectionRecord)
    (earlier : List String) :
    List.Forall₂ Told
      (List.zipWith ConnectionRecord.event? records
        (Graph.connectionOutcomes nodes earlier records))
      (Graph.connectionOutcomes nodes earlier records) := by
  induction records generalizing earlier with
  | nil => exact .nil
  | cons record rest ih =>
      exact .cons (told_acceptConnection nodes earlier record) (ih (record.id :: earlier))

/-- Building a graph warns of its rejections one by one. -/
theorem Flow.forall₂_reports_buildEvents (flow : Flow) :
    List.Forall₂ Event.Reports (warnings flow.buildEvents) (Graph.build flow).rejections := by
  rw [Flow.buildEvents, warnings_append]
  exact List.rel_append (forall₂_reports_refused (told_nodeOutcomes flow.nodes []))
    (forall₂_reports_refused (told_connectionOutcomes _ flow.connections []))

/-- The wordings of the events of building a graph. -/
def buildWordings : List String :=
  ["Dropping node", "Node payload does not match its kind", "Dropping connection"]

/-- The events of nodes have their wordings. -/
theorem NodeRecord.message_of_event? {record : NodeRecord} {outcome : Except Rejection Node}
    {event : Event} (h : record.event? outcome = some event) : event.message ∈ buildWordings := by
  unfold NodeRecord.event? at h
  split at h
  · cases h
    simp [Event.message, buildWordings]
  · split at h
    · cases h
    · cases h
      simp [Event.message, buildWordings]

/-- The events of connections have their wordings. -/
theorem ConnectionRecord.message_of_event? {record : ConnectionRecord}
    {outcome : Except Rejection Edge} {event : Event} (h : record.event? outcome = some event) :
    event.message ∈ buildWordings := by
  unfold ConnectionRecord.event? at h
  split at h
  · cases h
    simp [Event.message, buildWordings]
  · cases h

/-- So all events of building a graph have their wordings. -/
theorem Flow.message_of_mem_buildEvents {flow : Flow} {event : Event}
    (h : event ∈ flow.buildEvents) : event.message ∈ buildWordings := by
  rw [Flow.buildEvents, List.mem_append, List.mem_filterMap, List.mem_filterMap,
    ← List.map_uncurry_zip_eq_zipWith, ← List.map_uncurry_zip_eq_zipWith] at h
  rcases h with ⟨event?, hmem, hevent⟩ | ⟨event?, hmem, hevent⟩
  · obtain ⟨⟨record, outcome⟩, -, rfl⟩ := List.mem_map.mp hmem
    exact NodeRecord.message_of_event? hevent
  · obtain ⟨⟨record, outcome⟩, -, rfl⟩ := List.mem_map.mp hmem
    exact ConnectionRecord.message_of_event? hevent

/-- No event of building a graph is taken for one that comes later. -/
theorem Flow.worded_buildEvents (flow : Flow) {message : String} (h : message ∉ buildWordings) :
    worded message flow.buildEvents = [] := by
  refine worded_eq_nil fun event hevent heq => h ?_
  rw [← heq]
  exact Flow.message_of_mem_buildEvents hevent

/-! ## Nodes -/

/-- The event of a node whose steps have been made. -/
def Node.emitted (node : Node) : Event :=
  .emittedNode node.id node.kind.typeName node.steps.length

/-- A node may first ask for a comparison that is not known, and then its steps are made. -/
theorem Node.events_cases (node : Node) :
    node.events = [node.emitted] ∨
      ∃ operator, node.events = [.unrecognizedOperator node.id operator, node.emitted] := by
  rw [Node.events]
  split
  · rename_i component _
    cases component.unrecognized? with
    | none => exact Or.inl rfl
    | some operator => exact Or.inr ⟨operator, rfl⟩
  · exact Or.inl rfl

/-- An event of compiling nodes is that of a node whose steps were made, or of a comparison that
is not known. -/
theorem exists_of_mem_flatMap_events {order : List Node} {event : Event}
    (h : event ∈ order.flatMap Node.events) :
    ∃ node : Node, event = node.emitted ∨
      ∃ operator, event = .unrecognizedOperator node.id operator := by
  obtain ⟨node, -, hevent⟩ := List.mem_flatMap.mp h
  refine ⟨node, ?_⟩
  rcases node.events_cases with hevents | ⟨operator, hevents⟩
  · rw [hevents, List.mem_singleton] at hevent
    exact Or.inl hevent
  · rw [hevents, List.mem_pair] at hevent
    exact hevent.symm.imp_right fun hoperator => ⟨operator, hoperator⟩

/-- Compiling nodes warns of nothing. -/
theorem warnings_flatMap_events (order : List Node) :
    warnings (order.flatMap Node.events) = [] := by
  rw [warnings, List.filter_eq_nil_iff]
  intro event hevent
  obtain ⟨node, rfl | ⟨operator, rfl⟩⟩ := exists_of_mem_flatMap_events hevent
  · simp [Node.emitted, Event.level]
  · simp [Event.level]

/-- No event of a node is taken for that of the document. -/
theorem worded_compiled_flatMap_events (order : List Node) :
    worded "Compiled flow" (order.flatMap Node.events) = [] := by
  refine worded_eq_nil fun event hevent => ?_
  obtain ⟨node, rfl | ⟨operator, rfl⟩⟩ := exists_of_mem_flatMap_events hevent
  · simp [Node.emitted, Event.message]
  · simp [Event.message]

/-- The nodes tell of themselves in their order, each of them once. -/
theorem worded_emitted_flatMap_events (order : List Node) :
    worded "Emitted node" (order.flatMap Node.events) = order.map Node.emitted := by
  induction order with
  | nil => rfl
  | cons node rest ih =>
      have hnode : worded "Emitted node" node.events = [node.emitted] := by
        rcases node.events_cases with hevents | ⟨operator, hevents⟩
        · rw [hevents]
          rfl
        · rw [hevents]
          rfl
      rw [List.flatMap_cons, worded_append, ih, hnode, List.map_cons, List.singleton_append]

/-! ## Documents and circles -/

/-- The events of compiling a graph whose nodes have an order. -/
theorem Graph.compileEvents_of_order {graph : Graph} {order : List Node}
    (h : graph.order = .ok order) :
    graph.compileEvents =
      [.resolvedOrder order.length graph.edges.length] ++ order.flatMap Node.events ++
        [.compiled graph.nodes.length (graph.steps order).length
          ((graph.steps order).countP Step.isDiagnostic)] := by
  rw [Graph.compileEvents, h]
  rfl

/-- The events of compiling a graph whose nodes have no order. -/
theorem Graph.compileEvents_of_failure {graph : Graph} {failure : Failure}
    (h : graph.order = .error failure) :
    graph.compileEvents =
      [.foundCycle (failure.node.getD "") (failure.cycle.length - 1),
        .aborted failure.display] := by
  rw [Graph.compileEvents, h]

/-- Compiling a graph warns of nothing. -/
theorem Graph.warnings_compileEvents (graph : Graph) : warnings graph.compileEvents = [] := by
  cases horder : graph.order with
  | error failure =>
      rw [Graph.compileEvents_of_failure horder]
      rfl
  | ok order =>
      rw [Graph.compileEvents_of_order horder, warnings_append, warnings_append,
        warnings_flatMap_events]
      rfl

/-- A trace warns of the rejections one by one, whether or not there is a document. -/
theorem Flow.forall₂_reports_events (flow : Flow) :
    List.Forall₂ Event.Reports (warnings flow.events) (Graph.build flow).rejections := by
  rw [Flow.events, warnings_append, Graph.warnings_compileEvents, List.append_nil]
  exact flow.forall₂_reports_buildEvents

namespace Flow

/-- What a trace tells of a document whose nodes come in the given order: of each node once that its
steps were made, and at the end of the document as a whole.  The steps of the nodes and the warnings
come to the steps of the document. -/
structure TellsDocument (flow : Flow) (order : List Node) (document : Document)
    (events : List Event) : Prop where
  nodes_eq : (worded "Emitted node" events).map (Event.field? · "node_id") =
    order.map fun node => some node.id
  types_eq : (worded "Emitted node" events).map (Event.field? · "node_type") =
    order.map fun node => some node.kind.typeName
  exists_counts : ∃ counts : List Nat,
    (worded "Emitted node" events).map (Event.field? · "emitted") =
      counts.map (fun count => some count.repr) ∧
    counts.sum + (warnings events).length = document.steps.length ∧
    ∀ (i count : Nat), counts[i]? = some count →
      ((Graph.build flow).emit (order.take (i + 1))).length =
        ((Graph.build flow).emit (order.take i)).length + count
  exists_compiled : ∃ event, worded "Compiled flow" events = [event] ∧
    event.field? "node_count" = some (Graph.build flow).nodes.length.repr ∧
    event.field? "step_count" = some document.steps.length.repr ∧
    event.field? "diagnostic_count" =
      some (document.steps.filter Step.isDiagnostic).length.repr

/-- What a trace tells of a circle: how many different nodes it has, and nothing of any steps. -/
structure TellsCircle (failure : Failure) (events : List Event) : Prop where
  no_nodes : worded "Emitted node" events = []
  no_document : worded "Compiled flow" events = []
  exists_circle : ∃ event, worded "Dependency cycle detected" events = [event] ∧
    event.field? "node_id" = failure.node ∧
    event.field? "cycle_len" = some failure.cycle.toFinset.card.repr

/-- The trace of a flow whose nodes have an order tells of its document. -/
theorem tellsDocument_of_order {flow : Flow} {order : List Node}
    (h : (Graph.build flow).order = .ok order) :
    flow.TellsDocument order (.ofSteps ((Graph.build flow).steps order)) flow.events := by
  have hemitted : worded "Emitted node" flow.events = order.map Node.emitted := by
    rw [Flow.events, worded_append, flow.worded_buildEvents (by decide),
      Graph.compileEvents_of_order h, worded_append, worded_append, worded_emitted_flatMap_events]
    exact List.append_nil _
  have hcompiled : worded "Compiled flow" flow.events =
      [.compiled (Graph.build flow).nodes.length ((Graph.build flow).steps order).length
        (((Graph.build flow).steps order).countP Step.isDiagnostic)] := by
    rw [Flow.events, worded_append, flow.worded_buildEvents (by decide),
      Graph.compileEvents_of_order h, worded_append, worded_append, worded_compiled_flatMap_events]
    rfl
  refine ⟨?_, ?_, ⟨order.map fun node => node.steps.length, ?_, ?_, ?_⟩, ?_⟩
  · rw [hemitted, List.map_map]
    rfl
  · rw [hemitted, List.map_map]
    rfl
  · rw [hemitted, List.map_map, List.map_map]
    rfl
  -- a rejection has one warning in the trace and one diagnostic in the document
  · show _ = ((Graph.build flow).steps order).length
    rw [flow.forall₂_reports_events.length_eq, Graph.steps, List.length_append, List.length_map,
      List.length_flatMap, Nat.add_comm]
  · -- the steps of a node are those by which the document grows with it
    intro i count hcount
    rw [List.getElem?_map, Option.map_eq_some_iff] at hcount
    obtain ⟨node, hnode, rfl⟩ := hcount
    rw [Graph.emit_eq_steps, Graph.emit_eq_steps, List.take_add_one, hnode, Graph.steps,
      Graph.steps, List.flatMap_append, List.length_append, List.length_append,
      List.length_append, Option.toList_some, List.flatMap_singleton, Nat.add_assoc]
  · refine ⟨_, hcompiled, rfl, rfl, ?_⟩
    rw [← List.countP_eq_length_filter]
    rfl

/-- The trace of a flow whose nodes have no order tells of a circle. -/
theorem tellsCircle_of_failure {flow : Flow} {failure : Failure}
    (h : (Graph.build flow).order = .error failure) : TellsCircle failure flow.events := by
  have hworded : ∀ message, message ∉ buildWordings → worded message flow.events =
      worded message [.foundCycle (failure.node.getD "") (failure.cycle.length - 1),
        .aborted failure.display] := by
    intro message hmessage
    rw [Flow.events, worded_append, flow.worded_buildEvents hmessage, List.nil_append,
      Graph.compileEvents_of_failure h]
  refine ⟨hworded _ (by decide), hworded _ (by decide), _, hworded _ (by decide), ?_, ?_⟩
  · obtain ⟨first, rest, rfl, -⟩ := (Graph.build_wellFormed flow).order_error h
    rfl
  · obtain ⟨first, rest, rfl, -, hnodup, -⟩ := (Graph.build_wellFormed flow).order_error h
    -- the first node is listed twice and all others once
    have hsame : (first :: rest ++ [first]).toFinset = (first :: rest).toFinset := by
      ext id
      simp
    have hcard : (first :: rest ++ [first]).toFinset.card =
        (first :: rest ++ [first]).length - 1 := by
      rw [hsame, List.toFinset_card_of_nodup hnodup, List.length_append]
      rfl
    exact congrArg (fun count => some (Nat.repr count)) hcard.symm

end Flow

/-! ## Main statement -/

/-- The warnings in the trace of a text that can be read report the rejections of its flow, one by
one and in their order.  If the text compiles, the trace tells of its accepted nodes in the order of
their steps, and the numbers in it add up to those of the document; if it does not, the trace tells
of a circle and of no node. -/
theorem trace_accounts_for_document (s : String) (flow : Flow) (h : Flow.parse s = .ok flow) :
    List.Forall₂ Event.Reports (warnings (traceText s)) (Graph.build flow).rejections ∧
      (∀ text, compileText s = .ok text → ∃ order document,
        (Graph.build flow).order = .ok order ∧ order.Perm (Graph.build flow).nodes ∧
        flow.compile = .ok document ∧ text = document.render ∧
        flow.TellsDocument order document (traceText s)) ∧
      ∀ failure, compileText s = .error failure → Flow.TellsCircle failure (traceText s) := by
  have htrace : traceText s = flow.events := by
    rw [traceText, Flow.read_eq_ok_iff.mpr h]
  rw [htrace, compileText_of_parse_ok h]
  refine ⟨flow.forall₂_reports_events, fun text htext => ?_, fun failure hfailure => ?_⟩
  · cases hcompile : flow.compile with
    | error failure =>
        rw [hcompile] at htext
        cases htext
    | ok document =>
        rw [hcompile] at htext
        cases htext
        obtain ⟨order, horder, rfl⟩ := Graph.exists_order_of_compile hcompile
        exact ⟨order, _, horder, (Graph.build_wellFormed flow).order_perm horder, rfl, rfl,
          Flow.tellsDocument_of_order horder⟩
  · cases hcompile : flow.compile with
    | error failure' =>
        rw [hcompile] at hfailure
        cases hfailure
        exact Flow.tellsCircle_of_failure (Graph.compile_eq_error_iff.mp hcompile)
    | ok document =>
        rw [hcompile] at hfailure
        cases hfailure

/-- A flow of messages is read back from its text. -/
theorem parse_compact_messageFlow (ids : List String) (connections : List (String × String)) :
    Flow.parse (messageFlow ids connections).compact = .ok (messageFlow ids connections) := by
  have hpayload : ∀ node ∈ (messageFlow ids connections).nodes, ∃ message : String,
      node.data = .object [("message", .string message)] := by
    intro node hnode
    obtain ⟨id, -, rfl⟩ := List.mem_map.mp hnode
    exact ⟨id, rfl⟩
  refine Flow.parse_compact ?_ ?_
  · intro node hnode
    obtain ⟨message, hdata⟩ := hpayload node hnode
    rw [hdata]
    simp
  · intro node hnode
    obtain ⟨message, hdata⟩ := hpayload node hnode
    rw [hdata]
    simp [Json.depth, Json.fieldsDepth]

/-- Two messages that wait for each other, with a node whose id is taken and a connection that leads
nowhere. -/
def waitingMessages : Flow :=
  messageFlow ["x", "y", "x"] [("y", "x"), ("x", "y"), ("x", "z")]

/-- Records that are not accepted are warned of before a document and before a circle. -/
theorem untidyMessages_and_waitingMessages_are_traced :
    (Flow.parse untidyMessages.compact = .ok untidyMessages ∧
      (warnings (traceText untidyMessages.compact)).length = 2 ∧
      ∃ order document, order.map Node.id = ["a", "b"] ∧
        untidyMessages.TellsDocument order document (traceText untidyMessages.compact)) ∧
    Flow.parse waitingMessages.compact = .ok waitingMessages ∧
      (warnings (traceText waitingMessages.compact)).length = 2 ∧
      Flow.TellsCircle (.ofCycle ["x", "y", "x"]) (traceText waitingMessages.compact) := by
  have huntidy : Flow.parse untidyMessages.compact = .ok untidyMessages :=
    parse_compact_messageFlow _ _
  have hwaiting : Flow.parse waitingMessages.compact = .ok waitingMessages :=
    parse_compact_messageFlow _ _
  have horder : (Graph.build untidyMessages).order = .ok (["a", "b"].map fun id =>
      ⟨id, .message, Component.decode .message (.object [("message", .string id)])⟩) := by
    cbv
  have hcircle : (Graph.build waitingMessages).order = .error (.ofCycle ["x", "y", "x"]) := by
    cbv
  have htext := compileText_of_parse_ok huntidy
  rw [Flow.compile, Graph.compile_of_order horder] at htext
  have hfails := compileText_of_parse_ok hwaiting
  rw [Flow.compile, Graph.compile_eq_error_iff.mpr hcircle] at hfails
  obtain ⟨hwarnings, hdocument, -⟩ := trace_accounts_for_document _ untidyMessages huntidy
  obtain ⟨hwarnings', -, hfailure⟩ := trace_accounts_for_document _ waitingMessages hwaiting
  refine ⟨⟨huntidy, ?_, ?_⟩, hwaiting, ?_, hfailure _ hfails⟩
  · rw [hwarnings.length_eq]
    decide +kernel
  · obtain ⟨order, document, horder', -, -, -, htells⟩ := hdocument _ htext
    cases horder.symm.trans horder'
    exact ⟨_, document, rfl, htells⟩
  · rw [hwarnings'.length_eq]
    decide +kernel

end TestFlow
