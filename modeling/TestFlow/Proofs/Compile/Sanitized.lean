import TestFlow.Proofs.Compile.Blocks
import TestFlow.Proofs.Compile.Failure

/-!
# Rejected records leave no trace

A flow is *sanitized* by taking away the records that are not accepted.  Building the graph of what
is left accepts all of it and gives the same nodes and edges, at the same positions.

This is not plain to see, since a record is held against the records before it, and some of those
are gone.  A node record is only held against records that were accepted, so nothing changes for it.
A connection record is held against all connection records before it; with fewer of them there are
fewer ids that it must not repeat, so one that was accepted is accepted again
(`acceptConnection_of_subset`).  The order of the nodes is made from nodes and edges alone, so a
sanitized flow compiles to the same steps, without those that report a rejection.

Reference: specification, §3 (what is dropped with a diagnostic) and §7 (recoverable errors).

## Main definitions

* `kept` — the entries of a list that were accepted;
* `Flow.sanitized` — the records of a flow that are accepted.

## Main statement

* `sanitizing_leaves_no_trace` — a sanitized flow has the same graph and compiles alike.
-/

namespace TestFlow

/-! ## Accepted entries -/

section Kept

variable {α β ε κ : Type}

/-- The entries whose outcomes accept them, where the outcomes are in the order of the entries. -/
def kept (entries : List α) (outcomes : List (Except ε β)) : List α :=
  (entries.zip outcomes).filterMap fun
    | (a, .ok _) => some a
    | (_, .error _) => none

@[simp] theorem kept_nil (outcomes : List (Except ε β)) : kept ([] : List α) outcomes = [] := by
  simp [kept]

@[simp] theorem kept_ok_cons (a : α) (entries : List α) (b : β) (outcomes : List (Except ε β)) :
    kept (a :: entries) (.ok b :: outcomes) = a :: kept entries outcomes := rfl

@[simp] theorem kept_error_cons (a : α) (entries : List α) (e : ε)
    (outcomes : List (Except ε β)) :
    kept (a :: entries) (.error e :: outcomes) = kept entries outcomes := rfl

/-- Entries are kept in their order. -/
theorem kept_sublist (entries : List α) (outcomes : List (Except ε β)) :
    (kept entries outcomes).Sublist entries := by
  induction entries generalizing outcomes with
  | nil =>
      rw [kept_nil]
  | cons a entries ih =>
      rcases outcomes with _ | ⟨e | b, outcomes⟩
      · exact List.nil_sublist _
      · rw [kept_error_cons]
        exact (ih outcomes).cons a
      · rw [kept_ok_cons]
        exact (ih outcomes).cons_cons a

/-- Where all entries are accepted, all are kept. -/
theorem kept_map_ok {entries : List α} {bs : List β} (h : entries.length = bs.length) :
    kept entries (bs.map (Except.ok : β → Except ε β)) = entries := by
  induction entries generalizing bs with
  | nil =>
      rw [kept_nil]
  | cons a entries ih =>
      rcases bs with _ | ⟨b, bs⟩
      · cases h
      · rw [List.length_cons, List.length_cons] at h
        rw [List.map_cons, kept_ok_cons, ih (by omega)]

/-- As many entries are kept as are accepted. -/
theorem length_kept {entries : List α} {outcomes : List (Except ε β)}
    (h : outcomes.length = entries.length) :
    (kept entries outcomes).length = (accepted outcomes).length := by
  induction entries generalizing outcomes with
  | nil =>
      rw [List.length_nil, List.length_eq_zero_iff] at h
      rw [h]
      rfl
  | cons a entries ih =>
      rcases outcomes with _ | ⟨e | b, outcomes⟩
      · cases h
      · rw [List.length_cons, List.length_cons] at h
        rw [kept_error_cons, accepted_error_cons, ih (by omega)]
      · rw [List.length_cons, List.length_cons] at h
        rw [kept_ok_cons, accepted_ok_cons, List.length_cons, List.length_cons, ih (by omega)]

/-- Sifting the entries that were accepted accepts all of them again, as what they were. -/
theorem sift_kept (check : List κ → α → Except ε β) (key : β → κ) (entries : List α)
    (taken : List κ) :
    sift check key taken (kept entries (sift check key taken entries)) =
      (accepted (sift check key taken entries)).map .ok := by
  induction entries generalizing taken with
  | nil => rfl
  | cons a entries ih =>
      rw [sift]
      cases hcheck : check taken a with
      | error e =>
          -- the entries behind were checked as if this one had not been there
          simp only [kept_error_cons, accepted_error_cons]
          exact ih taken
      | ok b =>
          simp only [kept_ok_cons, accepted_ok_cons, sift, hcheck, List.map_cons]
          rw [ih (key b :: taken)]

end Kept

/-! ## Accepted records -/

namespace Graph

/-- A connection that is accepted is accepted if fewer ids are used before it. -/
theorem acceptConnection_of_subset {nodes : List Node} {earlier fewer : List String}
    {record : ConnectionRecord} {edge : Edge} (hfewer : fewer ⊆ earlier)
    (h : acceptConnection nodes earlier record = .ok edge) :
    acceptConnection nodes fewer record = .ok edge := by
  rw [acceptConnection_eq_ok_iff] at h ⊢
  obtain ⟨hunused, hjoins⟩ := h
  refine ⟨?_, hjoins⟩
  rcases hunused with hblank | hnew
  · exact Or.inl hblank
  · exact Or.inr fun hmem => hnew (hfewer hmem)

/-- The connections that were accepted are all accepted again, as the edges they were. -/
theorem connectionOutcomes_kept (nodes : List Node) (records : List ConnectionRecord)
    {earlier fewer : List String} (hfewer : fewer ⊆ earlier) :
    connectionOutcomes nodes fewer (kept records (connectionOutcomes nodes earlier records)) =
      (accepted (connectionOutcomes nodes earlier records)).map .ok := by
  induction records generalizing earlier fewer with
  | nil => rfl
  | cons record records ih =>
      rw [connectionOutcomes]
      cases houtcome : acceptConnection nodes earlier record with
      | error rejection =>
          -- the id of a rejected record counts as used before, and no longer
          simp only [kept_error_cons, accepted_error_cons]
          exact ih (List.subset_cons_of_subset _ hfewer)
      | ok edge =>
          have hagain := acceptConnection_of_subset hfewer houtcome
          simp only [kept_ok_cons, accepted_ok_cons, connectionOutcomes, hagain, List.map_cons]
          rw [ih (List.cons_subset_cons _ hfewer)]

/-- The order of the nodes does not depend on what was rejected. -/
theorem order_with_rejections (graph : Graph) (rejections : List Rejection) :
    ({ graph with rejections := rejections } : Graph).order = graph.order := rfl

end Graph

namespace Flow

/-- The flow of the records that are accepted. -/
def sanitized (flow : Flow) : Flow where
  nodes := kept flow.nodes (Graph.nodeOutcomes flow.nodes)
  connections := kept flow.connections
    (Graph.connectionOutcomes (Graph.build flow).nodes [] flow.connections)

/-- All node records of a sanitized flow are accepted, as the nodes they were. -/
theorem nodeOutcomes_sanitized (flow : Flow) :
    Graph.nodeOutcomes flow.sanitized.nodes = (Graph.build flow).nodes.map .ok :=
  sift_kept _ _ _ _

/-- All its connection records are accepted, as the edges they were. -/
theorem connectionOutcomes_sanitized (flow : Flow) :
    Graph.connectionOutcomes (Graph.build flow).nodes [] flow.sanitized.connections =
      (Graph.build flow).edges.map .ok :=
  Graph.connectionOutcomes_kept _ _ (List.Subset.refl [])

/-- A sanitized flow has the same graph, except that nothing is rejected. -/
theorem build_sanitized (flow : Flow) :
    Graph.build flow.sanitized = { Graph.build flow with rejections := [] } := by
  have hnodes : accepted (Graph.nodeOutcomes flow.sanitized.nodes) = (Graph.build flow).nodes := by
    rw [nodeOutcomes_sanitized, accepted_map_ok]
  rw [Graph.build, hnodes, nodeOutcomes_sanitized, connectionOutcomes_sanitized]
  simp

/-- Sanitizing a second time changes nothing. -/
theorem sanitized_sanitized (flow : Flow) : flow.sanitized.sanitized = flow.sanitized := by
  have hnodes : flow.sanitized.nodes.length = (Graph.build flow).nodes.length :=
    length_kept (length_sift _ _ _ _)
  have hconnections : flow.sanitized.connections.length = (Graph.build flow).edges.length :=
    length_kept (Graph.length_connectionOutcomes _ _ _)
  rw [sanitized, nodeOutcomes_sanitized, kept_map_ok hnodes, build_sanitized,
    connectionOutcomes_sanitized, kept_map_ok hconnections]

end Flow

/-- Taking away the records that are not accepted gives a flow in which all are accepted, with the
same nodes, edges and dependencies, and taking them away again changes nothing.  Both flows fail
with the same circle, or both compile, and then to the same steps behind those of the rejections. -/
theorem sanitizing_leaves_no_trace (flow : Flow) :
    flow.sanitized.nodes.Sublist flow.nodes ∧
      flow.sanitized.connections.Sublist flow.connections ∧
      flow.sanitized.sanitized = flow.sanitized ∧
      Graph.build flow.sanitized = { Graph.build flow with rejections := [] } ∧
      Dependencies.ofGraph (Graph.build flow.sanitized) =
        Dependencies.ofGraph (Graph.build flow) ∧
      ((∃ failure, flow.compile = .error failure ∧ flow.sanitized.compile = .error failure) ∨
        ∃ steps, flow.sanitized.compile = .ok (.ofSteps steps) ∧
          flow.compile =
            .ok (.ofSteps ((Graph.build flow).rejections.map Rejection.step ++ steps))) := by
  have hbuild := flow.build_sanitized
  refine ⟨kept_sublist _ _, kept_sublist _ _, flow.sanitized_sanitized, hbuild, ?_, ?_⟩
  · rw [hbuild]
    rfl
  -- The rejections are the only difference of the two graphs, and the order does not look at them.
  · have horder : (Graph.build flow.sanitized).order = (Graph.build flow).order := by
      rw [hbuild, Graph.order_with_rejections]
    rcases hresult : (Graph.build flow).order with failure | order
    · refine Or.inl ⟨failure, Graph.compile_eq_error_iff.mpr hresult, ?_⟩
      exact Graph.compile_eq_error_iff.mpr (horder.trans hresult)
    · refine Or.inr ⟨order.flatMap Node.steps, ?_, Graph.compile_of_order hresult⟩
      rw [Flow.compile, Graph.compile_of_order (horder.trans hresult), hbuild]
      rfl

end TestFlow
