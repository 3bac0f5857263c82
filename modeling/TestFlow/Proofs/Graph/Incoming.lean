import TestFlow.Proofs.Compile.Sanitized
import TestFlow.Proofs.Firsts

/-!
# What a node depends on

That one node depends on another is told in four ways: by a connection record, which has two ids; by
an edge, which has two positions; by the sources of a node, as ids and in the order of the
connections; and by the positions that the search goes through, where a source that comes several
times counts once.  Here they are tied together.

The records that were accepted and the edges that they became stand in the same order, so the edges
into a node are found by looking for its id among the targets of the records (`map_ids_sourcesOf`).
Since no two nodes have the same id, nothing is lost on the way from ids to positions and back.

The edges have numbers, and the sources of a node are in the order of these numbers.  So it does not
matter in which order the edges into a node are found, if they are sorted by their numbers then
(`sourcesByNumber_of_perm`).

Reference: specification, §3 (dependency graph) and §4.2 (dependencies of a node).

## Main definitions

* `sourcesInto` — the sources of the connection records into an id;
* `Graph.sourcesByNumber` — the sources of numbered edges, by their numbers;
* `Graph.DependsAlong` — the dependencies of a graph are those that connection records tell.

## Main statement

* `dependencies_follow_connections` — the dependencies of the graph of a flow are those that its
  accepted connection records tell.
-/

namespace TestFlow

/-! ## Records and the edges they became -/

/-- The sources of the connection records into an id, in the order of the records. -/
def sourcesInto (records : List ConnectionRecord) (id : String) : List String :=
  (records.filter fun record => record.target == id).map ConnectionRecord.source

namespace Graph

variable {graph : Graph} {records : List ConnectionRecord}

/-- An edge joins the positions of the nodes that a record names. -/
def Joins (nodes : List Node) (record : ConnectionRecord) (edge : Edge) : Prop :=
  position? nodes record.source = some edge.source ∧
    position? nodes record.target = some edge.target

/-- Records that are all accepted stand next to the edges that join what they name. -/
theorem forall₂_joins {nodes : List Node} {earlier : List String} {edges : List Edge}
    (h : connectionOutcomes nodes earlier records = edges.map .ok) :
    List.Forall₂ (Joins nodes) records edges := by
  induction records generalizing earlier edges with
  | nil =>
      obtain rfl : edges = [] := List.map_eq_nil_iff.mp h.symm
      exact .nil
  | cons record records ih =>
      obtain ⟨edge, edges, rfl, hedge, hrest⟩ := List.map_eq_cons_iff.mp h.symm
      obtain ⟨-, hsource, htarget, -⟩ := acceptConnection_eq_ok_iff.mp hedge.symm
      exact .cons ⟨hsource, htarget⟩ (ih hrest.symm)

/-- The records that a flow keeps when it is sanitized stand next to the edges of its graph. -/
theorem forall₂_joins_sanitized (flow : Flow) :
    List.Forall₂ (Joins (build flow).nodes) flow.sanitized.connections (build flow).edges :=
  forall₂_joins flow.connectionOutcomes_sanitized

/-- In a well-formed graph, the position of an id is the place where the id is listed. -/
theorem WellFormed.position?_eq_some_iff (hgraph : graph.WellFormed) {id : String}
    {position : Nat} :
    position? graph.nodes id = some position ↔ graph.ids[position]? = some id := by
  constructor
  · exact getElem?_map_id_of_position?
  · intro hid
    cases hfound : position? graph.nodes id with
    | none => exact absurd (List.mem_of_getElem? hid) (position?_eq_none_iff.mp hfound)
    | some found => rw [hgraph.position_eq (getElem?_map_id_of_position? hfound) hid]

/-- The ids that a record names are those at the ends of the edge that it became. -/
theorem WellFormed.ids_of_joins (hgraph : graph.WellFormed) {record : ConnectionRecord}
    {edge : Edge} (h : Joins graph.nodes record edge) :
    graph.ids[edge.source]? = some record.source ∧ graph.ids[edge.target]? = some record.target :=
  ⟨hgraph.position?_eq_some_iff.mp h.1, hgraph.position?_eq_some_iff.mp h.2⟩

/-- Connections between accepted nodes are told by the records that were accepted. -/
theorem WellFormed.connects_iff (hgraph : graph.WellFormed)
    (hjoins : List.Forall₂ (Joins graph.nodes) records graph.edges) {source target : String} :
    graph.Connects source target ↔
      ∃ record ∈ records, record.source = source ∧ record.target = target := by
  unfold Connects
  generalize graph.edges = edges at hjoins
  induction hjoins with
  | nil => simp
  | cons hedge _ ih =>
      obtain ⟨hsource, htarget⟩ := hgraph.ids_of_joins hedge
      rw [List.exists_mem_cons_iff, List.exists_mem_cons_iff, ih, hsource, htarget,
        Option.some.injEq, Option.some.injEq]

/-! ## Sources by id and by position -/

/-- The sources of the edges into a position have the ids that records into its id name. -/
theorem WellFormed.map_ids_sourcesOf (hgraph : graph.WellFormed)
    (hjoins : List.Forall₂ (Joins graph.nodes) records graph.edges) {i : Nat} {id : String}
    (hid : graph.ids[i]? = some id) :
    (graph.sourcesOf i).map (fun source => graph.ids[source]?) =
      (sourcesInto records id).map some := by
  unfold sourcesOf sourcesInto
  generalize graph.edges = edges at hjoins
  induction hjoins with
  | nil => rfl
  | @cons record edge records edges hedge _ ih =>
      obtain ⟨hsource, htarget⟩ := hgraph.ids_of_joins hedge
      -- the edge leads into the position exactly if the record leads into its id
      have hinto : (edge.target == i) = (record.target == id) := by
        rw [Bool.eq_iff_iff, beq_iff_eq, beq_iff_eq]
        constructor
        · rintro rfl
          exact Option.some.inj (htarget.symm.trans hid)
        · rintro rfl
          exact hgraph.position_eq htarget hid
      rw [List.filter_cons, List.filter_cons, hinto]
      split
      · simp only [List.map_cons, hsource, ih]
      · exact ih

/-- The dependencies of an id are the sources of the records into it. -/
theorem WellFormed.dependencies_eq (hgraph : graph.WellFormed)
    (hjoins : List.Forall₂ (Joins graph.nodes) records graph.edges) (id : String) :
    graph.dependencies id = sourcesInto records id := by
  unfold dependencies
  cases hposition : position? graph.nodes id with
  | some i =>
      have hids := hgraph.map_ids_sourcesOf hjoins (hgraph.position?_eq_some_iff.mp hposition)
      have hnames := congrArg (List.map fun id => id.getD "") hids
      simpa [Function.comp_def, ← idAt_eq_ids] using hnames
  | none =>
      -- all that the records lead into is accepted, so none of them leads into this id
      have hnone : ∀ record ∈ records, record.target ≠ id := by
        rintro record hrecord rfl
        obtain ⟨edge, -, -, htarget⟩ :=
          (hgraph.connects_iff hjoins).mpr ⟨record, hrecord, rfl, rfl⟩
        exact position?_eq_none_iff.mp hposition (List.mem_of_getElem? htarget)
      rw [sourcesInto, List.filter_eq_nil_iff.mpr (by simpa using hnone)]
      rfl

/-- Looking up ids gives back the positions that have them. -/
theorem WellFormed.filterMap_position? (hgraph : graph.WellFormed) {positions : List Nat}
    {names : List String}
    (h : positions.map (fun position => graph.ids[position]?) = names.map some) :
    names.filterMap (position? graph.nodes) = positions := by
  induction positions generalizing names with
  | nil =>
      obtain rfl : names = [] := List.map_eq_nil_iff.mp h.symm
      rfl
  | cons position positions ih =>
      obtain ⟨name, names, rfl, hname, hrest⟩ := List.map_eq_cons_iff.mp h.symm
      rw [List.filterMap_cons_some (hgraph.position?_eq_some_iff.mpr hname.symm), ih hrest.symm]

/-! ## Numbered edges -/

/-- The sources of edges that have numbers, in the order of the numbers. -/
def sourcesByNumber (numbered : List (Edge × Nat)) : List Nat :=
  (numbered.mergeSort fun first second => first.2 ≤ second.2).map fun edge => edge.1.source

/-- In whatever order the edges into a position are found, their numbers tell the sources. -/
theorem sourcesByNumber_of_perm {i : Nat} {incoming : List (Edge × Nat)}
    (h : incoming.Perm (graph.edges.zipIdx.filter fun edge => edge.1.target == i)) :
    sourcesByNumber incoming = graph.sourcesOf i := by
  have hnumbers : (graph.edges.zipIdx.map Prod.snd).Pairwise (· < ·) := by
    rw [List.zipIdx_map_snd]
    exact List.pairwise_lt_range'
  have hinj := List.inj_on_of_nodup_map (hnumbers.imp Nat.ne_of_lt)
  have hsorted : incoming.mergeSort (fun first second => first.2 ≤ second.2) =
      graph.edges.zipIdx.filter fun edge => edge.1.target == i := by
    have hperm := (List.mergeSort_perm incoming fun first second => first.2 ≤ second.2).trans h
    refine hperm.eq_of_pairwise ?_ (List.pairwise_mergeSort ?_ ?_ incoming) ?_
    · -- a number belongs to one edge, so two edges of which neither comes first are the same
      intro first second hfirst hsecond hle hge
      have hfirst := (List.mem_filter.mp (hperm.mem_iff.mp hfirst)).1
      have hsecond := (List.mem_filter.mp hsecond).1
      exact hinj hfirst hsecond (Nat.le_antisymm (by simpa using hle) (by simpa using hge))
    · intro a b c hab hbc
      simp only [decide_eq_true_eq] at hab hbc ⊢
      exact Nat.le_trans hab hbc
    · intro a b
      simpa using Nat.le_total a.2 b.2
    · refine ((List.pairwise_map.mp hnumbers).filter _).imp ?_
      intro first second hlt
      simpa using Nat.le_of_lt hlt
  have hedges : graph.edges = graph.edges.zipIdx.map Prod.fst := (List.zipIdx_map_fst 0 _).symm
  rw [sourcesByNumber, hsorted, sourcesOf, hedges, List.filter_map, List.map_map, ← hedges]
  rfl

/-! ## Dependencies along records -/

/-- The dependencies of a graph are those that connection records tell.

By ids they are the sources of the records into a node, in the order of the records and with
repeats; for an id that no node has there are none.  By positions they are the same sources, each
once and where it comes first.  Every one of them is the position of another node, and past the last
node there are none.  Looking up the ids gives the positions, and so does going through the edges
into a node in any order and then sorting them by their numbers. -/
structure DependsAlong (graph : Graph) (records : List ConnectionRecord) (deps : Dependencies) :
    Prop where
  dependencies_eq : ∀ id, graph.dependencies id = sourcesInto records id
  dependencies_eq_nil : ∀ id, id ∉ graph.ids → graph.dependencies id = []
  sources : ∀ (i : Nat) (id : String), graph.ids[i]? = some id →
    (graph.sourcesOf i).map (fun source => graph.ids[source]?) = (sourcesInto records id).map some
  position_dependencies : ∀ (i : Nat) (id : String), graph.ids[i]? = some id →
    (graph.dependencies id).filterMap (position? graph.nodes) = graph.sourcesOf i
  sourcesByNumber_eq : ∀ (i : Nat) (incoming : List (Edge × Nat)),
    incoming.Perm (graph.edges.zipIdx.filter fun edge => edge.1.target == i) →
      sourcesByNumber incoming = graph.sourcesOf i
  firsts : ∀ i < graph.nodes.length, IsFirsts (graph.sourcesOf i) (deps.of i)
  nodup : ∀ i, (deps.of i).Nodup
  not_mem_self : ∀ i, i ∉ deps.of i
  lt_length : ∀ i, ∀ dep ∈ deps.of i, dep < graph.nodes.length
  eq_nil : ∀ i, graph.nodes.length ≤ i → deps.of i = []

end Graph

namespace Dependencies

variable {graph : Graph}

/-- A node depends on each of its sources once, in the order in which they come first. -/
theorem isFirsts_of_ofGraph {i : Nat} (h : i < graph.nodes.length) :
    IsFirsts (graph.sourcesOf i) ((ofGraph graph).of i) := by
  rw [of_ofGraph h]
  exact isFirsts_eraseDups _

/-- Past the last node there are no dependencies. -/
theorem of_ofGraph_of_le {i : Nat} (h : graph.nodes.length ≤ i) : (ofGraph graph).of i = [] :=
  of_eq_nil (by rwa [size_ofGraph])

/-- No node depends on another one twice. -/
theorem nodup_of_ofGraph (graph : Graph) (i : Nat) : ((ofGraph graph).of i).Nodup := by
  by_cases hi : i < graph.nodes.length
  · exact (isFirsts_of_ofGraph hi).nodup
  · rw [of_ofGraph_of_le (Nat.not_lt.mp hi)]
    exact List.nodup_nil

end Dependencies

/-! ## Main statement -/

/-- The dependencies of the graph of a flow are those that its accepted connections tell. -/
theorem dependencies_follow_connections (flow : Flow) :
    (Graph.build flow).DependsAlong flow.sanitized.connections
      (Dependencies.ofGraph (Graph.build flow)) := by
  have hgraph := Graph.build_wellFormed flow
  have hjoins := Graph.forall₂_joins_sanitized flow
  have hdeps := Dependencies.wellFormed_ofGraph hgraph
  refine ⟨hgraph.dependencies_eq hjoins, ?_, fun i id => hgraph.map_ids_sourcesOf hjoins, ?_,
    fun i incoming => Graph.sourcesByNumber_of_perm, fun i => Dependencies.isFirsts_of_ofGraph,
    Dependencies.nodup_of_ofGraph _, ?_, ?_, fun i => Dependencies.of_ofGraph_of_le⟩
  · intro id hid
    rw [Graph.dependencies, Graph.position?_eq_none_iff.mpr hid]
  · intro i id hid
    rw [hgraph.dependencies_eq hjoins]
    exact hgraph.filterMap_position? (hgraph.map_ids_sourcesOf hjoins hid)
  · intro i hi
    exact hdeps.ne_self hi rfl
  · intro i dep hdep
    rw [← Dependencies.size_ofGraph]
    exact hdeps.lt_size hdep

end TestFlow
