import TestFlow.Proofs.Compile.Rendering
import TestFlow.Proofs.Component.Count
import Mathlib.Data.List.Perm.Basic

/-!
# Every record leaves a line

Nothing that was drawn is lost without a trace.  A record that was not accepted leaves its rejection
in the document, and a node that was accepted leaves its steps, of which there is at least one.

The document is divided into blocks, one for each node record and for each connection record that
was not accepted.  The rejections come in the order of the records, so their blocks are read off the
outcomes with their positions (`placed`).  The accepted nodes come in the order of the compilation,
which is a permutation of the accepted records, and so are their blocks.

Reference: specification, §4.1 (every node contributes its steps), §4.3 (a diagnostic stands for
what is missing) and §7 (recoverable errors).

## Main definitions

* `Origin` — the record that a block comes from;
* `Flow.Leaves` — what a record leaves in the document;
* `Flow.DividedAmong` — a document is divided into blocks, one for each record that leaves anything.

## Main statement

* `every_record_leaves_a_line` — how many steps a node makes, and which of them a document has.
-/

namespace TestFlow

/-! ## Positions -/

section Placed

variable {α γ : Type} {pick : α → Option γ}

/-- What is picked from a list, with the positions that it comes from. -/
def placed (pick : α → Option γ) (l : List α) : List (Nat × γ) :=
  l.zipIdx.filterMap fun entry => (pick entry.1).map fun c => (entry.2, c)

/-- Without the positions, this is what is picked from the list. -/
theorem map_snd_placed (l : List α) : (placed pick l).map Prod.snd = l.filterMap pick := by
  have hpicked : (fun entry : α × Nat => ((pick entry.1).map fun c => (entry.2, c)).map Prod.snd) =
      pick ∘ Prod.fst := by
    funext entry
    rw [Option.map_map]
    exact Option.map_id_apply
  rw [placed, List.map_filterMap, hpicked, ← List.filterMap_map, List.zipIdx_map_fst]

/-- The positions are those in the list. -/
theorem mem_placed_iff {l : List α} {i : Nat} {c : γ} :
    (i, c) ∈ placed pick l ↔ ∃ a, l[i]? = some a ∧ pick a = some c := by
  rw [placed, List.mem_filterMap]
  constructor
  · rintro ⟨⟨a, j⟩, hmem, hpick⟩
    obtain ⟨c', hc, heq⟩ := Option.map_eq_some_iff.mp hpick
    cases heq
    exact ⟨a, List.mk_mem_zipIdx_iff_getElem?.mp hmem, hc⟩
  · rintro ⟨a, ha, hc⟩
    refine ⟨(a, i), List.mk_mem_zipIdx_iff_getElem?.mpr ha, ?_⟩
    rw [hc]
    rfl

/-- Nothing is picked twice from the same position. -/
theorem nodup_map_fst_placed (l : List α) : ((placed pick l).map Prod.fst).Nodup := by
  have hpositions : l.zipIdx.Pairwise fun entry other => entry.2 ≠ other.2 := by
    rw [← List.pairwise_map, List.zipIdx_map_snd]
    exact List.nodup_range'
  -- Picking keeps the positions, so it is enough that they are distinct before anything is picked.
  rw [placed, List.Nodup, List.pairwise_map, List.pairwise_filterMap]
  refine hpositions.imp fun hne b hb b' hb' => ?_
  obtain ⟨c, -, rfl⟩ := Option.map_eq_some_iff.mp hb
  obtain ⟨c', -, rfl⟩ := Option.map_eq_some_iff.mp hb'
  exact hne

end Placed

/-! ## What a record leaves -/

/-- The record that a part of a document comes from, by its position in its list. -/
inductive Origin where
  | node (position : Nat)
  | connection (position : Nat)
  deriving DecidableEq, Repr

namespace Flow

def connectionOutcomes (flow : Flow) : List (Except Rejection Edge) :=
  Graph.connectionOutcomes (Graph.build flow).nodes [] flow.connections

/-- What a record leaves in the document: its rejection, or the steps of its node.  A connection
that was accepted leaves nothing. -/
inductive Leaves (flow : Flow) : Origin → List Step → Prop
  | rejectedNode {i : Nat} {rejection : Rejection}
      (h : (Graph.nodeOutcomes flow.nodes)[i]? = some (.error rejection)) :
      Leaves flow (.node i) [rejection.step]
  | acceptedNode {i : Nat} {node : Node}
      (h : (Graph.nodeOutcomes flow.nodes)[i]? = some (.ok node)) :
      Leaves flow (.node i) node.steps
  | rejectedConnection {i : Nat} {rejection : Rejection}
      (h : flow.connectionOutcomes[i]? = some (.error rejection)) :
      Leaves flow (.connection i) [rejection.step]

/-- Whatever leaves something leaves at least one step. -/
theorem Leaves.ne_nil {flow : Flow} {origin : Origin} {steps : List Step}
    (h : flow.Leaves origin steps) : steps ≠ [] := by
  cases h with
  | rejectedNode h => exact List.cons_ne_nil _ _
  | @acceptedNode i node h =>
      -- Rejections are single steps by their form; that a node makes any step at all has to be
      -- counted.
      have hpos := node.stepCount_pos
      rw [← node.length_steps] at hpos
      exact List.ne_nil_of_length_pos hpos
  | rejectedConnection h => exact List.cons_ne_nil _ _

/-- The steps of a document are divided into blocks, one for each node record and one for each
connection record that was not accepted. -/
structure DividedAmong (flow : Flow) (document : Document) (blocks : List (Origin × List Step)) :
    Prop where
  steps_eq : document.steps = blocks.flatMap Prod.snd
  nodup : (blocks.map Prod.fst).Nodup
  leaves : ∀ block ∈ blocks, flow.Leaves block.1 block.2
  node_mem : ∀ i < flow.nodes.length, .node i ∈ blocks.map Prod.fst
  connection_mem : ∀ i rejection, flow.connectionOutcomes[i]? = some (.error rejection) →
    .connection i ∈ blocks.map Prod.fst

/-! ## Blocks -/

/-- The reason of a refusal. -/
def refusal? {ε β : Type} : Except ε β → Option ε
  | .ok _ => none
  | .error e => some e

/-- What was accepted. -/
def accepted? {ε β : Type} : Except ε β → Option β
  | .ok b => some b
  | .error _ => none

/-- The reasons of the refusals come in the order of the outcomes. -/
theorem map_snd_placed_refusal {ε β : Type} (outcomes : List (Except ε β)) :
    (placed refusal? outcomes).map Prod.snd = refused outcomes := by
  rw [map_snd_placed]
  refine List.filterMap_congr fun outcome _ => ?_
  cases outcome <;> rfl

/-- And so does what was accepted. -/
theorem map_snd_placed_accepted {ε β : Type} (outcomes : List (Except ε β)) :
    (placed accepted? outcomes).map Prod.snd = accepted outcomes := by
  rw [map_snd_placed]
  refine List.filterMap_congr fun outcome _ => ?_
  cases outcome <;> rfl

/-- A reason stands at the position of the entry that was refused for it. -/
theorem mem_placed_refusal_iff {ε β : Type} {outcomes : List (Except ε β)} {i : Nat} {e : ε} :
    (i, e) ∈ placed refusal? outcomes ↔ outcomes[i]? = some (.error e) := by
  rw [mem_placed_iff]
  constructor
  · rintro ⟨_ | e', houtcome, hpick⟩
    · cases hpick
      exact houtcome
    · cases hpick
  · exact fun h => ⟨_, h, rfl⟩

/-- What was accepted stands at the position of its entry. -/
theorem mem_placed_accepted_iff {ε β : Type} {outcomes : List (Except ε β)} {i : Nat} {b : β} :
    (i, b) ∈ placed accepted? outcomes ↔ outcomes[i]? = some (.ok b) := by
  rw [mem_placed_iff]
  constructor
  · rintro ⟨_ | b', houtcome, hpick⟩
    · cases hpick
    · cases hpick
      exact houtcome
  · exact fun h => ⟨_, h, rfl⟩

section BlocksOf

variable {γ : Type} {origin : Nat → Origin} {steps : γ → List Step} {rows : List (Nat × γ)}

/-- The blocks of records of one kind. -/
def blocksOf (origin : Nat → Origin) (steps : γ → List Step) (rows : List (Nat × γ)) :
    List (Origin × List Step) :=
  rows.map fun row => (origin row.1, steps row.2)

/-- The origins of the blocks come in the order of the records. -/
theorem map_fst_blocksOf :
    (blocksOf origin steps rows).map Prod.fst = (rows.map Prod.fst).map origin := by
  rw [blocksOf, List.map_map, List.map_map]
  rfl

/-- The steps of the blocks come in that order too. -/
theorem flatMap_blocksOf :
    (blocksOf origin steps rows).flatMap Prod.snd = (rows.map Prod.snd).flatMap steps := by
  rw [blocksOf, List.flatMap_map, List.flatMap_map]

end BlocksOf

/-- The blocks of a document in which the accepted records come as in `rows`. -/
def blocks (flow : Flow) (rows : List (Nat × Node)) : List (Origin × List Step) :=
  blocksOf .node (fun rejection => [rejection.step])
      (placed refusal? (Graph.nodeOutcomes flow.nodes)) ++
    blocksOf .connection (fun rejection => [rejection.step])
      (placed refusal? flow.connectionOutcomes) ++
    blocksOf .node Node.steps rows

/-- The blocks come to the steps of the graph. -/
theorem flatMap_blocks (flow : Flow) (rows : List (Nat × Node)) :
    (flow.blocks rows).flatMap Prod.snd = (Graph.build flow).steps (rows.map Prod.snd) := by
  have hsteps : ∀ rejections : List Rejection,
      rejections.flatMap (fun rejection => [rejection.step]) = rejections.map Rejection.step :=
    fun _ => List.map_eq_flatMap.symm
  rw [blocks, List.flatMap_append, List.flatMap_append, flatMap_blocksOf, flatMap_blocksOf,
    flatMap_blocksOf, map_snd_placed_refusal, map_snd_placed_refusal, hsteps, hsteps,
    ← List.map_append]
  rfl

/-- The accepted records of a flow with their nodes, in any order. -/
def ListsAccepted (flow : Flow) (rows : List (Nat × Node)) : Prop :=
  rows.Perm (placed accepted? (Graph.nodeOutcomes flow.nodes))

namespace ListsAccepted

variable {flow : Flow} {rows : List (Nat × Node)}

/-- The records that are listed are those that were accepted, each with its node. -/
theorem mem_iff (h : flow.ListsAccepted rows) {i : Nat} {node : Node} :
    (i, node) ∈ rows ↔ (Graph.nodeOutcomes flow.nodes)[i]? = some (.ok node) := by
  rw [List.Perm.mem_iff h, mem_placed_accepted_iff]

/-- No record has two blocks. -/
theorem nodup_blocks (h : flow.ListsAccepted rows) : ((flow.blocks rows).map Prod.fst).Nodup := by
  have hnode : Function.Injective Origin.node := fun _ _ => Origin.node.inj
  have hconnection : Function.Injective Origin.connection := fun _ _ => Origin.connection.inj
  have hpositions : (rows.map Prod.fst).Nodup :=
    (List.Perm.map Prod.fst h).nodup_iff.mpr (nodup_map_fst_placed _)
  rw [blocks, List.map_append, List.map_append, map_fst_blocksOf, map_fst_blocksOf,
    map_fst_blocksOf]
  -- The three parts have no origins in common: connections are no nodes, and of the two parts with
  -- nodes one has those that were rejected and the other those that were accepted.
  refine List.Nodup.append (List.Nodup.append ?_ ?_ ?_) (hpositions.map hnode) ?_
  · exact (nodup_map_fst_placed _).map hnode
  · exact (nodup_map_fst_placed _).map hconnection
  · intro origin hleft hright
    obtain ⟨i, -, rfl⟩ := List.mem_map.mp hleft
    obtain ⟨j, -, hj⟩ := List.mem_map.mp hright
    cases hj
  · intro origin hleft hright
    obtain ⟨i, hi, rfl⟩ := List.mem_map.mp hright
    rcases List.mem_append.mp hleft with hleft | hleft
    · -- a record is not both accepted and rejected
      obtain ⟨⟨j, node⟩, hnodes, rfl⟩ := List.mem_map.mp hi
      obtain ⟨k, hk, heq⟩ := List.mem_map.mp hleft
      cases heq
      obtain ⟨⟨k, rejection⟩, hrejected, rfl⟩ := List.mem_map.mp hk
      have hok := h.mem_iff.mp hnodes
      rw [mem_placed_refusal_iff.mp hrejected] at hok
      cases hok
    · obtain ⟨j, -, hj⟩ := List.mem_map.mp hleft
      cases hj

/-- Each block is what its record leaves. -/
theorem leaves_of_mem (h : flow.ListsAccepted rows) :
    ∀ block ∈ flow.blocks rows, flow.Leaves block.1 block.2 := by
  intro block hblock
  rw [blocks, List.mem_append, List.mem_append] at hblock
  rcases hblock with (hblock | hblock) | hblock
  · obtain ⟨⟨i, rejection⟩, hrow, rfl⟩ := List.mem_map.mp hblock
    exact .rejectedNode (mem_placed_refusal_iff.mp hrow)
  · obtain ⟨⟨i, rejection⟩, hrow, rfl⟩ := List.mem_map.mp hblock
    exact .rejectedConnection (mem_placed_refusal_iff.mp hrow)
  · obtain ⟨⟨i, node⟩, hrow, rfl⟩ := List.mem_map.mp hblock
    exact .acceptedNode (h.mem_iff.mp hrow)

/-- Every node record has a block. -/
theorem node_mem (h : flow.ListsAccepted rows) {i : Nat} (hi : i < flow.nodes.length) :
    .node i ∈ (flow.blocks rows).map Prod.fst := by
  have hlength : (Graph.nodeOutcomes flow.nodes).length = flow.nodes.length := length_sift _ _ _ _
  obtain ⟨outcome, houtcome⟩ : ∃ outcome, (Graph.nodeOutcomes flow.nodes)[i]? = some outcome :=
    ⟨_, List.getElem?_eq_getElem (hlength ▸ hi)⟩
  rw [blocks, List.map_append, List.map_append, List.mem_append, List.mem_append]
  cases outcome with
  | error rejection =>
      have hmem := List.mem_map_of_mem (f := fun row => (Origin.node row.1, [row.2.step]))
        (mem_placed_refusal_iff.mpr houtcome)
      exact Or.inl (Or.inl (List.mem_map_of_mem hmem))
  | ok node =>
      have hmem := List.mem_map_of_mem (f := fun row => (Origin.node row.1, row.2.steps))
        (h.mem_iff.mpr houtcome)
      exact Or.inr (List.mem_map_of_mem hmem)

/-- However the accepted records are listed, the steps of the graph in that order are divided
among all of them. -/
theorem dividedAmong (h : flow.ListsAccepted rows) :
    flow.DividedAmong (.ofSteps ((Graph.build flow).steps (rows.map Prod.snd)))
      (flow.blocks rows) where
  steps_eq := (flow.flatMap_blocks rows).symm
  nodup := h.nodup_blocks
  leaves := h.leaves_of_mem
  node_mem _ hi := h.node_mem hi
  connection_mem i rejection hrejection := by
    have hmem := List.mem_map_of_mem (f := fun row => (Origin.connection row.1, [row.2.step]))
      (mem_placed_refusal_iff.mpr hrejection)
    rw [blocks, List.map_append, List.map_append, List.mem_append, List.mem_append]
    exact Or.inl (Or.inr (List.mem_map_of_mem hmem))

end ListsAccepted

/-- The order of the nodes lists the accepted records. -/
theorem exists_listsAccepted {flow : Flow} {order : List Node}
    (horder : (Graph.build flow).order = .ok order) :
    ∃ rows, flow.ListsAccepted rows ∧ rows.map Prod.snd = order := by
  have hperm : order.Perm ((placed accepted? (Graph.nodeOutcomes flow.nodes)).map Prod.snd) := by
    rw [map_snd_placed_accepted]
    exact (Graph.build_wellFormed flow).order_perm horder
  -- A permutation of the second components comes from one of the pairs.
  have hcomp := congrFun (congrFun (List.eq_map_comp_perm Prod.snd) order)
    (placed accepted? (Graph.nodeOutcomes flow.nodes))
  obtain ⟨rows, rfl, hrows⟩ := hcomp.mpr hperm
  exact ⟨rows, hrows, rfl⟩

end Flow

/-! ## Main statement -/

/-- A node puts at least one step behind those that were made before, and exactly as many as its
payload tells.  If it is faulty, its only step is a diagnostic; all its diagnostics name it.  The
lines of a compiled document are divided among the records of its flow, such that every node record
and every connection record that was not accepted has at least one line of its own. -/
theorem every_record_leaves_a_line :
    (∀ (node : Node) (made : List Step), ∃ added,
      node.emit Step.say made = made ++ added ∧
      1 ≤ added.length ∧ added.length = node.stepCount ∧
      (node.Faulty → ∃ message, added = [.diagnostic (Text.oneLine node.id) message]) ∧
      ∀ subject message, .diagnostic subject message ∈ added → subject = Text.oneLine node.id) ∧
    ∀ (flow : Flow) (document : Document), flow.compile = .ok document → ∃ blocks,
      flow.DividedAmong document blocks ∧ (∀ block ∈ blocks, block.2 ≠ []) ∧
      textLines document.render =
        ["Feature: Generated API Test", "", "Scenario: Visual Flow Test"] ++
          (blocks.map fun block => block.2.map fun step => "  " ++ step.line).flatten ++ [""] := by
  refine ⟨fun node made => ?_, fun flow document hcompile => ?_⟩
  · refine ⟨node.steps, node.emit_say made, ?_, node.length_steps, Node.Faulty.steps_eq, ?_⟩
    · rw [node.length_steps]
      exact node.stepCount_pos
    · exact fun subject message hmem => node.steps_names _ hmem subject message rfl
  · obtain ⟨order, horder, rfl⟩ := Graph.exists_order_of_compile hcompile
    obtain ⟨rows, hrows, rfl⟩ := Flow.exists_listsAccepted horder
    have hdivided := hrows.dividedAmong
    refine ⟨flow.blocks rows, hdivided, fun block hblock =>
      (hdivided.leaves block hblock).ne_nil, ?_⟩
    -- No step has a line break, so each step of a block is one line of the text.
    have hlines := Document.lineByLine_ofSteps
      ((Graph.build flow).steps_unbroken (rows.map Prod.snd))
    rw [hlines.textLines_eq, hdivided.steps_eq, List.map_flatMap, List.flatMap_def]

/-- A request with a malformed header list and a form body, whose id is broken. -/
def brokenIdRequest : Node where
  id := "a\r\nb"
  kind := .request .put
  payload := Component.decode (.request .put)
    (.object [("url", .string "u"), ("headers", .bool true),
      ("params", .object [("p q", .string ""), ("r", .null)]), ("body", .string "k=v"),
      ("bodyType", .string "form")])

/-- A node of no known type and a message leave a line each, and a request leaves as many as its
parts. -/
theorem brokenIdRequest_and_strayFlow_leave_lines :
    (∃ added, brokenIdRequest.emit Step.say [] = [] ++ added ∧ added.length = 7) ∧
      ∃ document blocks, (strayFlow "s" "T").compile = .ok document ∧
        (strayFlow "s" "T").DividedAmong document blocks ∧ .node 0 ∈ blocks.map Prod.fst ∧
        .node 1 ∈ blocks.map Prod.fst := by
  have hcompile := compile_strayFlow "s" "T" (by decide) (by decide)
  obtain ⟨hnode, hflow⟩ := every_record_leaves_a_line
  obtain ⟨added, hadded, -, hcount, -⟩ := hnode brokenIdRequest []
  obtain ⟨blocks, hdivided, -⟩ := hflow _ _ hcompile
  refine ⟨⟨added, hadded, hcount.trans ?_⟩, _, blocks, hcompile, hdivided, ?_, ?_⟩
  · decide +kernel
  · exact hdivided.node_mem 0 (by decide)
  · exact hdivided.node_mem 1 (by decide)

end TestFlow
