import TestFlow.Proofs.Graph.Account
import Mathlib.Logic.Function.Basic

/-!
# What the outcome of a record depends on

A record is held against the records before it, and little of them matters.  For a node record it is
whether its id is taken; for a connection record, whether its id is used, and at which positions the
nodes that it names are.  So records can be listed behind others that have nothing to do with them:
their outcomes are the same, except that the ends of an edge move with the nodes that it joins.

Reference: specification, §3 (node, connection).

## Main statements

* `nodeOutcomes_append` — node records behind others that share no id with them;
* `connectionOutcomes_append`, `connectionOutcomes_congr` — connection records behind others;
* `acceptConnection_move` — a connection record among nodes that have moved.
-/

namespace TestFlow

/-- An edge whose ends have moved. -/
def Edge.move (move : Nat → Nat) (edge : Edge) : Edge :=
  { edge with source := move edge.source, target := move edge.target }

@[simp] theorem Edge.source_move (move : Nat → Nat) (edge : Edge) :
    (edge.move move).source = move edge.source := rfl

@[simp] theorem Edge.target_move (move : Nat → Nat) (edge : Edge) :
    (edge.move move).target = move edge.target := rfl

namespace Graph

/-! ## Node records -/

/-- Of the ids that are taken, only that of the record itself matters. -/
theorem acceptNode_congr {taken others : List String} {record : NodeRecord}
    (h : record.id ∈ taken ↔ record.id ∈ others) :
    acceptNode taken record = acceptNode others record := by
  have hcontains : taken.contains record.id = others.contains record.id := by
    rw [Bool.eq_iff_iff, List.contains_iff_mem, List.contains_iff_mem, h]
  rw [acceptNode, acceptNode, hcontains]

/-- Ids that no record has take nothing from the records. -/
theorem sift_acceptNode_append (records : List NodeRecord) (taken foreign : List String)
    (h : ∀ record ∈ records, record.id ∉ foreign) :
    sift acceptNode Node.id (taken ++ foreign) records = sift acceptNode Node.id taken records := by
  induction records generalizing taken with
  | nil => rfl
  | cons record records ih =>
      obtain ⟨hrecord, hrest⟩ := List.forall_mem_cons.mp h
      have hcheck : acceptNode (taken ++ foreign) record = acceptNode taken record :=
        acceptNode_congr (by simp [hrecord])
      rw [sift, sift, hcheck]
      cases acceptNode taken record with
      | ok node => exact congrArg (Except.ok node :: ·) (ih (node.id :: taken) hrest)
      | error rejection => exact congrArg (Except.error rejection :: ·) (ih taken hrest)

/-- The id of an accepted node is the id of one of the records. -/
theorem map_id_accepted_subset (records : List NodeRecord) :
    (accepted (nodeOutcomes records)).map Node.id ⊆ records.map NodeRecord.id := by
  intro id hid
  obtain ⟨node, hnode, rfl⟩ := List.mem_map.mp hid
  obtain ⟨i, hi⟩ := List.mem_iff_getElem?.mp (mem_accepted.mp hnode)
  obtain ⟨record, hrecord, hsame⟩ := exists_record_of_getElem?_nodeOutcomes hi
  exact hsame ▸ List.mem_map_of_mem (List.mem_of_getElem? hrecord)

/-- Node records behind others that have none of their ids have the outcomes they have alone. -/
theorem nodeOutcomes_append {records others : List NodeRecord}
    (h : ∀ record ∈ others, record.id ∉ records.map NodeRecord.id) :
    nodeOutcomes (records ++ others) = nodeOutcomes records ++ nodeOutcomes others := by
  have hforeign : ∀ record ∈ others,
      record.id ∉ ((accepted (nodeOutcomes records)).map Node.id).reverse := by
    intro record hrecord hmem
    exact h record hrecord (map_id_accepted_subset records (List.mem_reverse.mp hmem))
  have hothers := sift_acceptNode_append others [] _ hforeign
  rw [List.nil_append] at hothers
  rw [nodeOutcomes, sift_append, List.append_nil]
  exact congrArg (nodeOutcomes records ++ ·) hothers

/-! ## Connection records -/

/-- Of the ids that are used, only that of the record itself matters, and only if it is not blank.
-/
theorem acceptConnection_congr {nodes : List Node} {earlier others : List String}
    {record : ConnectionRecord}
    (h : Text.isBlank record.id = true ∨ (record.id ∈ earlier ↔ record.id ∈ others)) :
    acceptConnection nodes earlier record = acceptConnection nodes others record := by
  have hduplicate : (!Text.isBlank record.id && earlier.contains record.id) =
      (!Text.isBlank record.id && others.contains record.id) := by
    rcases h with hblank | hsame
    · rw [hblank]
      rfl
    · rw [Bool.eq_iff_iff]
      simp [hsame]
  rw [acceptConnection, acceptConnection, hduplicate]

/-- Records have the same outcomes behind ids of which they use the same. -/
theorem connectionOutcomes_congr {nodes : List Node} {records : List ConnectionRecord}
    {earlier others : List String}
    (h : ∀ record ∈ records,
      Text.isBlank record.id = true ∨ (record.id ∈ earlier ↔ record.id ∈ others)) :
    connectionOutcomes nodes earlier records = connectionOutcomes nodes others records := by
  induction records generalizing earlier others with
  | nil => rfl
  | cons record records ih =>
      obtain ⟨hrecord, hrest⟩ := List.forall_mem_cons.mp h
      have hbehind : ∀ later ∈ records, Text.isBlank later.id = true ∨
          (later.id ∈ record.id :: earlier ↔ later.id ∈ record.id :: others) := by
        intro later hlater
        refine (hrest later hlater).imp_right fun hsame => ?_
        rw [List.mem_cons, List.mem_cons, hsame]
      rw [connectionOutcomes, connectionOutcomes, acceptConnection_congr hrecord, ih hbehind]

/-- Records behind others are held against the ids of those too. -/
theorem connectionOutcomes_append (nodes : List Node) (records others : List ConnectionRecord)
    (earlier : List String) :
    connectionOutcomes nodes earlier (records ++ others) =
      connectionOutcomes nodes earlier records ++ connectionOutcomes nodes
        ((records.map ConnectionRecord.id).reverse ++ earlier) others := by
  induction records generalizing earlier with
  | nil => rfl
  | cons record records ih => simp [connectionOutcomes, ih (record.id :: earlier)]

/-- Where the nodes that a record names have moved, the ends of its edge move with them. -/
theorem acceptConnection_move {nodes others : List Node} {earlier : List String}
    {record : ConnectionRecord} {move : Nat → Nat} (hmove : Function.Injective move)
    (hsource : position? others record.source = (position? nodes record.source).map move)
    (htarget : position? others record.target = (position? nodes record.target).map move) :
    acceptConnection others earlier record =
      (acceptConnection nodes earlier record).map (Edge.move move) := by
  rw [acceptConnection, acceptConnection, hsource, htarget]
  split
  · rfl
  · cases position? nodes record.source with
    | none => rfl
    | some source =>
        cases position? nodes record.target with
        | none => rfl
        | some target =>
            -- the ends of the edge are as different as they were
            by_cases hsame : source = target
            · simp only [Option.map_some, if_pos hsame, if_pos (congrArg move hsame)]
              rfl
            · simp only [Option.map_some, if_neg hsame, if_neg (hmove.ne hsame)]
              rfl

end Graph

end TestFlow
