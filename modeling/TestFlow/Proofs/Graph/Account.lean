import TestFlow.Proofs.Graph.WellFormed

/-!
# Every record is accounted for

Building a graph answers for each record of a flow: it is accepted, or there is one rejection that
gives the first of its defects.  What happens to a record depends on the records before it, and for
the two kinds of records in different ways: a node record is held against the records *accepted*
before it, a connection record against *all* connection records before it.

The account is a list of outcomes with one entry for each record.  Its accepted entries are what the
graph has, its refused entries what the graph reports, so that order and number of both can be read
off it.

Reference: specification, §3 (node, connection) and §7 (recoverable errors, at the level of the
graph).

## Main definitions

* `HeldBefore`, `Unused` — how a record stands to the records before it;
* `NodeFate`, `ConnectionFate` — the outcome that a record deserves, by its first defect;
* `NodeAccount`, `ConnectionAccount` — every record of a list has the outcome that it deserves.

## Main statement

* `build_accounts_for_records` — the graph of a flow is read off such accounts.
-/

namespace TestFlow

/-! ## Type names -/

/-- The names of the sixteen kinds of components. -/
def typeNames : List String :=
  ["GET_REQUEST", "POST_REQUEST", "PUT_REQUEST", "PATCH_REQUEST", "DELETE_REQUEST", "BEARER_AUTH",
    "BASIC_AUTH", "API_KEY_AUTH", "STATUS_ASSERTION", "FIELD_ASSERTION", "HEADER_ASSERTION",
    "SCHEMA_ASSERTION", "RESPONSE_TIME_ASSERTION", "EXTRACT_VARIABLE", "SET_VARIABLE",
    "LOG_MESSAGE"]

namespace Kind

/-- The sixteen names are those of all kinds. -/
theorem map_typeName_all : all.map typeName = typeNames := by
  decide

/-- No kind is left out. -/
theorem mem_all (kind : Kind) : kind ∈ all := by
  cases kind with
  | request method => cases method <;> decide
  | _ => decide

/-- The name of a kind is one of the sixteen. -/
theorem typeName_mem (kind : Kind) : kind.typeName ∈ typeNames := by
  rw [← map_typeName_all]
  exact List.mem_map_of_mem kind.mem_all

/-- A kind found by a name goes by that name. -/
theorem typeName_of_ofTypeName? {name : String} {kind : Kind} (h : ofTypeName? name = some kind) :
    kind.typeName = name := by
  simpa using List.find?_some h

/-- No kind is found exactly by the names outside the sixteen. -/
theorem ofTypeName?_eq_none_iff {name : String} :
    ofTypeName? name = none ↔ name ∉ typeNames := by
  rw [ofTypeName?, List.find?_eq_none, ← map_typeName_all, List.mem_map]
  simp

end Kind

namespace Graph

/-! ## Node records -/

/-- A record before the position is accepted and has the id. -/
def HeldBefore (records : List NodeRecord) (outcomes : List (Except Rejection Node)) (i : Nat)
    (id : String) : Prop :=
  ∃ j < i, ∃ record node, records[j]? = some record ∧ outcomes[j]? = some (.ok node) ∧
    record.id = id

/-- What becomes of a node record, where `held` says that its id is taken.  A blank id counts before
a taken one, and a taken one before an unknown type. -/
inductive NodeFate (record : NodeRecord) (held : Prop) : Except Rejection Node → Prop
  | blank (hblank : Text.isBlank record.id = true) :
      NodeFate record held (.error (.blankId record.id record.typeName))
  | duplicate (hblank : Text.isBlank record.id = false) (hheld : held) :
      NodeFate record held (.error (.duplicateNode record.id))
  | unknownType (hblank : Text.isBlank record.id = false) (hheld : ¬held)
      (htype : record.typeName ∉ typeNames) :
      NodeFate record held (.error (.unknownType record.id record.typeName))
  | accepted (kind : Kind) (hblank : Text.isBlank record.id = false) (hheld : ¬held)
      (htype : kind.typeName = record.typeName) :
      NodeFate record held (.ok ⟨record.id, kind, Component.decode kind record.data⟩)

namespace NodeFate

variable {record : NodeRecord} {held : Prop}

/-- The id of an accepted node is that of its record. -/
theorem id_eq {node : Node} (h : NodeFate record held (.ok node)) : node.id = record.id := by
  cases h with
  | accepted kind => rfl

/-- A node record is accepted exactly if it has none of the three defects. -/
theorem ok_iff {outcome : Except Rejection Node} (h : NodeFate record held outcome) :
    (∃ node, outcome = .ok node) ↔
      Text.isBlank record.id = false ∧ record.typeName ∈ typeNames ∧ ¬held := by
  cases h with
  | blank hblank => simp [hblank]
  | duplicate hblank hheld => simp [hheld]
  | unknownType hblank hheld htype => simp [htype]
  | accepted kind hblank hheld htype =>
      have hknown : record.typeName ∈ typeNames := htype ▸ kind.typeName_mem
      simp [hblank, hheld, hknown]

/-- The code of a rejection tells a bad id from a bad type. -/
theorem code_iff {rejection : Rejection} (h : NodeFate record held (.error rejection)) :
    rejection.subject = record.id ∧
      (rejection.code = "G001" ↔ Text.isBlank record.id = true ∨ held) ∧
      (rejection.code = "G002" ↔
        Text.isBlank record.id = false ∧ ¬held ∧ record.typeName ∉ typeNames) := by
  cases h with
  | blank hblank => simp [Rejection.subject, Rejection.code, hblank]
  | duplicate hblank hheld => simp [Rejection.subject, Rejection.code, hheld]
  | unknownType hblank hheld htype =>
      simp [Rejection.subject, Rejection.code, hblank, hheld, htype]

end NodeFate

/-- Every node record has an outcome, and it is the one that the record deserves. -/
structure NodeAccount (records : List NodeRecord) (outcomes : List (Except Rejection Node)) :
    Prop where
  length_eq : outcomes.length = records.length
  fate : ∀ i record outcome, records[i]? = some record → outcomes[i]? = some outcome →
    NodeFate record (HeldBefore records outcomes i record.id) outcome
  accepted_iff : ∀ i record, records[i]? = some record →
    ((∃ node, outcomes[i]? = some (.ok node)) ↔ Text.isBlank record.id = false ∧
      record.typeName ∈ typeNames ∧ ¬HeldBefore records outcomes i record.id)
  code_iff : ∀ i record rejection, records[i]? = some record →
    outcomes[i]? = some (.error rejection) → rejection.subject = record.id ∧
      (rejection.code = "G001" ↔
        Text.isBlank record.id = true ∨ HeldBefore records outcomes i record.id) ∧
      (rejection.code = "G002" ↔ Text.isBlank record.id = false ∧
        ¬HeldBefore records outcomes i record.id ∧ record.typeName ∉ typeNames)

/-- A node record is checked for its defects in the order in which they count. -/
theorem nodeFate_acceptNode (taken : List String) (record : NodeRecord) :
    NodeFate record (record.id ∈ taken) (acceptNode taken record) := by
  unfold acceptNode
  by_cases hblank : Text.isBlank record.id = true
  · rw [if_pos hblank]
    exact .blank hblank
  · rw [if_neg hblank]
    have hblank : Text.isBlank record.id = false := by simpa using hblank
    by_cases hheld : record.id ∈ taken
    · rw [if_pos (by simpa using hheld)]
      exact .duplicate hblank hheld
    · rw [if_neg (by simpa using hheld)]
      cases hkind : Kind.ofTypeName? record.typeName with
      | none => exact .unknownType hblank hheld (Kind.ofTypeName?_eq_none_iff.mp hkind)
      | some kind => exact .accepted kind hblank hheld (Kind.typeName_of_ofTypeName? hkind)

/-- The ids that a node record is checked against. -/
def takenBefore (records : List NodeRecord) (i : Nat) : List String :=
  (((accepted ((nodeOutcomes records).take i)).map Node.id).reverse)

/-- The outcome at a position comes from checking its record against the ids of the records
accepted before it. -/
theorem getElem?_nodeOutcomes (records : List NodeRecord) (i : Nat) :
    (nodeOutcomes records)[i]? = records[i]?.map (acceptNode (takenBefore records i)) := by
  rw [nodeOutcomes, getElem?_sift, List.append_nil]
  rfl

/-- The record of an accepted node, and the id that both have. -/
theorem exists_record_of_getElem?_nodeOutcomes {records : List NodeRecord} {i : Nat} {node : Node}
    (h : (nodeOutcomes records)[i]? = some (.ok node)) :
    ∃ record, records[i]? = some record ∧ record.id = node.id := by
  rw [getElem?_nodeOutcomes, Option.map_eq_some_iff] at h
  obtain ⟨record, hrecord, hok⟩ := h
  have hfate := nodeFate_acceptNode (takenBefore records i) record
  rw [hok] at hfate
  exact ⟨record, hrecord, hfate.id_eq.symm⟩

/-- An id is taken exactly if a record that was accepted before has it. -/
theorem mem_takenBefore_iff {records : List NodeRecord} {i : Nat} {id : String} :
    id ∈ takenBefore records i ↔ HeldBefore records (nodeOutcomes records) i id := by
  simp only [takenBefore, List.mem_reverse, List.mem_map, mem_accepted,
    mem_take_iff_getElem?]
  constructor
  · rintro ⟨node, ⟨j, hlt, hok⟩, rfl⟩
    obtain ⟨record, hrecord, hid⟩ := exists_record_of_getElem?_nodeOutcomes hok
    exact ⟨j, hlt, record, node, hrecord, hok, hid⟩
  · rintro ⟨j, hlt, record, node, hrecord, hok, rfl⟩
    obtain ⟨record', hrecord', hid⟩ := exists_record_of_getElem?_nodeOutcomes hok
    obtain rfl : record = record' := by simpa [hrecord] using hrecord'
    exact ⟨node, ⟨j, hlt, hok⟩, hid.symm⟩

/-- The outcome of a node record is the one that it deserves. -/
theorem nodeFate_nodeOutcomes {records : List NodeRecord} {i : Nat} {record : NodeRecord}
    (hrecord : records[i]? = some record) :
    ∃ outcome, (nodeOutcomes records)[i]? = some outcome ∧
      NodeFate record (HeldBefore records (nodeOutcomes records) i record.id) outcome := by
  refine ⟨acceptNode (takenBefore records i) record, ?_, ?_⟩
  · rw [getElem?_nodeOutcomes, hrecord, Option.map_some]
  · rw [← propext mem_takenBefore_iff]
    exact nodeFate_acceptNode _ record

/-- Every node record has the outcome that it deserves. -/
theorem nodeAccount_nodeOutcomes (records : List NodeRecord) :
    NodeAccount records (nodeOutcomes records) where
  length_eq := length_sift _ _ _ _
  fate := by
    intro i record outcome hrecord houtcome
    obtain ⟨outcome', houtcome', hfate⟩ := nodeFate_nodeOutcomes hrecord
    obtain rfl : outcome' = outcome := by simpa [houtcome'] using houtcome
    exact hfate
  accepted_iff := by
    intro i record hrecord
    obtain ⟨outcome, houtcome, hfate⟩ := nodeFate_nodeOutcomes hrecord
    simpa [houtcome] using hfate.ok_iff
  code_iff := by
    intro i record rejection hrecord hrejection
    obtain ⟨outcome, houtcome, hfate⟩ := nodeFate_nodeOutcomes hrecord
    obtain rfl : outcome = .error rejection := by simpa [houtcome] using hrejection
    exact hfate.code_iff

/-! ## Connection records -/

/-- The id is blank, or no record before the position has it. -/
def Unused (records : List ConnectionRecord) (i : Nat) (id : String) : Prop :=
  Text.isBlank id = true ∨ ∀ j < i, ∀ record, records[j]? = some record → record.id ≠ id

/-- What becomes of a connection record among nodes with the given ids, where `unused` says that its
id is free.  A repeated id counts before an unknown source, that before an unknown target, and that
before two equal ends. -/
inductive ConnectionFate (ids : List String) (record : ConnectionRecord) (unused : Prop) :
    Except Rejection Edge → Prop
  | duplicate (hused : ¬unused) :
      ConnectionFate ids record unused
        (.error (.duplicateConnection record.id record.source record.target))
  | unknownSource (hunused : unused) (hsource : record.source ∉ ids) :
      ConnectionFate ids record unused (.error (.unknownSource record.id record.source))
  | unknownTarget (hunused : unused) (hsource : record.source ∈ ids)
      (htarget : record.target ∉ ids) :
      ConnectionFate ids record unused (.error (.unknownTarget record.id record.target))
  | selfConnection (hunused : unused) (hsource : record.source ∈ ids)
      (hsame : record.source = record.target) :
      ConnectionFate ids record unused (.error (.selfConnection record.id record.source))
  | accepted (edge : Edge) (hunused : unused) (hne : record.source ≠ record.target)
      (hsource : ids[edge.source]? = some record.source)
      (htarget : ids[edge.target]? = some record.target)
      (hid : edge.connectionId = record.id) (houtput : edge.output = record.output)
      (hinput : edge.input = record.input) :
      ConnectionFate ids record unused (.ok edge)

namespace ConnectionFate

variable {ids : List String} {record : ConnectionRecord} {unused : Prop}

/-- A connection record is accepted exactly if it has none of the four defects. -/
theorem ok_iff {outcome : Except Rejection Edge} (h : ConnectionFate ids record unused outcome) :
    (∃ edge, outcome = .ok edge) ↔
      record.source ∈ ids ∧ record.target ∈ ids ∧ record.source ≠ record.target ∧ unused := by
  cases h with
  | duplicate hused => simp [hused]
  | unknownSource hunused hsource => simp [hsource]
  | unknownTarget hunused hsource htarget => simp [htarget]
  | selfConnection hunused hsource hsame => simp [hsame]
  | accepted edge hunused hne hsource htarget =>
      have hsource := List.mem_of_getElem? hsource
      have htarget := List.mem_of_getElem? htarget
      simp [hunused, hne, hsource, htarget]

/-- The code of a rejection tells the defects apart. -/
theorem code_iff {rejection : Rejection}
    (h : ConnectionFate ids record unused (.error rejection)) :
    rejection.subject = record.id ∧
      (rejection.code = "G005" ↔ ¬unused) ∧
      (rejection.code = "G003" ↔ unused ∧ (record.source ∉ ids ∨ record.target ∉ ids)) ∧
      (rejection.code = "G004" ↔
        unused ∧ record.source ∈ ids ∧ record.target ∈ ids ∧ record.source = record.target) := by
  cases h with
  | duplicate hused => simp [Rejection.subject, Rejection.code, hused]
  | unknownSource hunused hsource => simp [Rejection.subject, Rejection.code, hunused, hsource]
  | unknownTarget hunused hsource htarget =>
      simp [Rejection.subject, Rejection.code, hunused, htarget]
  | selfConnection hunused hsource hsame =>
      have htarget : record.target ∈ ids := hsame ▸ hsource
      simp [Rejection.subject, Rejection.code, hunused, hsame, htarget]

end ConnectionFate

/-- Every connection record has an outcome, and it is the one that the record deserves. -/
structure ConnectionAccount (ids : List String) (records : List ConnectionRecord)
    (outcomes : List (Except Rejection Edge)) : Prop where
  length_eq : outcomes.length = records.length
  fate : ∀ i record outcome, records[i]? = some record → outcomes[i]? = some outcome →
    ConnectionFate ids record (Unused records i record.id) outcome
  accepted_iff : ∀ i record, records[i]? = some record →
    ((∃ edge, outcomes[i]? = some (.ok edge)) ↔ record.source ∈ ids ∧ record.target ∈ ids ∧
      record.source ≠ record.target ∧ Unused records i record.id)
  code_iff : ∀ i record rejection, records[i]? = some record →
    outcomes[i]? = some (.error rejection) → rejection.subject = record.id ∧
      (rejection.code = "G005" ↔ ¬Unused records i record.id) ∧
      (rejection.code = "G003" ↔ Unused records i record.id ∧
        (record.source ∉ ids ∨ record.target ∉ ids)) ∧
      (rejection.code = "G004" ↔ Unused records i record.id ∧ record.source ∈ ids ∧
        record.target ∈ ids ∧ record.source = record.target)

/-- An id has no position exactly if no accepted node has it. -/
theorem position?_eq_none_iff {nodes : List Node} {id : String} :
    position? nodes id = none ↔ id ∉ nodes.map Node.id := by
  simp [position?, List.findIdx?_eq_none_iff]

/-- The id of a node stands at its position. -/
theorem getElem?_map_id_of_position? {nodes : List Node} {id : String} {position : Nat}
    (h : position? nodes id = some position) : (nodes.map Node.id)[position]? = some id := by
  obtain ⟨node, hnode, hid⟩ := getElem?_of_position? h
  rw [List.getElem?_map, hnode, Option.map_some, hid]

/-- A connection record is checked for its defects in the order in which they count. -/
theorem connectionFate_acceptConnection (nodes : List Node) (earlier : List String)
    (record : ConnectionRecord) :
    ConnectionFate (nodes.map Node.id) record
      (Text.isBlank record.id = true ∨ record.id ∉ earlier)
      (acceptConnection nodes earlier record) := by
  unfold acceptConnection
  -- A blank id can be used any number of times.
  by_cases hused : Text.isBlank record.id = false ∧ record.id ∈ earlier
  · rw [if_pos (by simpa using hused)]
    exact .duplicate (by simp [hused])
  · rw [if_neg (by simpa using hused)]
    have hunused : Text.isBlank record.id = true ∨ record.id ∉ earlier := by
      by_cases hblank : Text.isBlank record.id = true
      · exact Or.inl hblank
      · exact Or.inr fun hmem => hused ⟨by simpa using hblank, hmem⟩
    cases hsource : position? nodes record.source with
    | none => exact .unknownSource hunused (position?_eq_none_iff.mp hsource)
    | some source =>
        have hsourceId := getElem?_map_id_of_position? hsource
        cases htarget : position? nodes record.target with
        | none =>
            exact .unknownTarget hunused (List.mem_of_getElem? hsourceId)
              (position?_eq_none_iff.mp htarget)
        | some target =>
            have htargetId := getElem?_map_id_of_position? htarget
            -- the ends have one position exactly if they have one id
            by_cases hsame : source = target
            · have hids : record.source = record.target := by
                rw [hsame, htargetId, Option.some.injEq] at hsourceId
                exact hsourceId.symm
              simp only [if_pos hsame]
              exact .selfConnection hunused (List.mem_of_getElem? hsourceId) hids
            · have hids : record.source ≠ record.target := by
                intro heq
                rw [heq, htarget, Option.some.injEq] at hsource
                exact hsame hsource.symm
              simp only [if_neg hsame]
              exact .accepted _ hunused hids hsourceId htargetId rfl rfl rfl

/-- Every connection record has an outcome. -/
@[simp] theorem length_connectionOutcomes (nodes : List Node) (records : List ConnectionRecord)
    (earlier : List String) :
    (connectionOutcomes nodes earlier records).length = records.length := by
  induction records generalizing earlier with
  | nil => rfl
  | cons record rest ih => simp [connectionOutcomes, ih]

/-- The outcome at a position comes from checking its record against the ids of all records before
it. -/
theorem getElem?_connectionOutcomes (nodes : List Node) (records : List ConnectionRecord)
    (earlier : List String) (i : Nat) :
    (connectionOutcomes nodes earlier records)[i]? = records[i]?.map
      (acceptConnection nodes (((records.take i).map ConnectionRecord.id).reverse ++ earlier)) := by
  -- The ids before a record grow as the list is gone through, whatever the outcomes are.
  induction records generalizing earlier i with
  | nil => simp [connectionOutcomes]
  | cons record rest ih =>
      cases i with
      | zero => simp [connectionOutcomes]
      | succ i => simp [connectionOutcomes, ih (record.id :: earlier) i]

/-- An id counts as used exactly if a record before the position has it. -/
theorem mem_map_id_take_iff {records : List ConnectionRecord} {i : Nat} {id : String} :
    id ∈ (records.take i).map ConnectionRecord.id ↔
      ∃ j < i, ∃ record, records[j]? = some record ∧ record.id = id := by
  simp only [List.mem_map, mem_take_iff_getElem?]
  constructor
  · rintro ⟨record, ⟨j, hlt, hrecord⟩, hid⟩
    exact ⟨j, hlt, record, hrecord, hid⟩
  · rintro ⟨j, hlt, record, hrecord, hid⟩
    exact ⟨record, ⟨j, hlt, hrecord⟩, hid⟩

/-- The outcome of a connection record is the one that it deserves. -/
theorem connectionFate_connectionOutcomes (nodes : List Node) {records : List ConnectionRecord}
    {i : Nat} {record : ConnectionRecord} (hrecord : records[i]? = some record) :
    ∃ outcome, (connectionOutcomes nodes [] records)[i]? = some outcome ∧
      ConnectionFate (nodes.map Node.id) record (Unused records i record.id) outcome := by
  have hunused : Unused records i record.id ↔ Text.isBlank record.id = true ∨
      record.id ∉ ((records.take i).map ConnectionRecord.id).reverse := by
    rw [List.mem_reverse, mem_map_id_take_iff]
    simp only [Unused, not_exists, not_and]
  refine ⟨_, ?_, propext hunused ▸ connectionFate_acceptConnection nodes _ record⟩
  rw [getElem?_connectionOutcomes, hrecord, Option.map_some, List.append_nil]

/-- Every connection record has the outcome that it deserves. -/
theorem connectionAccount_connectionOutcomes (nodes : List Node)
    (records : List ConnectionRecord) :
    ConnectionAccount (nodes.map Node.id) records (connectionOutcomes nodes [] records) where
  length_eq := length_connectionOutcomes nodes records []
  fate := by
    intro i record outcome hrecord houtcome
    obtain ⟨outcome', houtcome', hfate⟩ := connectionFate_connectionOutcomes nodes hrecord
    obtain rfl : outcome' = outcome := by simpa [houtcome'] using houtcome
    exact hfate
  accepted_iff := by
    intro i record hrecord
    obtain ⟨outcome, houtcome, hfate⟩ := connectionFate_connectionOutcomes nodes hrecord
    simpa [houtcome] using hfate.ok_iff
  code_iff := by
    intro i record rejection hrecord hrejection
    obtain ⟨outcome, houtcome, hfate⟩ := connectionFate_connectionOutcomes nodes hrecord
    obtain rfl : outcome = .error rejection := by simpa [houtcome] using hrejection
    exact hfate.code_iff

/-! ## Main statement -/

/-- Each node record and each connection record of a flow has one outcome.  The accepted ones are
the nodes and edges of the graph, in the order of the records.  The others give one rejection each:
those of the nodes come before those of the connections, and both in the order of the records. -/
theorem build_accounts_for_records (flow : Flow) :
    ∃ nodeOutcomes connectionOutcomes,
      NodeAccount flow.nodes nodeOutcomes ∧
      ConnectionAccount (build flow).ids flow.connections connectionOutcomes ∧
      (build flow).nodes = accepted nodeOutcomes ∧
      (build flow).edges = accepted connectionOutcomes ∧
      (build flow).rejections = refused nodeOutcomes ++ refused connectionOutcomes ∧
      (build flow).nodes.length + (refused nodeOutcomes).length = flow.nodes.length ∧
      (build flow).edges.length + (refused connectionOutcomes).length =
        flow.connections.length := by
  have hnodes := nodeAccount_nodeOutcomes flow.nodes
  have hconnections := connectionAccount_connectionOutcomes (build flow).nodes flow.connections
  refine ⟨_, _, hnodes, hconnections, rfl, rfl, rfl, ?_, ?_⟩
  · rw [← hnodes.length_eq]
    exact length_accepted_add_length_refused _
  · rw [← hconnections.length_eq]
    exact length_accepted_add_length_refused _

-- a node that was rejected leaves its id to a later one, a rejected connection does not
example :
    ((build
      { nodes := [⟨"a", "NO_SUCH_TYPE", .null⟩, ⟨"a", "LOG_MESSAGE", .null⟩,
          ⟨"a", "NO_SUCH_TYPE", .null⟩, ⟨"b", "LOG_MESSAGE", .null⟩]
        connections := [⟨"c", "a", "z", none, none⟩, ⟨"c", "a", "b", none, none⟩,
          ⟨" ", "b", "b", none, none⟩, ⟨" ", "a", "b", none, none⟩] }).rejections.map
      Rejection.code) = ["G002", "G001", "G003", "G005", "G004"] := by
  cbv

end Graph

end TestFlow
