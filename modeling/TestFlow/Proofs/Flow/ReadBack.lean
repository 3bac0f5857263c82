import TestFlow.Flow.Printer
import TestFlow.Proofs.Compile.Failure
import TestFlow.Proofs.Json.Reader.Values
import TestFlow.Proofs.Json.Reader.Yields
import TestFlow.Proofs.Sift

/-!
# Flows are read back

A flow is written with all of its fields in the order in which they are declared, and so is every
record in it.  Such a record is read back if each of its values is (`readsBack_record`): the loop
finds each field by its name, none of them twice, and none is missing at the end.

The payloads are what may keep a flow from being read back.  A floating-point number may come back
as a neighbour of it, an object with a key twice loses one of the two values, and brackets are
refused beyond the limit, of which the text of a flow takes three before a payload starts.  Apart
from floating-point numbers, a flow that was read has none of these, so writing it and reading it
again changes nothing.

Reference: specification, §3 (the fields of nodes and connections) and §6 (input).

## Main definitions

* `InOrder` — the fields of a record are written in their declared order;
* `Flow.FloatFree`, `Flow.WithinBrackets` — what the payloads of a flow are like.

## Main statement

* `flow_is_read_back` — which flows are read back, and that they compile alike.
-/

namespace TestFlow

open Json (Reader)

namespace Json.Reader

/-! ## Records -/

/-- A field whose value is put into the record as it is reads back what its reader does. -/
theorem readsBack_of {σ α : Type} {reader : Reader α} {cs : List Char} {a : α}
    (h : ReadsBack reader cs a) (name : String) (required : Bool) (put : α → σ → σ) (state : σ) :
    ReadsBack ((Field.of name required reader put).read state) cs (put a state) := by
  intro rest hrest
  simp only [Field.of, h rest hrest, ok_bind]

/-- A string is read back from its text. -/
theorem readsBack_text (s : String) : ReadsBack text (stringText s) s := by
  intro rest _
  rw [stringText_append, text, skipSpace_cons rfl]
  exact quoted_inside s rest

theorem readsBack_optional_null {α : Type} (reader : Reader α) :
    ReadsBack (optional reader) Json.null.text none :=
  fun _ _ => rfl

/-- A value that may be null is read back, unless its text begins like that of null. -/
theorem readsBack_optional {α : Type} {reader : Reader α} {c : Char} {cs : List Char} {a : α}
    (h : ReadsBack reader (c :: cs) a) (hspace : isSpace c = false) (hnull : c ≠ 'n') :
    ReadsBack (optional reader) (c :: cs) (some a) := by
  intro rest hrest
  have hread := h rest hrest
  rw [List.cons_append] at hread ⊢
  simp [optional, skipSpace_cons hspace, hnull, hread, ok_bind]

/-- A list is read back if its items are. -/
theorem readsBack_sequence {α : Type} {item : Reader α} {encode : α → Json} {as : List α}
    (hread : ∀ a ∈ as, ReadsBack item (encode a).text a) {fuel : Nat} (hfuel : as.length ≤ fuel) :
    ReadsBack (sequence fuel item) (array (as.map encode)).text as := by
  intro rest _
  rw [text_array, List.cons_append, sequence, skipSpace_cons rfl]
  exact items_itemsText hread hfuel rest

/-- Written fields are read back one by one, in the order in which a record declares them. -/
inductive InOrder {σ : Type} : List (Field σ) → σ → List (String × Json) → σ → Prop
  | nil {state : σ} : InOrder [] state [] state
  | cons {field : Field σ} {fields : List (Field σ)} {v : Json} {entries : List (String × Json)}
      {state next result : σ} (hread : ReadsBack (field.read state) v.text next)
      (hrest : InOrder fields next entries result) :
      InOrder (field :: fields) state ((field.name, v) :: entries) result

section Records

variable {σ : Type}

/-- The loop over the fields of an object reads a record whose fields are written in order. -/
theorem InOrder.fieldsReadBack {all : List (Field σ)} (hnames : (all.map Field.name).Nodup)
    (fuel : Nat) {todo : List (Field σ)} {state result : σ} {entries : List (String × Json)}
    (h : InOrder todo state entries result) (done : List (Field σ)) (hall : done ++ todo = all) :
    FieldsReadBack (keyed fuel all) (state, (done.map Field.name).reverse) entries
      (result, (all.map Field.name).reverse) := by
  induction h generalizing done with
  | nil =>
      rw [List.append_nil] at hall
      rw [hall]
      exact .nil
  | @cons field todo v entries state next result hread _ ih =>
      -- the names that were read so far are those of the fields before this one
      have hnew : field.name ∉ (done.map Field.name).reverse := by
        rw [← hall, List.map_append, List.map_cons, List.nodup_middle, List.nodup_cons] at hnames
        rw [List.mem_reverse]
        exact fun hmem => hnames.1 (List.mem_append_left _ hmem)
      have hfound : all.find? (fun other => other.name = field.name) = some field :=
        find?_key hnames (show field ∈ all by simp [← hall])
      have hnext := ih (done ++ [field]) (by simpa using hall)
      rw [List.map_append, List.reverse_append] at hnext
      refine .cons ?_ hnext
      intro rest hrest
      simp only [keyed, hfound, if_neg hnew, List.cons_append, colon_cons, ok_bind,
        hread rest hrest]
      rfl

/-- A record whose fields are all written, in the order in which they are declared, is read back. -/
theorem readsBack_record {layout : Layout σ} (hnames : (layout.fields.map Field.name).Nodup)
    {entries : List (String × Json)} {result : σ}
    (h : InOrder layout.fields layout.empty entries result) {fuel : Nat}
    (hfuel : entries.length ≤ fuel) :
    ReadsBack (record fuel layout) (object entries).text result := by
  intro rest _
  have hread := fields_fieldsText (h.fieldsReadBack hnames fuel [] rfl) hfuel rest
  -- All fields were read, so none that is required is missing behind the closing brace.
  have hpresent : layout.fields.find? (fun field =>
      field.required && !(layout.fields.map Field.name).reverse.contains field.name) = none := by
    rw [List.find?_eq_none]
    intro field hfield
    simp [List.mem_map_of_mem hfield]
  rw [text_object, List.cons_append, record, skipSpace_cons rfl]
  rw [List.map_nil, List.reverse_nil] at hread
  simp only [hread, ok_bind, hpresent]

end Records

end Json.Reader

/-! ## Flows -/

open Json.Reader

/-- The name of an output or input is read back, or that there is none. -/
theorem readsBack_terminal (name : Option String) :
    ReadsBack (optional text) (terminalJson name).text name := by
  cases name with
  | none => exact readsBack_optional_null text
  | some name => exact readsBack_optional (readsBack_text name) rfl (by decide)

/-- A node is read back, if its payload is. -/
theorem readsBack_node {fuel : Nat} {node : NodeRecord} (hfloat : node.data.FloatFree)
    (hkeys : node.data.DistinctKeys) (hdepth : node.data.depth ≤ 124)
    (hfuel : node.toJson.text.length ≤ fuel) :
    ReadsBack (record fuel (NodeRecord.layout fuel)) node.toJson.text node := by
  obtain ⟨hlength, htext⟩ := length_text_object
    [("id", .string node.id), ("type", .string node.typeName), ("data", node.data)]
  -- The payload has fewer characters than the node, so the fuel that is enough for one is enough
  -- for the other.
  have hdata : node.data.text.length < node.toJson.text.length :=
    htext ("data", node.data) (by simp)
  have hnames : ((NodeRecord.layout fuel).fields.map Field.name).Nodup := by
    show ["id", "type", "data"].Nodup
    decide
  refine readsBack_record hnames ?_ (hlength.le.trans hfuel)
  refine .cons (readsBack_of (readsBack_text node.id) _ _ _ _) ?_
  refine .cons (readsBack_of (readsBack_text node.typeName) _ _ _ _) ?_
  exact .cons (readsBack_of (readsBack_value fuel _ hfloat hkeys hdepth (by omega)) _ _ _ _) .nil

/-- A connection is always read back. -/
theorem readsBack_connection {fuel : Nat} {connection : ConnectionRecord}
    (hfuel : connection.toJson.text.length ≤ fuel) :
    ReadsBack (record fuel ConnectionRecord.layout) connection.toJson.text connection := by
  have hlength := (length_text_object [("id", .string connection.id),
    ("fromNodeId", .string connection.source), ("toNodeId", .string connection.target),
    ("fromOutput", terminalJson connection.output),
    ("toInput", terminalJson connection.input)]).1
  have hnames : (ConnectionRecord.layout.fields.map Field.name).Nodup := by
    show ["id", "fromNodeId", "toNodeId", "fromOutput", "toInput"].Nodup
    decide
  refine readsBack_record hnames ?_ (hlength.le.trans hfuel)
  refine .cons (readsBack_of (readsBack_text connection.id) _ _ _ _) ?_
  refine .cons (readsBack_of (readsBack_text connection.source) _ _ _ _) ?_
  refine .cons (readsBack_of (readsBack_text connection.target) _ _ _ _) ?_
  refine .cons (readsBack_of (readsBack_terminal connection.output) _ _ _ _) ?_
  exact .cons (readsBack_of (readsBack_terminal connection.input) _ _ _ _) .nil

namespace Flow

/-- No payload of a flow has a floating-point number. -/
def FloatFree (flow : Flow) : Prop :=
  ∀ node ∈ flow.nodes, node.data.FloatFree

instance (flow : Flow) : Decidable flow.FloatFree :=
  inferInstanceAs (Decidable (∀ node ∈ flow.nodes, node.data.FloatFree))

/-- Each payload of a flow has distinct keys, and no more brackets than fit into the three that are
around it in the text of the flow. -/
def WithinBrackets (flow : Flow) : Prop :=
  ∀ node ∈ flow.nodes, node.data.DistinctKeys ∧ node.data.depth ≤ 124

/-- A flow is read back, if its payloads are. -/
theorem readsBack_flow {fuel : Nat} {flow : Flow} (hfloat : flow.FloatFree)
    (hpayloads : flow.WithinBrackets) (hfuel : flow.toJson.text.length ≤ fuel) :
    ReadsBack (record fuel (Flow.layout fuel)) flow.toJson.text flow := by
  obtain ⟨hlength, htext⟩ := length_text_object
    [("nodes", .array (flow.nodes.map NodeRecord.toJson)),
      ("connections", .array (flow.connections.map ConnectionRecord.toJson))]
  have hnodes : (Json.array (flow.nodes.map NodeRecord.toJson)).text.length <
      flow.toJson.text.length := htext ("nodes", _) (by simp)
  have hconnections : (Json.array (flow.connections.map ConnectionRecord.toJson)).text.length <
      flow.toJson.text.length := htext ("connections", _) (by simp)
  obtain ⟨hnodesLength, hnodesText⟩ := length_text_array (flow.nodes.map NodeRecord.toJson)
  obtain ⟨hconnectionsLength, hconnectionsText⟩ :=
    length_text_array (flow.connections.map ConnectionRecord.toJson)
  rw [List.length_map] at hnodesLength hconnectionsLength
  -- From here on the lists are read item by item, each with fuel enough for the whole text.
  have hnode : ∀ node ∈ flow.nodes,
      ReadsBack (record fuel (NodeRecord.layout fuel)) node.toJson.text node := by
    intro node hnode
    have hshort := hnodesText _ (List.mem_map_of_mem hnode)
    obtain ⟨hkeys, hdepth⟩ := hpayloads node hnode
    exact readsBack_node (hfloat node hnode) hkeys hdepth (by omega)
  have hconnection : ∀ connection ∈ flow.connections,
      ReadsBack (record fuel ConnectionRecord.layout) connection.toJson.text connection := by
    intro connection hconnection
    have hshort := hconnectionsText _ (List.mem_map_of_mem hconnection)
    exact readsBack_connection (by omega)
  have hnames : ((Flow.layout fuel).fields.map Field.name).Nodup := by
    show ["nodes", "connections"].Nodup
    decide
  refine readsBack_record hnames ?_ (hlength.le.trans hfuel)
  refine .cons (readsBack_of (readsBack_sequence hnode (by omega)) _ _ _ _) ?_
  have hsequence := readsBack_sequence hconnection (show flow.connections.length ≤ fuel by omega)
  rw [text_array] at hsequence
  refine .cons (readsBack_of (a := some flow.connections) ?_ _ _ _ _) .nil
  rw [text_array]
  exact readsBack_optional hsequence rfl (by decide)

/-- A flow is read from its compact text. -/
theorem parse_compact {flow : Flow} (hfloat : flow.FloatFree) (hpayloads : flow.WithinBrackets) :
    Flow.parse flow.compact = .ok flow :=
  ReadsBack.run (readsBack_flow hfloat hpayloads (Nat.le_refl _))

/-- Two flows that are read back from their compact texts are the same if these texts are. -/
theorem eq_of_compact_eq {flow flow' : Flow} (hfloat : flow.FloatFree)
    (hpayloads : flow.WithinBrackets) (hfloat' : flow'.FloatFree)
    (hpayloads' : flow'.WithinBrackets) (h : flow.compact = flow'.compact) : flow = flow' := by
  have hread := parse_compact hfloat hpayloads
  rw [h, parse_compact hfloat' hpayloads'] at hread
  exact (Except.ok.inj hread).symm

/-- The payload of a node that was read has distinct keys and few enough brackets. -/
theorem yields_node (fuel : Nat) : Yields (record fuel (NodeRecord.layout fuel))
    (fun node => node.data.DistinctKeys ∧ node.data.depth ≤ 124) := by
  apply yields_record
  · exact ⟨Json.IsScalar.distinctKeys trivial, Nat.zero_le _⟩
  · intro field hfield
    simp only [NodeRecord.layout, List.mem_cons, List.not_mem_nil, or_false] at hfield
    rcases hfield with rfl | rfl | rfl
    · apply Field.keeps_of_put
      exact fun _ _ h => h
    · apply Field.keeps_of_put
      exact fun _ _ h => h
    -- Three brackets of the limit are open around a payload.
    · exact Field.keeps_of (yields_value fuel 124) (fun _ _ h _ => h) _ _

/-- So have all payloads of a flow that was read. -/
theorem withinBrackets_of_parse {s : String} {flow : Flow} (h : Flow.parse s = .ok flow) :
    flow.WithinBrackets := by
  have hflow : ∀ fuel, Yields (record fuel (Flow.layout fuel)) WithinBrackets := by
    intro fuel
    apply yields_record
    · exact List.forall_mem_nil _
    · intro field hfield
      simp only [Flow.layout, List.mem_cons, List.not_mem_nil, or_false] at hfield
      rcases hfield with rfl | rfl
      · exact Field.keeps_of (yields_sequence (yields_node fuel) fuel) (fun _ _ h _ => h) _ _
      · apply Field.keeps_of_put
        exact fun _ _ h => h
  exact Yields.run hflow h

end Flow

/-- A flow without floating-point numbers is read back from its compact text, exactly if the keys of
its objects are distinct and no more than 124 brackets are open at a time in a payload.  All that
can be read from some text is so, and then the compact text compiles as that text does. -/
theorem flow_is_read_back (flow : Flow) (hfloat : flow.FloatFree) :
    (Flow.parse flow.compact = .ok flow ↔
      ∀ node ∈ flow.nodes, node.data.DistinctKeys ∧ node.data.depth ≤ 124) ∧
      ∀ s, Flow.parse s = .ok flow →
        Flow.parse flow.compact = .ok flow ∧ compileText flow.compact = compileText s := by
  refine ⟨⟨Flow.withinBrackets_of_parse, Flow.parse_compact hfloat⟩, ?_⟩
  intro s hparse
  have hcompact := Flow.parse_compact hfloat (Flow.withinBrackets_of_parse hparse)
  refine ⟨hcompact, ?_⟩
  rw [compileText_of_parse_ok hcompact, compileText_of_parse_ok hparse]

/-- A message whose payload has the largest and the smallest number, empty brackets, an empty key
and characters that must be escaped, and a connection that names its output only. -/
def unrulyMessage : Flow where
  nodes := [⟨"a\nb", "LOG_MESSAGE", .object [
    ("m", .array [.number (.integer 18446744073709551615 (by decide)),
      .number (.integer (-9223372036854775808) (by decide)), .array [], .object []]),
    ("", .string "é\"\\\x01"), ("k", .null)]⟩]
  connections := [⟨"", "a\nb", "z", some "o", none⟩]

/-- The flow as a hand may have written it: fields in another order and a field that is not known,
a connection as a list of its values, and a key whose first value does not count. -/
def unrulyMessageText : String :=
  "\x7b\"x\":[\x7b\x7d], \"connections\":[[\"\",\"a\\nb\",\"z\",\"o\"]], \"nodes\":[\x7b" ++
    "\"type\":\"LOG_MESSAGE\",\"id\":\"a\\u000ab\",\"data\":\x7b\"m\":1," ++
    "\"\":\"\\u00E9\\\"\\\\\\u0001\",\"k\":null," ++
    "\"m\":[18446744073709551615,-9223372036854775808,[],\x7b\x7d]\x7d\x7d]\x7d"

/-- The text by hand is read as the message, though it is not the compact text, and both compile
alike. -/
theorem unrulyMessage_is_read_back :
    unrulyMessage.FloatFree ∧ Flow.parse unrulyMessageText = .ok unrulyMessage ∧
      unrulyMessageText ≠ unrulyMessage.compact ∧
      Flow.parse unrulyMessage.compact = .ok unrulyMessage ∧
      compileText unrulyMessage.compact = compileText unrulyMessageText := by
  have hfloat : unrulyMessage.FloatFree := by decide
  have hpayloads : unrulyMessage.WithinBrackets := by
    intro node hnode
    obtain rfl := List.mem_singleton.mp hnode
    exact ⟨by simp, by decide⟩
  -- Equality of flows cannot be decided, because that of floating-point numbers cannot.  So what
  -- the text is read as is compared with the message by its compact text.
  have hread : ((Flow.parse unrulyMessageText).toOption.any fun flow =>
      decide (flow.FloatFree ∧ flow.compact = unrulyMessage.compact)) = true := by
    decide +kernel
  have hparse : Flow.parse unrulyMessageText = .ok unrulyMessage := by
    cases hflow : Flow.parse unrulyMessageText with
    | error e => rw [hflow] at hread; cases hread
    | ok flow =>
        rw [hflow] at hread
        obtain ⟨hfloat', hcompact⟩ := of_decide_eq_true hread
        rw [Flow.eq_of_compact_eq hfloat' (Flow.withinBrackets_of_parse hflow) hfloat hpayloads
          hcompact]
  exact ⟨hfloat, hparse, by decide +kernel, (flow_is_read_back unrulyMessage hfloat).2 _ hparse⟩

end TestFlow
