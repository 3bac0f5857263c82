import TestFlow.Proofs.Compile.Blocks
import TestFlow.Proofs.Component.Sentences

/-!
# What the text of a document tells

Ids, types, addresses, paths, bodies and the messages of the reader may all hold line breaks, and
all of them come into the steps of a document.  Every step is made by `Step.say` or `Step.warn`,
which leave no line break, so a step stays on its line and the lines of the text are those of the
steps.

No instruction begins like a diagnostic, since none of the keywords does.  So the text of a document
tells which of its steps are diagnostics, and of the instructions it tells everything.  A diagnostic
is told by its line only: where its subject ends cannot be read off, as the subject is any text.

Reference: specification, §3 (a step is a single line) and §4.4 (document assembler).

## Main definitions

* `textLines` — the lines of a text;
* `isWarningLine` — a line begins like that of a diagnostic;
* `Document.LineByLine` — the lines of the text are those of the steps;
* `Document.ReadAlike` — two documents that a reader of their texts takes for the same.

## Main statement

* `compiled_text_tells_steps` — the text of a compiled flow tells its steps.
-/

namespace TestFlow

open Text

/-! ## Lines of steps -/

/-- The lines of a text, which the line feeds divide. -/
def textLines (s : String) : List String :=
  (s.split '\n').toList.map String.Slice.copy

/-- A line begins like that of a diagnostic. -/
def isWarningLine (line : String) : Bool :=
  line.startsWith "  # WARNING ["

/-- Keywords are told by their texts. -/
theorem Keyword.text_injective : Function.Injective Keyword.text := by
  intro keyword keyword' h
  revert h
  cases keyword <;> cases keyword' <;> decide

namespace Step

/-- An instruction has no line break. -/
theorem unbroken_say (keyword : Keyword) (text : String) :
    Unbroken (say keyword text).line.toList := by
  have htext := unbroken_oneLine text
  cases keyword <;> simpa [say, line, Keyword.text, isLineBreak] using htext

/-- A diagnostic has no line break, neither in its subject nor in its message. -/
theorem unbroken_warn (subject message : String) :
    Unbroken (warn subject message).line.toList := by
  have hsubject := unbroken_oneLine subject
  have hmessage := unbroken_oneLine message
  simpa [warn, line, isLineBreak] using ⟨hsubject, hmessage⟩

/-- A line begins like that of a diagnostic exactly if it is one. -/
theorem isWarningLine_line (step : Step) :
    isWarningLine ("  " ++ step.line) = step.isDiagnostic := by
  rw [isWarningLine, Bool.eq_iff_iff, String.startsWith_string_iff]
  cases step with
  | diagnostic subject message => simp [line, isDiagnostic]
  | instruction keyword text => cases keyword <;> simp [line, isDiagnostic, Keyword.text]

/-- The keyword of an instruction is what its line has before the first blank. -/
theorem splitOn_line_instruction (keyword : Keyword) (text : String) :
    (instruction keyword text).line.toList.splitOn ' ' =
      keyword.text.toList :: text.toList.splitOn ' ' := by
  have hblank : ' ' ∉ keyword.text.toList := by
    cases keyword <;> decide
  rw [line, String.toList_append, String.toList_append, List.append_assoc]
  exact List.splitOn_append_cons_self_of_not_mem hblank text.toList

/-- The keyword and the text of an instruction can be read off its line. -/
theorem line_instruction_inj {keyword keyword' : Keyword} {text text' : String}
    (h : (instruction keyword text).line = (instruction keyword' text').line) :
    keyword = keyword' ∧ text = text' := by
  have hsplit := congrArg (fun line : String => line.toList.splitOn ' ') h
  simp only [splitOn_line_instruction, List.cons.injEq, String.toList_inj] at hsplit
  obtain rfl : keyword = keyword' := Keyword.text_injective hsplit.1
  refine ⟨rfl, ?_⟩
  -- What stands behind the first blank is put together again, and is the text.
  have htext : [' '].intercalate (text.toList.splitOn ' ') =
      [' '].intercalate (text'.toList.splitOn ' ') := by
    rw [hsplit.2]
  rwa [List.intercalate_splitOn, List.intercalate_splitOn, String.toList_inj] at htext

/-- Steps with the same line are both instructions or both diagnostics. -/
theorem isDiagnostic_eq_of_line {step step' : Step} (h : step.line = step'.line) :
    step.isDiagnostic = step'.isDiagnostic := by
  rw [← step.isWarningLine_line, ← step'.isWarningLine_line, h]

/-- An instruction is told by its line. -/
theorem eq_instruction_of_line {step : Step} {keyword : Keyword} {text : String}
    (h : step.line = (instruction keyword text).line) : step = instruction keyword text := by
  cases step with
  | diagnostic subject message =>
      have hsame : true = false := isDiagnostic_eq_of_line h
      cases hsame
  | instruction keyword' text' =>
      obtain ⟨rfl, rfl⟩ := line_instruction_inj h
      rfl

end Step

/-! ## Steps without line breaks -/

/-- The lines of a draft are joined, be it sound or not. -/
theorem Draft.unbroken_step (subject : String) (draft : Draft) :
    Unbroken (draft.step subject).line.toList := by
  cases draft with
  | instruction keyword text => exact Step.unbroken_say keyword text
  | notice message => exact Step.unbroken_warn subject message

theorem Node.steps_unbroken (node : Node) : ∀ step ∈ node.steps, Unbroken step.line.toList :=
  List.forall_mem_map.mpr fun draft _ => draft.unbroken_step node.id

/-- No step of a graph has a line break, whether it reports a rejection or comes from a node. -/
theorem Graph.steps_unbroken (graph : Graph) (order : List Node) :
    ∀ step ∈ graph.steps order, Unbroken step.line.toList := by
  intro step hstep
  rcases List.mem_append.mp hstep with hrejection | hnode
  · obtain ⟨rejection, -, rfl⟩ := List.mem_map.mp hrejection
    exact Step.unbroken_warn _ _
  · obtain ⟨node, -, hstep⟩ := List.mem_flatMap.mp hnode
    exact node.steps_unbroken step hstep

/-! ## Lines of documents -/

namespace Document

/-- The lines of the text of a document: its titles, its steps and an empty rest. -/
def lines (document : Document) : List String :=
  ["Feature: " ++ document.feature, "", "Scenario: " ++ document.scenario]
    ++ document.steps.map (fun step => "  " ++ step.line) ++ [""]

/-- A line feed behind each step, or between the steps and an empty rest, comes to the same. -/
theorem intercalate_bodyLines (steps : List Step) :
    "\n".intercalate (steps.map (fun step => "  " ++ step.line) ++ [""]) =
      String.join (steps.map bodyLine) := by
  induction steps with
  | nil => rfl
  | cons step rest ih =>
      rw [List.map_cons, List.cons_append, String.intercalate_cons_of_ne_nil (by simp), ih,
        List.map_cons, String.join_cons, bodyLine]

/-- The text of a document is made of its lines with line feeds between them. -/
theorem render_eq_intercalate (document : Document) :
    document.render = "\n".intercalate document.lines := by
  rw [lines, List.append_assoc, String.intercalate_append_of_ne_nil (by simp) (by simp),
    intercalate_bodyLines, render, ← String.toList_inj]
  simp

/-- The text of steps without line breaks is divided into the lines it was made of. -/
theorem textLines_render {steps : List Step}
    (h : ∀ step ∈ steps, Unbroken step.line.toList) :
    textLines (ofSteps steps).render = (ofSteps steps).lines := by
  have hlines : ∀ line ∈ (ofSteps steps).lines, '\n' ∉ line.toList := by
    intro line hline
    simp only [lines, List.mem_append, List.mem_map, List.mem_cons, List.not_mem_nil,
      or_false] at hline
    rcases hline with ((rfl | rfl | rfl) | ⟨step, hstep, rfl⟩) | rfl
    · show '\n' ∉ "Feature: Generated API Test".toList
      decide
    · decide
    · show '\n' ∉ "Scenario: Visual Flow Test".toList
      decide
    · simpa using (h step hstep).lineFeed_not_mem
    · decide
  rw [textLines, render_eq_intercalate]
  exact (String.toList_split_intercalate hlines).trans (if_neg (by simp [lines]))

/-- The text of a document has the lines of its titles and of its steps, none of which has a line
break, and it shows which of the steps are diagnostics. -/
structure LineByLine (document : Document) : Prop where
  line_unbroken : ∀ step ∈ document.steps, '\n' ∉ step.line.toList ∧ '\r' ∉ step.line.toList
  textLines_eq : textLines document.render =
    ["Feature: Generated API Test", "", "Scenario: Visual Flow Test"]
      ++ document.steps.map (fun step => "  " ++ step.line) ++ [""]
  isWarningLine_iff : ∀ step ∈ document.steps,
    isWarningLine ("  " ++ step.line) = true ↔ step.isDiagnostic = true
  diagnosticCount_eq : document.diagnosticCount = (textLines document.render).countP isWarningLine

/-- Two documents have the same number of steps, and at each position the same line and the same
instruction, or a diagnostic in both. -/
structure ReadAlike (document other : Document) : Prop where
  length_eq : document.steps.length = other.steps.length
  line_eq : ∀ (i : Nat) (step step' : Step), document.steps[i]? = some step →
    other.steps[i]? = some step' →
      step.line = step'.line ∧ step.isDiagnostic = step'.isDiagnostic
  instruction_iff : ∀ (i : Nat) (keyword : Keyword) (text : String),
    document.steps[i]? = some (.instruction keyword text) ↔
      other.steps[i]? = some (.instruction keyword text)

/-- The text of steps without line breaks shows them line by line. -/
theorem lineByLine_ofSteps {steps : List Step} (h : ∀ step ∈ steps, Unbroken step.line.toList) :
    (ofSteps steps).LineByLine where
  line_unbroken step hstep :=
    ⟨(h step hstep).lineFeed_not_mem, (h step hstep).carriageReturn_not_mem⟩
  textLines_eq := textLines_render h
  isWarningLine_iff step _ := by rw [step.isWarningLine_line]
  diagnosticCount_eq := by
    have hbody : isWarningLine ∘ (fun step : Step => "  " ++ step.line) = Step.isDiagnostic :=
      funext Step.isWarningLine_line
    -- neither the titles nor the empty rest begin like a diagnostic
    have htitles : ["Feature: Generated API Test", "", "Scenario: Visual Flow Test"].countP
        isWarningLine = 0 := by
      simp [isWarningLine]
    have hrest : [""].countP isWarningLine = 0 := by
      simp [isWarningLine]
    have hlines : textLines (ofSteps steps).render =
        ["Feature: Generated API Test", "", "Scenario: Visual Flow Test"]
          ++ steps.map (fun step => "  " ++ step.line) ++ [""] := textLines_render h
    rw [hlines, List.countP_append, List.countP_append, List.countP_map, hbody, htitles, hrest,
      Nat.zero_add]
    rfl

/-- An instruction of one of two documents with the same lines is an instruction of the other. -/
theorem getElem?_instruction_of_map_line {document other : Document}
    (h : document.steps.map Step.line = other.steps.map Step.line) {i : Nat} {keyword : Keyword}
    {text : String} (hstep : document.steps[i]? = some (.instruction keyword text)) :
    other.steps[i]? = some (.instruction keyword text) := by
  have hi : other.steps[i]?.map Step.line = some (Step.instruction keyword text).line := by
    rw [← List.getElem?_map, ← h, List.getElem?_map, hstep, Option.map_some]
  obtain ⟨step, hstep', hline⟩ := Option.map_eq_some_iff.mp hi
  rw [hstep', Step.eq_instruction_of_line hline]

/-- Documents whose steps have the same lines are read alike. -/
theorem readAlike_of_map_line {document other : Document}
    (h : document.steps.map Step.line = other.steps.map Step.line) :
    document.ReadAlike other where
  length_eq := by
    rw [← List.length_map Step.line, h, List.length_map]
  line_eq := by
    intro i step step' hstep hstep'
    have hi := congrArg (fun lines : List String => lines[i]?) h
    simp only [List.getElem?_map, hstep, hstep', Option.map_some, Option.some.injEq] at hi
    exact ⟨hi, Step.isDiagnostic_eq_of_line hi⟩
  instruction_iff := by
    intro i keyword text
    exact ⟨getElem?_instruction_of_map_line h, getElem?_instruction_of_map_line h.symm⟩

/-- Documents that are rendered alike, line by line, have steps with the same lines. -/
theorem LineByLine.map_line_eq {document other : Document} (h : document.LineByLine)
    (h' : other.LineByLine) (hrender : document.render = other.render) :
    document.steps.map Step.line = other.steps.map Step.line := by
  -- The titles are the same in all documents, so what is left of two equal texts are the lines of
  -- their steps.
  have hlines := h.textLines_eq.symm.trans ((congrArg textLines hrender).trans h'.textLines_eq)
  have hbody := List.append_cancel_left (List.append_cancel_right hlines)
  have hindent : Function.Injective fun line : String => "  " ++ line := by
    intro line line' hline
    simpa [← String.toList_inj] using hline
  refine hindent.list_map ?_
  rw [List.map_map, List.map_map]
  exact hbody

end Document

/-- The text of a compiled flow consists of its titles and of one line for each of its steps, and
shows which of them are diagnostics.  Flows that are compiled to the same text have the same lines,
the same diagnostics by their lines and the same instructions. -/
theorem compiled_text_tells_steps (flow : Flow) {document : Document}
    (h : flow.compile = .ok document) :
    document.LineByLine ∧
      ∀ (other : Flow) (document' : Document), other.compile = .ok document' →
        document.render = document'.render → document.ReadAlike document' := by
  have hcompiled : ∀ {flow : Flow} {document : Document}, flow.compile = .ok document →
      document.LineByLine := by
    intro flow document h
    obtain ⟨order, -, rfl⟩ := Graph.exists_order_of_compile h
    exact Document.lineByLine_ofSteps ((Graph.build flow).steps_unbroken order)
  refine ⟨hcompiled h, ?_⟩
  intro other document' h' hrender
  exact Document.readAlike_of_map_line ((hcompiled h).map_line_eq (hcompiled h') hrender)

/-- A node of no known type, and a message of two lines. -/
def strayFlow (id typeName : String) : Flow where
  nodes := [⟨id, typeName, .null⟩, ⟨"m", "LOG_MESSAGE", .object [("message", .string "x\ny")]⟩]
  connections := []

/-- The document of a stray flow is the rejection of its node and the message on one line. -/
theorem compile_strayFlow (id typeName : String) (hid : Text.isBlank id = false)
    (htype : Kind.ofTypeName? typeName = none) :
    (strayFlow id typeName).compile = .ok (.ofSteps
      [(Rejection.unknownType id typeName).step, .say .star "print 'x\\ny'"]) := by
  have hmessage : Graph.acceptNode [] ⟨"m", "LOG_MESSAGE", .object [("message", .string "x\ny")]⟩ =
      .ok ⟨"m", .message, .ok (.message ⟨some "x\ny"⟩)⟩ := by
    cbv
  have hstray : Graph.acceptNode [] ⟨id, typeName, .null⟩ = .error (.unknownType id typeName) := by
    simp [Graph.acceptNode, hid, htype]
  have hbuild : Graph.build (strayFlow id typeName) =
      ⟨[⟨"m", .message, .ok (.message ⟨some "x\ny"⟩)⟩], [], [.unknownType id typeName]⟩ := by
    simp [Graph.build, Graph.nodeOutcomes, Graph.connectionOutcomes, strayFlow, sift, hstray,
      hmessage]
  rw [Flow.compile, hbuild, Graph.compile_of_order (Graph.order_singleton _ _)]
  rfl

/-- Two diagnostics that differ in where the subject ends have the same line. -/
theorem strayFlow_text_tells_steps :
    ∃ document document',
      (strayFlow "a\r\nb" "]: Unknown component type 'T").compile = .ok document ∧
      (strayFlow "a b]: Unknown component type '" "T").compile = .ok document' ∧
      document.steps ≠ document'.steps ∧ document.render = document'.render ∧
      document.LineByLine ∧ document.ReadAlike document' := by
  have hcompile := compile_strayFlow "a\r\nb" "]: Unknown component type 'T" (by decide +kernel)
    (by decide +kernel)
  have hcompile' := compile_strayFlow "a b]: Unknown component type '" "T" (by decide +kernel)
    (by decide +kernel)
  obtain ⟨hlines, halike⟩ := compiled_text_tells_steps _ hcompile
  exact ⟨_, _, hcompile, hcompile', by decide +kernel, by decide +kernel, hlines,
    halike _ _ hcompile' (by decide +kernel)⟩

end TestFlow
