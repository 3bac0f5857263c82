import TestFlow.Editor
import TestFlow.Proofs.Compile.Failure
import TestFlow.Proofs.Compile.Rendering

/-!
# What the editor is told

The editor can ask for the document of a flow and for the records that would not be accepted.  The
two answers are made apart from each other, and have only the reading of the text and the building
of the graph in common.  They agree nevertheless.  Both are errors, and the same, where the text
cannot be read.  Otherwise the records that are not accepted are known, also if the connections go
in a circle and there is no document, and a document begins with one line for each of them.

Reference: specification, §6 (entry points) and §7 (errors).

## Main definition

* `Rejection.warningLine` — the line of a document that reports a rejection.

## Main statement

* `editor_answers_agree` — the answers to the editor agree.
-/

namespace TestFlow

/-! ## Reading -/

/-- A flow can be read exactly if its text can be parsed. -/
theorem Flow.read_eq_ok_iff {s : String} {flow : Flow} :
    Flow.read s = .ok flow ↔ Flow.parse s = .ok flow := by
  rw [Flow.read]
  rcases Flow.parse s with e | parsed
  · exact iff_of_false (by rintro ⟨⟩) (by rintro ⟨⟩)
  · constructor
    · rintro ⟨⟩
      rfl
    · rintro ⟨⟩
      rfl

/-- A flow cannot be read exactly if its text cannot be parsed. -/
theorem Flow.read_eq_error_iff {s : String} :
    (∃ failure, Flow.read s = .error failure) ↔ ∃ e, Flow.parse s = .error e := by
  rw [Flow.read]
  rcases Flow.parse s with e | parsed
  · exact iff_of_true ⟨_, rfl⟩ ⟨e, rfl⟩
  · exact iff_of_false (by rintro ⟨failure, ⟨⟩⟩) (by rintro ⟨e, ⟨⟩⟩)

/-! ## Lines that report a rejection -/

/-- The line of a document that reports a rejection. -/
def Rejection.warningLine (rejection : Rejection) : String :=
  "  # WARNING [" ++ Text.oneLine rejection.subject ++ "]: " ++ Text.oneLine rejection.message

/-- A rejection is reported by its step, indented. -/
theorem Rejection.warningLine_eq (rejection : Rejection) :
    rejection.warningLine = "  " ++ rejection.step.line := by
  rw [← String.toList_inj]
  simp [Rejection.warningLine, Rejection.step, Step.warn, Step.line]

/-- The lines of a compiled graph report the rejections first, and then tell the steps of the
nodes. -/
theorem Graph.textLines_render (graph : Graph) (order : List Node) :
    textLines (Document.ofSteps (graph.steps order)).render =
      ["Feature: Generated API Test", "", "Scenario: Visual Flow Test"] ++
        graph.rejections.map Rejection.warningLine ++
        (order.flatMap Node.steps).map (fun step => "  " ++ step.line) ++ [""] := by
  have hwarnings : graph.rejections.map Rejection.warningLine =
      (graph.rejections.map Rejection.step).map fun step => "  " ++ step.line := by
    rw [List.map_map]
    exact List.map_congr_left fun rejection _ => rejection.warningLine_eq
  have hlines := (Document.lineByLine_ofSteps (graph.steps_unbroken order)).textLines_eq
  -- The lines of all steps are those of the rejections and those of the nodes, in that order.
  rw [hlines, hwarnings, List.append_assoc _ (List.map _ _) (List.map _ _), ← List.map_append]
  rfl

namespace Editor

/-! ## Answers -/

variable {s : String}

/-- Where a flow cannot be read, both answers are the failure to read it. -/
theorem answers_of_read_error {failure : Failure} (h : Flow.read s = .error failure) :
    inspect s = .errors [failure] ∧ compile s = .errors [failure] := by
  have htext : compileText s = .error failure := by
    rw [compileText, h]
    rfl
  rw [inspect, compile, h, htext]
  exact ⟨rfl, rfl⟩

/-- Where a flow can be read, its rejections are known. -/
theorem inspect_of_read_ok {flow : Flow} (h : Flow.read s = .ok flow) :
    inspect s = .success (Graph.build flow).rejections := by
  rw [inspect, h]
  rfl

/-- Where the nodes have no order, the answer is the failure of a circle. -/
theorem compile_of_circle {flow : Flow} {failure : Failure} (h : Flow.parse s = .ok flow)
    (horder : (Graph.build flow).order = .error failure) :
    compile s = .errors [failure] ∧ failure.code = "R001" := by
  have hfails : flow.compile = .error failure := Graph.compile_eq_error_iff.mpr horder
  have htext : compileText s = .error failure := by
    rw [compileText_of_parse_ok h, hfails]
    rfl
  obtain ⟨path, rfl⟩ := Flow.exists_ofCycle_of_compile hfails
  rw [compile, htext]
  exact ⟨rfl, rfl⟩

/-- Where the nodes have an order, the answer is the text of the document. -/
theorem compile_of_order {flow : Flow} {order : List Node} (h : Flow.parse s = .ok flow)
    (horder : (Graph.build flow).order = .ok order) :
    ∃ text, compile s = .success text ∧ compileText s = .ok text ∧
      text = (Document.ofSteps ((Graph.build flow).steps order)).render := by
  have htext : compileText s =
      .ok (Document.ofSteps ((Graph.build flow).steps order)).render := by
    rw [compileText_of_parse_ok h, Flow.compile, Graph.compile_of_order horder]
    rfl
  rw [compile, htext]
  exact ⟨_, rfl, rfl, rfl⟩

end Editor

/-- Asked about a text, the editor gets errors on both counts or the rejections.  The errors are the
same, and there is just one.  With the rejections comes the failure of a circle, or else the text of
the document, whose first lines below the titles report the rejections one by one. -/
theorem editor_answers_agree (s : String) :
    ((∃ failures, Editor.inspect s = .errors failures) ↔ ∃ e, Flow.parse s = .error e) ∧
      (∀ failures, Editor.inspect s = .errors failures →
        (∃ failure, failures = [failure]) ∧ Editor.compile s = .errors failures) ∧
      (∀ rejections, Editor.inspect s = .success rejections →
        ∃ flow, Flow.parse s = .ok flow ∧ rejections = (Graph.build flow).rejections ∧
          ((∃ failure, Editor.compile s = .errors [failure] ∧ failure.code = "R001") ∨
            ∃ order text, (Graph.build flow).order = .ok order ∧
              Editor.compile s = .success text ∧ compileText s = .ok text ∧
              textLines text =
                ["Feature: Generated API Test", "", "Scenario: Visual Flow Test"] ++
                  rejections.map Rejection.warningLine ++
                  (order.flatMap Node.steps).map (fun step => "  " ++ step.line) ++ [""])) := by
  rcases hread : Flow.read s with failure | flow
  · obtain ⟨hinspect, hcompile⟩ := Editor.answers_of_read_error hread
    rw [hinspect, hcompile]
    refine ⟨iff_of_true ⟨_, rfl⟩ (Flow.read_eq_error_iff.mp ⟨failure, hread⟩), ?_, ?_⟩
    · rintro failures ⟨⟩
      exact ⟨⟨failure, rfl⟩, rfl⟩
    · rintro rejections ⟨⟩
  · have hparse := Flow.read_eq_ok_iff.mp hread
    rw [Editor.inspect_of_read_ok hread, hparse]
    refine ⟨iff_of_false (by rintro ⟨failures, ⟨⟩⟩) (by rintro ⟨e, ⟨⟩⟩), ?_, ?_⟩
    · rintro failures ⟨⟩
    · rintro rejections ⟨⟩
      refine ⟨flow, rfl, rfl, ?_⟩
      -- a graph without an order has no document, and its rejections are known all the same
      rcases horder : (Graph.build flow).order with failure | order
      · exact Or.inl ⟨failure, Editor.compile_of_circle hparse horder⟩
      · obtain ⟨text, hcompile, htext, rfl⟩ := Editor.compile_of_order hparse horder
        exact Or.inr ⟨order, _, rfl, hcompile, htext, (Graph.build flow).textLines_render order⟩

end TestFlow
