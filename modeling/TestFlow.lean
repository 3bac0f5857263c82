import TestFlow.Editor
import TestFlow.Flow.Edit
import TestFlow.Flow.Printer
import TestFlow.Trace
import TestFlow.Proofs.Check.Comparison
import TestFlow.Proofs.Check.Number
import TestFlow.Proofs.Check.Path
import TestFlow.Proofs.Check.Steps
import TestFlow.Proofs.Compile.Blocks
import TestFlow.Proofs.Compile.Failure
import TestFlow.Proofs.Compile.Origin
import TestFlow.Proofs.Compile.Outline
import TestFlow.Proofs.Compile.Redundant
import TestFlow.Proofs.Compile.Rendering
import TestFlow.Proofs.Compile.Sanitized
import TestFlow.Proofs.Component.Absent
import TestFlow.Proofs.Component.Count
import TestFlow.Proofs.Component.Emit
import TestFlow.Proofs.Component.Sentences
import TestFlow.Proofs.Component.Texts
import TestFlow.Proofs.Credential.UserPassword
import TestFlow.Proofs.Editor
import TestFlow.Proofs.Flow.ReadBack
import TestFlow.Proofs.Graph.Account
import TestFlow.Proofs.Graph.Incoming
import TestFlow.Proofs.Graph.Outcomes
import TestFlow.Proofs.Graph.WellFormed
import TestFlow.Proofs.Json.Decode
import TestFlow.Proofs.Json.Natural
import TestFlow.Proofs.Order.Emission
import TestFlow.Proofs.Order.Independent
import TestFlow.Proofs.Order.Loop
import TestFlow.Proofs.Order.Recursive
import TestFlow.Proofs.Order.Stability
import TestFlow.Proofs.Request.Body
import TestFlow.Proofs.Request.Form
import TestFlow.Proofs.Request.KeyValues
import TestFlow.Proofs.Request.ReadBack
import TestFlow.Proofs.Script.Grammar
import TestFlow.Proofs.Script.Literal
import TestFlow.Proofs.Script.Setting
import TestFlow.Proofs.Trace
import TestFlow.Proofs.Variable.Assignment
import TestFlow.Proofs.Variable.Entries
import TestFlow.Proofs.Variable.Extraction
import TestFlow.Proofs.Variable.Inline
