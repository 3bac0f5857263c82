import TestFlow.Compile

/-!
# Answers to the editor

The editor in which flows are drawn asks for two things: the document of a flow, and the nodes and
connections of a flow that would not be accepted.  Either answer is a success or a list of errors.

Reference: specification, §6 (entry points).
-/

namespace TestFlow.Editor

/-- An answer to the editor. -/
inductive Reply (α : Type) where
  | success (answer : α)
  | errors (failures : List Failure)

def Reply.ofExcept {α : Type} : Except Failure α → Reply α
  | .ok answer => .success answer
  | .error failure => .errors [failure]

/-- The text of the document of a flow. -/
def compile (s : String) : Reply String :=
  .ofExcept (compileText s)

/-- The nodes and connections of a flow that would not be accepted, and why. -/
def inspect (s : String) : Reply (List Rejection) :=
  .ofExcept ((Flow.read s).map fun flow => (Graph.build flow).rejections)

end TestFlow.Editor
