import TestFlow.Script

/-!
# Sifting a list

Several parts of a flow are lists whose entries are checked one by one, where an entry may not
repeat the key of an entry that was accepted before it: the nodes of a flow, and the entries of a
component that bind variables.

Reference: specification, §3 (ids of nodes) and §4.3 (variable extraction, variable setting).

## Main definitions

* `sift`, `accepted`, `refused` — the outcome of every entry of a list;
* `Binder` — which entries of a list bind a variable, and what is said of each.
-/

namespace TestFlow

/-! ## Outcomes

A refused entry leaves no trace in the checks that follow. -/

/-- The outcome of checking each entry of a list against the keys of the entries accepted before it,
of which the last comes first in `taken`. -/
def sift {α β ε κ : Type} (check : List κ → α → Except ε β) (key : β → κ) :
    (taken : List κ) → List α → List (Except ε β)
  | _, [] => []
  | taken, a :: rest =>
    match check taken a with
    | .ok b => .ok b :: sift check key (key b :: taken) rest
    | .error e => .error e :: sift check key taken rest

def accepted {ε β : Type} (outcomes : List (Except ε β)) : List β :=
  outcomes.filterMap fun
    | .ok b => some b
    | .error _ => none

def refused {ε β : Type} (outcomes : List (Except ε β)) : List ε :=
  outcomes.filterMap fun
    | .ok _ => none
    | .error e => some e

/-!
## Entries that bind variables

Each entry is one step.  An entry that cannot be carried out is reported in its place by its
position, counted from one, and the entries behind it are carried out all the same; in particular,
they may use its name.
-/

/-- How the entries of a list bind variables.  An entry offers a binding or has a problem, whatever
names are taken; a binding has a name, and is refused if the name is taken.  A message calls an
entry by its noun. -/
structure Binder (α β ε : Type) where
  offer : α → Except ε β
  name : β → String
  repeated : String → ε
  noun : String
  text : β → String
  reason : ε → String

namespace Binder

variable {α β ε : Type} (binder : Binder α β ε)

/-- Checks an entry against the names that are taken. -/
def check (taken : List String) (entry : α) : Except ε β := do
  let b ← binder.offer entry
  if taken.contains (binder.name b) then .error (binder.repeated (binder.name b)) else .ok b

def outcomes (entries : List α) : List (Except ε β) :=
  sift binder.check binder.name [] entries

/-- The names that the entries of a list bind, in their order. -/
def names (entries : List α) : List String :=
  (accepted (binder.outcomes entries)).map binder.name

/-- The draft of the entry at a position, counted from zero. -/
def draft (position : Nat) : Except ε β → Draft
  | .ok b => .instruction .and (binder.text b)
  | .error e =>
    .notice (binder.noun ++ " " ++ (position + 1).repr ++ " skipped: " ++ binder.reason e)

def drafts (entries : List α) : List Draft :=
  (binder.outcomes entries).mapIdx binder.draft

end Binder

end TestFlow
