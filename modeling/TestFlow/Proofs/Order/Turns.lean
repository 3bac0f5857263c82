import TestFlow.Order
import Mathlib.Logic.Relation

/-!
# Turns of the search

The loop of the search is a run of *turns*, each of which works on the innermost frame.  What a turn
can do is said here once and from both sides: `turn_finish`, `turn_advance` and `turn_enter` give
the turn that a search takes, `step_ok_cases` and `step_error_cases` tell what a given turn did.
Later proofs use these and do not open `step` or `explore` again.

Reference: specification, §4.2 (depth-first search, iterative with an explicit stack).

## Main definitions

* `Search.placed`, `Search.active` — the nodes in the order and on the stack, as lists;
* `Search.Turn` — one turn of the loop, so that `Relation.ReflTransGen` gives its runs.
-/

namespace TestFlow.Search

variable {deps : Dependencies} {search result : Search} {top : Frame} {below : List Frame}

/-! ## One turn -/

/-- The nodes placed so far. -/
def placed (search : Search) : List Nat :=
  search.order.toList

/-- The nodes on the stack, the innermost first. -/
def active (search : Search) : List Nat :=
  search.stack.map Frame.node

/-- One turn of the loop takes a search to another. -/
def Turn (deps : Dependencies) (search result : Search) : Prop :=
  ∃ top below, search.stack = top :: below ∧ step deps search top below = .ok result

/-- The search that has placed the node of its innermost frame. -/
def finish (search : Search) (top : Frame) (below : List Frame) : Search where
  marks := search.marks.setIfInBounds top.node .done
  stack := below
  order := search.order.push top.node

/-- The search that has moved the cursor of its innermost frame. -/
def advance (search : Search) (top : Frame) (below : List Frame) : Search :=
  { search with stack := { top with cursor := top.cursor + 1 } :: below }

@[simp] theorem placed_finish :
    (search.finish top below).placed = search.placed ++ [top.node] := by
  simp [placed, finish]

@[simp] theorem placed_advance : (search.advance top below).placed = search.placed := rfl

@[simp] theorem placed_enter (node : Nat) : (search.enter node).placed = search.placed := rfl

@[simp] theorem active_finish : (search.finish top below).active = below.map Frame.node := rfl

@[simp] theorem active_advance :
    (search.advance top below).active = top.node :: below.map Frame.node := rfl

@[simp] theorem active_enter (node : Nat) :
    (search.enter node).active = node :: search.active := rfl

/-- The nodes of a stack with an innermost frame. -/
theorem active_of_stack_cons (h : search.stack = top :: below) :
    search.active = top.node :: below.map Frame.node := by
  rw [active, h, List.map_cons]

/-- A frame without further dependencies takes a turn that places its node. -/
theorem turn_finish (hstack : search.stack = top :: below)
    (hnone : (deps.of top.node)[top.cursor]? = none) :
    Turn deps search (search.finish top below) := by
  refine ⟨top, below, hstack, ?_⟩
  rw [step, hnone]
  rfl

/-- A frame at a dependency that is done takes a turn that passes it. -/
theorem turn_advance (hstack : search.stack = top :: below) {next : Nat}
    (hnext : (deps.of top.node)[top.cursor]? = some next) (hmark : search.mark next = .done) :
    Turn deps search (search.advance top below) := by
  refine ⟨top, below, hstack, ?_⟩
  rw [step, hnext]
  simp only [hmark]
  rfl

/-- A frame at a dependency that has not been visited takes a turn that starts it. -/
theorem turn_enter (hstack : search.stack = top :: below) {next : Nat}
    (hnext : (deps.of top.node)[top.cursor]? = some next) (hmark : search.mark next = .unvisited) :
    Turn deps search ((search.advance top below).enter next) := by
  refine ⟨top, below, hstack, ?_⟩
  rw [step, hnext]
  simp only [hmark]
  rfl

/-- A frame at a dependency that is in progress has found a circle. -/
theorem step_of_inProgress {next : Nat} (hnext : (deps.of top.node)[top.cursor]? = some next)
    (hmark : search.mark next = .inProgress) :
    step deps search top below = .error (circle (search.advance top below).stack next) := by
  rw [step, hnext]
  simp only [hmark]
  rfl

/-- The circle that a frame finds, in terms of the nodes on the stack. -/
theorem circle_advance (hstack : search.stack = top :: below) (next : Nat) :
    circle (search.advance top below).stack next =
      search.active.reverse.dropWhile (· != next) ++ [next] := by
  simp [circle, advance, active, hstack]

/-- All that a turn can do: place a node without further dependencies, pass a dependency that is
placed, or start one that has not been visited. -/
theorem step_ok_cases (h : step deps search top below = .ok result) :
    ((deps.of top.node)[top.cursor]? = none ∧ result = search.finish top below) ∨
      ∃ next, (deps.of top.node)[top.cursor]? = some next ∧
        ((search.mark next = .done ∧ result = search.advance top below) ∨
          (search.mark next = .unvisited ∧ result = (search.advance top below).enter next)) := by
  unfold step at h
  split at h
  · rename_i hnone
    cases h
    exact Or.inl ⟨hnone, rfl⟩
  · rename_i next hnext
    refine Or.inr ⟨next, hnext, ?_⟩
    split at h
    · rename_i hmark
      cases h
      exact Or.inl ⟨hmark, rfl⟩
    · rename_i hmark
      cases h
      exact Or.inr ⟨hmark, rfl⟩
    · cases h

/-- A turn fails only at a dependency that is in progress. -/
theorem step_error_cases {path : List Nat} (h : step deps search top below = .error path) :
    ∃ next, (deps.of top.node)[top.cursor]? = some next ∧ search.mark next = .inProgress ∧
      path = circle (search.advance top below).stack next := by
  unfold step at h
  split at h
  · cases h
  · rename_i next hnext
    split at h
    · cases h
    · cases h
    · rename_i hmark
      cases h
      exact ⟨next, hnext, hmark, rfl⟩

/-! ## The loop -/

/-- A search with an empty stack has been explored. -/
theorem explore_of_stack_nil (h : search.stack = []) : explore deps search = .ok search := by
  rw [explore]
  split
  · rfl
  · rename_i hstack
    rw [h] at hstack
    cases hstack

/-- Exploring a search with frames is a turn and exploring the rest. -/
theorem explore_of_stack_cons (h : search.stack = top :: below) :
    explore deps search = (step deps search top below).bind (explore deps) := by
  rw [explore]
  split
  · rename_i hstack
    rw [h] at hstack
    cases hstack
  · rename_i top' below' hstack
    obtain ⟨rfl, rfl⟩ := List.cons.inj (h.symm.trans hstack)
    split
    · rename_i herror
      rw [herror]
      rfl
    · rename_i next hok
      show explore deps next = _
      rw [hok]
      rfl

/-- A turn does not change what the exploration comes to. -/
theorem explore_of_turn (h : Turn deps search result) :
    explore deps search = explore deps result := by
  obtain ⟨top, below, hstack, hstep⟩ := h
  rw [explore_of_stack_cons hstack, hstep]
  rfl

/-- Turns do not change what the exploration comes to. -/
theorem explore_of_turns (h : Relation.ReflTransGen (Turn deps) search result) :
    explore deps search = explore deps result := by
  induction h with
  | refl => rfl
  | tail _ hturn ih => rw [ih, explore_of_turn hturn]

/-- An exploration that succeeds is a run of turns to an empty stack. -/
theorem turns_of_explore_ok (h : explore deps search = .ok result) :
    Relation.ReflTransGen (Turn deps) search result ∧ result.stack = [] := by
  -- the recursion of `explore` takes the first turn off the run
  fun_induction explore deps search with
  | case1 search hstack =>
      cases h
      exact ⟨.refl, hstack⟩
  | case2 search top below hstack path hstep => cases h
  | case3 search top below hstack next hstep _ ih =>
      obtain ⟨hturns, hempty⟩ := ih h
      exact ⟨.head ⟨top, below, hstack, hstep⟩ hturns, hempty⟩

/-- An exploration that fails is a run of turns to one that fails. -/
theorem turns_of_explore_error {path : List Nat} (h : explore deps search = .error path) :
    ∃ last top below, Relation.ReflTransGen (Turn deps) search last ∧
      last.stack = top :: below ∧ step deps last top below = .error path := by
  fun_induction explore deps search with
  | case1 search hstack => cases h
  | case2 search top below hstack path' hstep =>
      cases h
      exact ⟨search, top, below, .refl, hstack, hstep⟩
  | case3 search top below hstack next hstep _ ih =>
      obtain ⟨last, top', below', hturns, hlast⟩ := ih h
      exact ⟨last, top', below', .head ⟨top, below, hstack, hstep⟩ hturns, hlast⟩

end TestFlow.Search
