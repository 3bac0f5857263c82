import TestFlow.Graph

/-!
# The order of the steps

Nodes are put in an order in which each comes after all that it depends on.

Reference: specification, §3 (dependency graph) and §4.2 (dependency resolver).

## Main definitions

* `Dependencies`, `Dependencies.ofGraph` — for each position, the positions that it depends on;
* `Search`, `Search.step`, `Search.explore` — the search, one step of it, and a run;
* `Dependencies.order` — the order, or a circle.
-/

namespace TestFlow

/-!
## Dependencies by position

A node depends on the nodes that its incoming edges come from.  Several edges between the same two
nodes count once, and the first of them gives the dependency its place.
-/

/-- For each position, the positions that it depends on. -/
structure Dependencies where
  lists : Array (List Nat)
  deriving DecidableEq, Repr

namespace Dependencies

def size (deps : Dependencies) : Nat :=
  deps.lists.size

/-- What a position depends on; past the last position, nothing. -/
def of (deps : Dependencies) (position : Nat) : List Nat :=
  deps.lists.getD position []

def ofGraph (graph : Graph) : Dependencies where
  lists := (Array.range graph.nodes.length).map fun position =>
    (graph.sourcesOf position).eraseDups

end Dependencies

/-!
## The search

The order is that of a depth-first search: the roots are taken by position, the dependencies of a
node in their own order, and a node is placed once all of its dependencies are.  Nodes that do not
depend on each other so keep the order in which they were listed.

The search keeps its own stack instead of recursing, so that a long chain of nodes costs no more
than a list.  A frame of the stack is a node with a cursor into its dependencies.  Meeting a node
that is still on the stack means that the dependencies go in a circle; the search then fails with
the nodes on the stack from that one on, and that one once more.

### Termination

Every step of the search either starts a node that had not been visited, or moves the cursor of a
frame, or takes a frame off the stack.  So either fewer nodes are unvisited, or less is left to do
on the stack: `Search.unvisited` and `Search.pending` together decrease.
-/

/-- How far the search has come with a node. -/
inductive Mark where
  | unvisited
  | inProgress
  | done
  deriving DecidableEq, Repr

/-- A node on the stack, with the index of the dependency to look at next. -/
structure Frame where
  node : Nat
  cursor : Nat
  deriving DecidableEq, Repr

/-- The state of the search: a mark for each node, the stack with the innermost frame first, and the
nodes placed so far. -/
structure Search where
  marks : Array Mark
  stack : List Frame
  order : Array Nat
  deriving DecidableEq, Repr

namespace Search

/-- The search before its first root. -/
def start (size : Nat) : Search where
  marks := Array.replicate size .unvisited
  stack := []
  order := #[]

/-- The mark of a node; there is nothing to do for a position past the last node. -/
def mark (search : Search) (node : Nat) : Mark :=
  search.marks.getD node .done

/-- Starts a node: it goes on top of the stack. -/
def enter (search : Search) (node : Nat) : Search :=
  { search with
    marks := search.marks.setIfInBounds node .inProgress
    stack := ⟨node, 0⟩ :: search.stack }

/-- The nodes on a stack from a node on, the outermost first, and that node once more. -/
def circle (stack : List Frame) (node : Nat) : List Nat :=
  (stack.reverse.map Frame.node).dropWhile (· != node) ++ [node]

/-- One step on the innermost frame, or the circle that it closes. -/
def step (deps : Dependencies) (search : Search) (top : Frame) (below : List Frame) :
    Except (List Nat) Search :=
  match (deps.of top.node)[top.cursor]? with
  | none =>
    -- no dependency is left to look at, so the node comes behind all of them
    .ok { marks := search.marks.setIfInBounds top.node .done
          stack := below
          order := search.order.push top.node }
  | some next =>
    -- the cursor moves on before the dependency is started, so the frame goes on behind it later
    let stack := { top with cursor := top.cursor + 1 } :: below
    match search.mark next with
    | .done => .ok { search with stack := stack }
    | .unvisited => .ok ({ search with stack := stack }.enter next)
    | .inProgress => .error (circle stack next)

/-! ### Termination -/

/-- The number of nodes that have not been visited. -/
def unvisited (search : Search) : Nat :=
  search.marks.count .unvisited

/-- What is left to do for a frame: the dependencies to look at, and taking it off the stack. -/
def frameWork (deps : Dependencies) (frame : Frame) : Nat :=
  (deps.of frame.node).length - frame.cursor + 1

/-- What is left to do for the frames of a stack. -/
def stackWork (deps : Dependencies) : List Frame → Nat
  | [] => 0
  | frame :: rest => frameWork deps frame + stackWork deps rest

/-- What is left to do on the stack. -/
def pending (deps : Dependencies) (search : Search) : Nat :=
  stackWork deps search.stack

/-- Marking a node as anything but unvisited makes no other node unvisited. -/
theorem count_unvisited_set_le (marks : Array Mark) (node : Nat) {mark : Mark}
    (h : mark ≠ .unvisited) :
    (marks.setIfInBounds node mark).count .unvisited ≤ marks.count .unvisited := by
  by_cases inside : node < marks.size
  · rw [Array.setIfInBounds, dif_pos inside, Array.count_set, beq_false_of_ne h]
    exact Nat.sub_le _ _
  · exact Nat.le_of_eq (congrArg _ (Array.setIfInBounds_eq_of_size_le (by omega)))

/-- Starting an unvisited node leaves fewer nodes unvisited. -/
theorem unvisited_enter_lt {search : Search} {node : Nat} (h : search.mark node = .unvisited) :
    (search.enter node).unvisited < search.unvisited := by
  have inside : node < search.marks.size := by
    by_cases inside : node < search.marks.size
    · exact inside
    · simp [mark, Array.getD, inside] at h
  have current : search.marks[node] = .unvisited := by
    simpa [mark, Array.getD, inside] using h
  have counted : 0 < search.marks.count .unvisited :=
    Array.count_pos_iff.mpr (current ▸ Array.getElem_mem inside)
  simp only [unvisited, enter, Array.setIfInBounds, dif_pos inside]
  rw [Array.count_set, current, if_pos (by decide), if_neg (by decide)]
  omega

/-- Every step leaves fewer nodes unvisited, or as many at most and less to do on the stack. -/
theorem step_decreases {deps : Dependencies} {search result : Search} {top : Frame}
    {below : List Frame} (stacked : search.stack = top :: below)
    (h : step deps search top below = .ok result) :
    result.unvisited < search.unvisited ∨
      (result.unvisited ≤ search.unvisited ∧ result.pending deps < search.pending deps) := by
  unfold step at h
  split at h
  · cases h
    -- placing a node takes a frame off the stack
    refine Or.inr ⟨count_unvisited_set_le _ _ (by decide), ?_⟩
    simp only [pending, stacked, stackWork, frameWork]
    omega
  · rename_i next found
    have bound : top.cursor < (deps.of top.node).length :=
      (List.getElem?_eq_some_iff.mp found).1
    split at h
    · cases h
      -- passing a dependency leaves one less to look at
      refine Or.inr ⟨Nat.le_refl _, ?_⟩
      simp only [pending, stacked, stackWork, frameWork]
      omega
    · rename_i fresh
      cases h
      exact Or.inl (unvisited_enter_lt fresh)
    · cases h

/-- Runs the search until the stack is empty, or to the circle that it finds. -/
def explore (deps : Dependencies) (search : Search) : Except (List Nat) Search :=
  match stacked : search.stack with
  | [] => .ok search
  | top :: below =>
    match h : step deps search top below with
    | .error circle => .error circle
    | .ok result =>
      have := step_decreases stacked h
      explore deps result
termination_by (search.unvisited, search.pending deps)
decreasing_by
  rcases this with fewer | ⟨atMost, less⟩
  · exact Prod.Lex.left _ _ fewer
  · rcases Nat.lt_or_eq_of_le atMost with fewer | same
    · exact Prod.Lex.left _ _ fewer
    · rw [same]
      exact Prod.Lex.right _ less

/-- Explores from a root, unless it has been visited before. -/
def visit (deps : Dependencies) (search : Search) (root : Nat) : Except (List Nat) Search :=
  match search.mark root with
  | .unvisited => explore deps (search.enter root)
  | _ => .ok search

end Search

namespace Dependencies

/-- The positions in an order in which each comes after all that it depends on, or a circle of
positions, each of which depends on the next. -/
def order (deps : Dependencies) : Except (List Nat) (List Nat) :=
  ((List.range deps.size).foldlM (Search.visit deps) (Search.start deps.size)).map
    fun search => search.order.toList

end Dependencies

end TestFlow
