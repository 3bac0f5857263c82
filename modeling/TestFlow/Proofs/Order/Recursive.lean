import TestFlow.Proofs.Order.Emission

/-!
# The search as a recursion

The plain way to say what order the search gives is a recursion: to visit a node, visit its
dependencies in their order and then place the node; a node that is placed already is passed, and a
node on the way from the root to the current one closes a circle.  The recursion is bounded because
the way from the root never has a node twice (`Dependencies.untouched`).

The search does the same with frames instead of calls.  A frame stands for a call in progress, its
cursor for the place in the list of dependencies, and the nodes of the stack are the way from the
root.  `Search.ComesTo` says that a search carries out a call: it fails as the call does, or it
comes by turns to a given stack with the nodes placed that the call returns.  Calls in sequence
compose by `ComesTo.bind`, and so the recursion is followed case by case in `follows_visit`.

Reference: specification, §4.2 (depth-first search, iterative with an explicit stack).

## Main statements

* `Dependencies.order_eq_recursiveOrder` — the search and the recursion agree on every graph;
* `order_eq_recursiveOrder_of_flow` — hence on the order and the failure of every flow.
-/

namespace TestFlow

namespace Dependencies

/-! ## The recursion -/

/-- The number of positions that a path does not go through. -/
def untouched (deps : Dependencies) (path : List Nat) : Nat :=
  ((List.range deps.size).filter fun node => node ∉ path).length

/-- A path that goes on to a node with dependencies leaves fewer positions untouched. -/
theorem untouched_append_lt {deps : Dependencies} {path : List Nat} {node dep : Nat}
    (hdep : dep ∈ deps.of node) (hnode : node ∉ path) :
    deps.untouched (path ++ [node]) < deps.untouched path := by
  have hlt : node < deps.size := by
    by_contra hge
    rw [of_eq_nil (Nat.not_lt.mp hge)] at hdep
    cases hdep
  have hfilter : (List.range deps.size).filter (fun other => other ∉ path ++ [node]) =
      ((List.range deps.size).filter fun other => other ∉ path).filter fun other =>
        other ≠ node := by
    rw [List.filter_filter]
    apply List.filter_congr
    intro other _
    simp [and_comm]
  rw [untouched, hfilter]
  apply List.length_filter_lt_length_iff_exists.mpr
  exact ⟨node, List.mem_filter.mpr ⟨List.mem_range.mpr hlt, by simpa using hnode⟩, by simp⟩

/-- Visits a node, given the path to it from the root and the nodes placed so far. -/
def recursiveVisit (deps : Dependencies) (path placed : List Nat) (node : Nat) :
    Except (List Nat) (List Nat) :=
  if node ∈ placed then .ok placed
  else if node ∈ path then .error (path.dropWhile (· != node) ++ [node])
  else do
    let placed ← (deps.of node).attach.foldlM
      (fun placed dep => recursiveVisit deps (path ++ [node]) placed dep.1) placed
    .ok (placed ++ [node])
termination_by deps.untouched path
decreasing_by exact untouched_append_lt dep.2 ‹node ∉ path›

/-- Visits all positions in turn, each from a path of its own. -/
def recursiveOrder (deps : Dependencies) : Except (List Nat) (List Nat) :=
  (List.range deps.size).foldlM (recursiveVisit deps []) []

/-- Visiting a node that is neither placed nor on the path visits its dependencies and places it. -/
theorem recursiveVisit_of_not_mem {deps : Dependencies} {path placed : List Nat} {node : Nat}
    (hplaced : node ∉ placed) (hpath : node ∉ path) :
    recursiveVisit deps path placed node =
      (deps.of node).foldlM (recursiveVisit deps (path ++ [node])) placed >>= fun placed =>
        .ok (placed ++ [node]) := by
  rw [recursiveVisit, if_neg hplaced, if_neg hpath]
  congr 1
  rw [← List.foldlM_map, List.attach_map_subtype_val]

end Dependencies

namespace Search

variable {deps : Dependencies} {search result : Search} {top : Frame} {below stack : List Frame}

/-! ## Carrying out a call -/

/-- A search carries out a call with an outcome: it fails as the call does, or it comes by turns to
the stack with the nodes placed that the call returns. -/
def ComesTo (deps : Dependencies) (search : Search) (stack : List Frame) :
    Except (List Nat) (List Nat) → Prop
  | .error path => explore deps search = .error path
  | .ok placed => ∃ result, Relation.ReflTransGen (Turn deps) search result ∧
      result.stack = stack ∧ result.placed = placed

/-- A search carries out a call if it does so after some turns. -/
theorem ComesTo.of_turns (hturns : Relation.ReflTransGen (Turn deps) search result)
    {outcome : Except (List Nat) (List Nat)} (h : ComesTo deps result stack outcome) :
    ComesTo deps search stack outcome := by
  cases outcome with
  | error path => exact (explore_of_turns hturns).trans h
  | ok placed =>
      obtain ⟨last, hlast, hstack, hplaced⟩ := h
      exact ⟨last, hturns.trans hlast, hstack, hplaced⟩

/-- Two calls in sequence are carried out one after the other. -/
theorem ComesTo.bind (hdeps : deps.WellFormed) (hinv : Invariant deps search)
    {middle : List Frame} {outcome : Except (List Nat) (List Nat)}
    {next : List Nat → Except (List Nat) (List Nat)} (h : ComesTo deps search middle outcome)
    (hnext : ∀ result, Invariant deps result → result.stack = middle →
      ComesTo deps result stack (next result.placed)) :
    ComesTo deps search stack (outcome >>= next) := by
  cases outcome with
  | error path => exact h
  | ok placed =>
      obtain ⟨result, hturns, hstack, rfl⟩ := h
      exact .of_turns hturns (hnext result (hinv.turns hdeps hturns) hstack)

/-- A search that comes to an empty stack is explored with the outcome of the call. -/
theorem ComesTo.explore_eq {outcome : Except (List Nat) (List Nat)}
    (h : ComesTo deps search [] outcome) : (explore deps search).map placed = outcome := by
  cases outcome with
  | error path =>
      have herror : explore deps search = .error path := h
      rw [herror]
      rfl
  | ok placed =>
      obtain ⟨result, hturns, hstack, rfl⟩ := h
      rw [explore_of_turns hturns, explore_of_stack_nil hstack]
      rfl

/-- Whatever search has the path on its stack, the nodes placed and a node at its innermost cursor,
it carries out the visit of the node and moves the cursor on. -/
def Follows (deps : Dependencies) (path placed : List Nat) (node : Nat) : Prop :=
  ∀ search top below, Invariant deps search → search.stack = top :: below →
    (deps.of top.node)[top.cursor]? = some node → search.active.reverse = path →
    search.placed = placed →
    ComesTo deps search ({ top with cursor := top.cursor + 1 } :: below)
      (deps.recursiveVisit path placed node)

/-- The turns of a frame: where visits of its dependencies are followed, those from its cursor on
are visited and then its node is placed. -/
theorem comesTo_frame (hdeps : deps.WellFormed) {path : List Nat} {node : Nat}
    (hvisit : ∀ dep ∈ deps.of node, ∀ placed, Follows deps path placed dep)
    (todo : List Nat) (cursor : Nat) (htodo : (deps.of node).drop cursor = todo)
    (search : Search) (hinv : Invariant deps search)
    (hstack : search.stack = ⟨node, cursor⟩ :: below)
    (hpath : search.active.reverse = path) :
    ComesTo deps search below
      (todo.foldlM (deps.recursiveVisit path) search.placed >>= fun placed =>
        .ok (placed ++ [node])) := by
  -- the induction is on the dependencies still to visit, for any cursor that has them ahead
  induction todo generalizing cursor search with
  | nil =>
      have hnone : (deps.of node)[cursor]? = none :=
        List.getElem?_eq_none_iff.mpr (List.drop_eq_nil_iff.mp htodo)
      exact ⟨_, .single (turn_finish hstack hnone), rfl, placed_finish⟩
  | cons dep rest ih =>
      have hdep : (deps.of node)[cursor]? = some dep := by
        rw [← List.head?_drop, htodo, List.head?_cons]
      have hrest : (deps.of node).drop (cursor + 1) = rest := by
        rw [← List.drop_drop, htodo, List.drop_one, List.tail_cons]
      rw [List.foldlM_cons, bind_assoc]
      refine ComesTo.bind hdeps hinv
        (hvisit dep (List.mem_of_getElem? hdep) _ search _ _ hinv hstack hdep hpath rfl) ?_
      intro result hresult hresultStack
      refine ih (cursor + 1) hrest result hresult hresultStack ?_
      rw [← hpath, active_of_stack_cons hresultStack, active_of_stack_cons hstack]

/-- Every visit is followed. -/
theorem follows_visit (hdeps : deps.WellFormed) (path placed : List Nat) (node : Nat) :
    Follows deps path placed node := by
  -- the cases are those of the recursion: placed, on the path, or neither
  induction path, placed, node using Dependencies.recursiveVisit.induct deps with
  | case1 path placed node hplaced =>
      rintro search top below hinv hstack hnext rfl rfl
      have hnode : node < deps.size := hdeps.lt_size (List.mem_of_getElem? hnext)
      have hmark : search.mark node = .done := (hinv.done_iff node hnode).mpr hplaced
      rw [Dependencies.recursiveVisit, if_pos hplaced]
      exact ⟨_, .single (turn_advance hstack hnext hmark), rfl, rfl⟩
  | case2 path placed node hplaced hpath =>
      rintro search top below hinv hstack hnext rfl rfl
      have hmark : search.mark node = .inProgress :=
        (hinv.inProgress_iff node).mpr (List.mem_reverse.mp hpath)
      rw [Dependencies.recursiveVisit, if_neg hplaced, if_pos hpath]
      show explore deps search = _
      rw [explore_of_stack_cons hstack, step_of_inProgress hnext hmark, circle_advance hstack]
      rfl
  | case3 path placed node hplaced hpath ih =>
      rintro search top below hinv hstack hnext rfl rfl
      have hnode : node < deps.size := hdeps.lt_size (List.mem_of_getElem? hnext)
      have hactive : node ∉ search.active := fun hmem => hpath (List.mem_reverse.mpr hmem)
      have hmark : search.mark node = .unvisited := by
        rcases hinv.mark_cases hnode with ⟨hmem, -⟩ | ⟨-, hmem, -⟩ | ⟨-, -, hmark⟩
        · exact absurd hmem hplaced
        · exact absurd hmem hactive
        · exact hmark
      have hturn := turn_enter hstack hnext hmark
      rw [Dependencies.recursiveVisit_of_not_mem hplaced hpath]
      refine .of_turns (.single hturn) ?_
      refine comesTo_frame hdeps ?_ (deps.of node) 0 rfl _ (hinv.turn hdeps hturn) rfl ?_
      · intro dep hdep placed
        exact ih placed ⟨dep, hdep⟩
      · rw [active_enter, active_advance, ← active_of_stack_cons hstack, List.reverse_cons]

/-! ## Roots -/

/-- Visiting a root from an empty stack places what the recursion places. -/
theorem visit_map_placed (hdeps : deps.WellFormed) (hinv : Invariant deps search)
    (hempty : search.stack = []) {root : Nat} (hroot : root < deps.size) :
    (visit deps search root).map placed = deps.recursiveVisit [] search.placed root := by
  rcases hinv.mark_cases hroot with ⟨hplaced, hmark⟩ | ⟨-, hactive, -⟩ | ⟨hplaced, -, hmark⟩
  · rw [visit, hmark, Dependencies.recursiveVisit, if_pos hplaced]
    rfl
  · rw [active, hempty] at hactive
    cases hactive
  · rw [visit, hmark, Dependencies.recursiveVisit_of_not_mem hplaced List.not_mem_nil]
    refine ComesTo.explore_eq ?_
    refine comesTo_frame hdeps ?_ (deps.of root) 0 rfl _ (hinv.enter_root hempty hmark) ?_ ?_
    · intro dep _ placed
      exact follows_visit hdeps _ placed dep
    · rw [enter, hempty]
    · rw [active_enter, active, hempty]
      rfl

/-- Visiting roots one after the other places what the recursion places. -/
theorem visits_map_placed (hdeps : deps.WellFormed) {roots : List Nat}
    (hroots : ∀ root ∈ roots, root < deps.size) (hinv : Invariant deps search)
    (hempty : search.stack = []) :
    (roots.foldlM (visit deps) search).map placed =
      roots.foldlM (deps.recursiveVisit []) search.placed := by
  induction roots generalizing search with
  | nil => rfl
  | cons root rest ih =>
      have hroot : root < deps.size := hroots root List.mem_cons_self
      rw [List.foldlM_cons, List.foldlM_cons, ← visit_map_placed hdeps hinv hempty hroot]
      cases hvisit : visit deps search root with
      | error path => rfl
      | ok next =>
          obtain ⟨hnext, hstack, -⟩ := hinv.visit_ok hdeps hempty hroot hvisit
          exact ih (fun other hother =>
            hroots other (List.mem_cons_of_mem root hother)) hnext hstack

end Search

/-- The search and the recursion give the same order, or the same circle. -/
theorem Dependencies.order_eq_recursiveOrder {deps : Dependencies} (hdeps : deps.WellFormed) :
    deps.order = deps.recursiveOrder :=
  Search.visits_map_placed hdeps (fun _ hroot => List.mem_range.mp hroot)
    (Search.invariant_start deps) rfl

/-- The accepted nodes in the order of the recursion, or the failure of the circle that it meets. -/
def Graph.recursiveOrder (graph : Graph) : Except Failure (List Node) :=
  match (Dependencies.ofGraph graph).recursiveOrder with
  | .ok positions => .ok (positions.filterMap fun position => graph.nodes[position]?)
  | .error circle => .error (.ofCycle (circle.map graph.idAt))

/-- For every flow, the search gives the order of the recursion, or fails with the circle that the
recursion meets. -/
theorem order_eq_recursiveOrder_of_flow (flow : Flow) :
    (Graph.build flow).order = (Graph.build flow).recursiveOrder := by
  have hdeps := Dependencies.wellFormed_ofGraph (Graph.build_wellFormed flow)
  rw [Graph.order, Dependencies.order_eq_recursiveOrder hdeps]
  rfl

end TestFlow
