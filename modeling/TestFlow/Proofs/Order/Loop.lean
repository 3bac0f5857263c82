import TestFlow.Proofs.Graph.Incoming
import TestFlow.Proofs.Order.Emission
import Mathlib.Data.List.Flatten

/-!
# The loop of the search, iteration by iteration

The roots are taken one after the other, and each is explored by turns.  Both loops together are a
single run of *iterations*, one of which takes a root or works on the innermost frame.  A run ends
when no root is left and the stack is empty, or with the iteration that closes a circle.

A run leaves a log of what its iterations did, and the log is told by the state that the run has
come to (`Accounts`).  The nodes put on the stack are those on the stack or placed, and the
dependencies looked at are those that the cursors have passed (`Search.lookedAt`), as often in the
log as in the state.  The state has nothing twice, since no node is both on the stack and placed,
and so the log has nothing twice either.  Every iteration takes a root, looks at a dependency or
places a node.  There are only so many of each, which bounds the length of the log and so brings
every run to an end.

Reference: specification, §4.2 (depth-first search, iterative with an explicit stack).

## Main definitions

* `Move`, `Loop.Iteration`, `Loop.Run` — the runs of the loop, with their logs;
* `Loop.Invariant` — what holds at the start of each iteration;
* `Loop.Accounts` — a log is told by a state.

## Main statement

* `search_looks_once_and_ends` — every run of a flow keeps the invariant, does nothing twice, and
  comes to an end.
-/

namespace TestFlow

namespace Search

variable {deps : Dependencies} {search : Search} {top : Frame} {below : List Frame} {next : Nat}

/-! ## What a state of the search tells -/

/-- The nodes on the stack are positions. -/
theorem Coherent.active_lt (h : Coherent deps search) :
    ∀ node ∈ search.active, node < deps.size := by
  intro node hnode
  rw [← h.inProgress_iff] at hnode
  rw [← h.size_eq]
  exact lt_size_of_mark_ne_done (by rw [hnode]; decide)

/-- No node is on the stack or placed twice, nor both. -/
theorem Coherent.nodup_seen (h : Coherent deps search) :
    (search.active ++ search.placed).Nodup := by
  refine h.active_nodup.append h.placed_nodup fun node hactive hplaced => ?_
  have hdone := (h.done_iff node (h.placed_lt node hplaced)).mpr hplaced
  rw [(h.inProgress_iff node).mpr hactive] at hdone
  cases hdone

/-- Moving a cursor past a dependency leaves all cursors in range. -/
theorem cursor_le_advance (h : ∀ frame ∈ search.stack, frame.cursor ≤ (deps.of frame.node).length)
    (hstack : search.stack = top :: below) (hnext : (deps.of top.node)[top.cursor]? = some next) :
    ∀ frame ∈ (search.advance top below).stack, frame.cursor ≤ (deps.of frame.node).length := by
  rw [hstack, List.forall_mem_cons] at h
  exact List.forall_mem_cons.mpr ⟨(List.getElem?_eq_some_iff.mp hnext).1, h.2⟩

/-- The dependencies of a node, behind the node. -/
def pairsOf (deps : Dependencies) (node : Nat) : List (Nat × Nat) :=
  (deps.of node).map fun dep => (node, dep)

/-- The dependencies that the cursor of a frame has passed, behind the node of the frame. -/
def passedPairs (deps : Dependencies) (frame : Frame) : List (Nat × Nat) :=
  ((deps.of frame.node).take frame.cursor).map fun dep => (frame.node, dep)

/-- The dependencies that the search has looked at: those before the cursors, and all those of the
nodes that are placed. -/
def lookedAt (deps : Dependencies) (search : Search) : List (Nat × Nat) :=
  search.stack.flatMap (passedPairs deps) ++ search.placed.flatMap (pairsOf deps)

/-- A node that is started has not been looked at dependencies of. -/
theorem lookedAt_enter (node : Nat) : (search.enter node).lookedAt deps = search.lookedAt deps := by
  simp [lookedAt, enter, passedPairs, placed]

/-- Moving a cursor looks at the dependency that it passes. -/
theorem lookedAt_advance_perm (hstack : search.stack = top :: below)
    (hnext : (deps.of top.node)[top.cursor]? = some next) :
    ((search.advance top below).lookedAt deps).Perm
      (search.lookedAt deps ++ [(top.node, next)]) := by
  have hpassed : passedPairs deps { top with cursor := top.cursor + 1 } =
      passedPairs deps top ++ [(top.node, next)] := by
    simp [passedPairs, List.take_add_one, hnext]
  rw [lookedAt, lookedAt, hstack, placed_advance, advance, List.flatMap_cons, List.flatMap_cons,
    hpassed, List.append_assoc, List.append_assoc, List.append_assoc, List.append_assoc]
  refine List.Perm.append_left _ ?_
  exact List.perm_append_comm.trans (.of_eq (List.append_assoc ..))

/-- All dependencies of a node have been looked at when it is placed. -/
theorem lookedAt_finish_perm (hstack : search.stack = top :: below)
    (hnone : (deps.of top.node)[top.cursor]? = none) :
    ((search.finish top below).lookedAt deps).Perm (search.lookedAt deps) := by
  have hpassed : passedPairs deps top = pairsOf deps top.node := by
    rw [passedPairs, List.take_of_length_le (List.getElem?_eq_none_iff.mp hnone), pairsOf]
  rw [lookedAt, lookedAt, hstack, placed_finish, List.flatMap_cons, List.flatMap_append,
    List.flatMap_singleton, hpassed, ← List.append_assoc, List.append_assoc (pairsOf deps top.node)]
  exact List.perm_append_comm

/-- What was looked at are dependencies of the nodes on the stack and of those placed. -/
theorem lookedAt_sublist (search : Search) :
    (search.lookedAt deps).Sublist ((search.active ++ search.placed).flatMap (pairsOf deps)) := by
  rw [lookedAt, List.flatMap_append, active, List.flatMap_map]
  refine List.Sublist.append (List.Sublist.flatMap_right _ fun frame _ => ?_) (List.Sublist.refl _)
  exact (List.take_sublist _ _).map _

/-- No dependency has been looked at twice. -/
theorem Coherent.nodup_lookedAt (h : Coherent deps search)
    (hdeps : ∀ node, (deps.of node).Nodup) : (search.lookedAt deps).Nodup := by
  refine List.Sublist.nodup (lookedAt_sublist search) (List.nodup_flatMap.mpr ⟨?_, ?_⟩)
  · intro node _
    exact (hdeps node).map fun _ _ hpair => (Prod.mk.inj hpair).2
  · -- pairs of different nodes are different
    refine h.nodup_seen.imp fun hne pair hleft hright => hne ?_
    obtain ⟨dep, -, rfl⟩ := List.mem_map.mp hleft
    obtain ⟨dep', -, hpair⟩ := List.mem_map.mp hright
    exact (Prod.mk.inj hpair).1.symm

/-- What was looked at are dependencies. -/
theorem mem_of_mem_lookedAt {node dep : Nat} (h : (node, dep) ∈ search.lookedAt deps) :
    dep ∈ deps.of node := by
  obtain ⟨other, -, hpair⟩ := List.mem_flatMap.mp ((lookedAt_sublist search).subset h)
  obtain ⟨dep', hdep', heq⟩ := List.mem_map.mp hpair
  cases heq
  exact hdep'

/-- A node that is on the stack is found there, and the circle is the rest of the stack from its
place on. -/
theorem circle_eq_drop (hstack : search.stack = top :: below) (hmem : next ∈ search.active) :
    ∃ place, search.active.reverse.findIdx? (· == next) = some place ∧
      circle (search.advance top below).stack next =
        search.active.reverse.drop place ++ [next] := by
  have hfound : ∃ node ∈ search.active.reverse, (node == next) = true :=
    ⟨next, List.mem_reverse.mpr hmem, beq_self_eq_true next⟩
  have hnot : (fun node => !(node != next)) = (· == next) := by
    funext node
    exact Bool.not_not _
  refine ⟨_, List.findIdx?_eq_some_of_exists hfound, ?_⟩
  rw [circle_advance hstack, List.dropWhile_eq_drop_findIdx_not, hnot]

end Search

/-! ## Runs -/

/-- What an iteration does. -/
inductive Move where
  /-- Passes over a root that was visited before. -/
  | skip (root : Nat)
  /-- Puts a root on the empty stack. -/
  | start (root : Nat)
  /-- Passes a dependency that is done. -/
  | pass (node dep : Nat)
  /-- Puts a dependency on the stack that was not visited before. -/
  | descend (node dep : Nat)
  /-- Places the node of the innermost frame. -/
  | place (node : Nat)
  /-- Finds a dependency on the stack. -/
  | close (node dep : Nat)
  deriving DecidableEq, Repr

namespace Move

/-- The root that an iteration takes. -/
def taken? : Move → Option Nat
  | .skip root => some root
  | .start root => some root
  | _ => none

/-- The node that an iteration puts on the stack. -/
def pushed? : Move → Option Nat
  | .start root => some root
  | .descend _ dep => some dep
  | _ => none

/-- The dependency that an iteration looks at, behind the node that has it. -/
def examined? : Move → Option (Nat × Nat)
  | .pass node dep => some (node, dep)
  | .descend node dep => some (node, dep)
  | .close node dep => some (node, dep)
  | _ => none

/-- The node that an iteration places. -/
def placed? : Move → Option Nat
  | .place node => some node
  | _ => none

/-- The positions whose marks and nodes an iteration reads or writes. -/
def positions : Move → List Nat
  | .skip root => [root]
  | .start root => [root]
  | .pass node dep => [node, dep]
  | .descend node dep => [node, dep]
  | .place node => [node]
  | .close node dep => [node, dep]

/-- Every iteration takes a root, looks at a dependency or places a node. -/
theorem length_eq_counts (moves : List Move) :
    moves.length = (moves.filterMap taken?).length + (moves.filterMap examined?).length +
      (moves.filterMap placed?).length := by
  induction moves with
  | nil => rfl
  | cons move rest ih =>
      cases move <;> simp only [List.filterMap_cons, taken?, examined?, placed?, List.length_cons]
        <;> omega

end Move

/-- The state of the loop: the roots that have not been taken, and the search. -/
structure Loop where
  roots : List Nat
  search : Search

namespace Loop

open Search

/-- The loop before its first iteration. -/
def begin (deps : Dependencies) : Loop where
  roots := List.range deps.size
  search := Search.start deps.size

/-- No root is left, and nothing is on the stack. -/
def Finished (loop : Loop) : Prop :=
  loop.roots = [] ∧ loop.search.stack = []

/-- One iteration: what it does, and the state or the circle that it comes to. -/
inductive Iteration (deps : Dependencies) : Loop → Move → Except (List Nat) Loop → Prop
  | skip {root : Nat} {roots : List Nat} {search : Search} (hstack : search.stack = [])
      (hmark : search.mark root ≠ .unvisited) :
      Iteration deps ⟨root :: roots, search⟩ (.skip root) (.ok ⟨roots, search⟩)
  | start {root : Nat} {roots : List Nat} {search : Search} (hstack : search.stack = [])
      (hmark : search.mark root = .unvisited) :
      Iteration deps ⟨root :: roots, search⟩ (.start root) (.ok ⟨roots, search.enter root⟩)
  | pass {roots : List Nat} {search : Search} {top : Frame} {below : List Frame} {next : Nat}
      (hstack : search.stack = top :: below)
      (hnext : (deps.of top.node)[top.cursor]? = some next) (hmark : search.mark next = .done) :
      Iteration deps ⟨roots, search⟩ (.pass top.node next)
        (.ok ⟨roots, search.advance top below⟩)
  | descend {roots : List Nat} {search : Search} {top : Frame} {below : List Frame} {next : Nat}
      (hstack : search.stack = top :: below)
      (hnext : (deps.of top.node)[top.cursor]? = some next)
      (hmark : search.mark next = .unvisited) :
      Iteration deps ⟨roots, search⟩ (.descend top.node next)
        (.ok ⟨roots, (search.advance top below).enter next⟩)
  | place {roots : List Nat} {search : Search} {top : Frame} {below : List Frame}
      (hstack : search.stack = top :: below) (hnone : (deps.of top.node)[top.cursor]? = none) :
      Iteration deps ⟨roots, search⟩ (.place top.node) (.ok ⟨roots, search.finish top below⟩)
  | close {roots : List Nat} {search : Search} {top : Frame} {below : List Frame} {next : Nat}
      (hstack : search.stack = top :: below)
      (hnext : (deps.of top.node)[top.cursor]? = some next)
      (hmark : search.mark next = .inProgress) :
      Iteration deps ⟨roots, search⟩ (.close top.node next)
        (.error (circle (search.advance top below).stack next))

/-- The runs of the loop, with what their iterations did and what they have come to. -/
inductive Run (deps : Dependencies) : List Move → Except (List Nat) Loop → Prop
  | nil : Run deps [] (.ok (begin deps))
  | concat {moves : List Move} {loop : Loop} {move : Move} {outcome : Except (List Nat) Loop}
      (h : Run deps moves (.ok loop)) (hiteration : Iteration deps loop move outcome) :
      Run deps (moves ++ [move]) outcome

variable {deps : Dependencies} {loop next : Loop} {move : Move} {moves : List Move}

/-- What holds before the first iteration and is kept by each holds of every run that goes on. -/
theorem Run.induction_on_ok {motive : List Move → Loop → Prop} (h : Run deps moves (.ok loop))
    (hbegin : motive [] (begin deps))
    (hstep : ∀ moves loop move next, motive moves loop → Iteration deps loop move (.ok next) →
      motive (moves ++ [move]) next) : motive moves loop := by
  generalize houtcome : Except.ok loop = outcome at h
  induction h generalizing loop with
  | nil =>
      cases houtcome
      exact hbegin
  | concat _ hiteration ih =>
      subst houtcome
      exact hstep _ _ _ _ (ih rfl) hiteration

/-- An iteration with a frame on the stack is a step of the search. -/
theorem Iteration.eq_step {outcome : Except (List Nat) Loop} (h : Iteration deps loop move outcome)
    {top : Frame} {below : List Frame} (hstack : loop.search.stack = top :: below) :
    outcome = (step deps loop.search top below).map (Loop.mk loop.roots) := by
  have hturn : ∀ result, Turn deps loop.search result →
      step deps loop.search top below = .ok result := by
    rintro result ⟨top', below', hstack', hstep⟩
    obtain ⟨rfl, rfl⟩ := List.cons.inj (hstack.symm.trans hstack')
    exact hstep
  cases h with
  | skip hempty hmark =>
      rw [hempty] at hstack
      cases hstack
  | start hempty hmark =>
      rw [hempty] at hstack
      cases hstack
  | pass hstack' hnext hmark =>
      rw [hturn _ (turn_advance hstack' hnext hmark)]
      rfl
  | descend hstack' hnext hmark =>
      rw [hturn _ (turn_enter hstack' hnext hmark)]
      rfl
  | place hstack' hnone =>
      rw [hturn _ (turn_finish hstack' hnone)]
      rfl
  | close hstack' hnext hmark =>
      obtain ⟨rfl, rfl⟩ := List.cons.inj (hstack.symm.trans hstack')
      rw [step_of_inProgress hnext hmark]
      rfl

/-- A loop that is not finished goes on. -/
theorem finished_or_exists_iteration (deps : Dependencies) (loop : Loop) :
    loop.Finished ∨ ∃ move outcome, Iteration deps loop move outcome := by
  obtain ⟨roots, search⟩ := loop
  cases hstack : search.stack with
  | nil =>
      cases roots with
      | nil => exact Or.inl ⟨rfl, hstack⟩
      | cons root roots =>
          by_cases hmark : search.mark root = .unvisited
          · exact Or.inr ⟨_, _, .start hstack hmark⟩
          · exact Or.inr ⟨_, _, .skip hstack hmark⟩
  | cons top below =>
      cases hnext : (deps.of top.node)[top.cursor]? with
      | none => exact Or.inr ⟨_, _, .place hstack hnext⟩
      | some next =>
          cases hmark : search.mark next with
          | done => exact Or.inr ⟨_, _, .pass hstack hnext hmark⟩
          | unvisited => exact Or.inr ⟨_, _, .descend hstack hnext hmark⟩
          | inProgress => exact Or.inr ⟨_, _, .close hstack hnext hmark⟩

/-! ## What a run comes to -/

/-- What the search comes to from a state of the loop. -/
def result (deps : Dependencies) (loop : Loop) : Except (List Nat) Search :=
  (explore deps loop.search).bind fun search => loop.roots.foldlM (visit deps) search

/-- The order is what the search comes to from the first state of the loop. -/
theorem order_eq_result_begin (deps : Dependencies) :
    deps.order = ((begin deps).result deps).map Search.placed := by
  rw [result, explore_of_stack_nil rfl]
  rfl

theorem result_of_finished (h : loop.Finished) : loop.result deps = .ok loop.search := by
  rw [result, explore_of_stack_nil h.2, h.1]
  rfl

/-- An iteration does not change what the search comes to. -/
theorem Iteration.result_eq (h : Iteration deps loop move (.ok next)) :
    loop.result deps = next.result deps := by
  cases h with
  -- with an empty stack the loop stands between two visits, and the next root is the next visit
  | @skip root roots search hstack hmark =>
      have hvisit : visit deps search root = .ok search := by
        rw [visit]
        split
        · rename_i hunvisited
          exact absurd hunvisited hmark
        · rfl
      rw [result, result, explore_of_stack_nil hstack]
      show (root :: roots).foldlM (visit deps) search = roots.foldlM (visit deps) search
      rw [List.foldlM_cons, hvisit]
      rfl
  | @start root roots search hstack hmark =>
      have hvisit : visit deps search root = explore deps (search.enter root) := by
        rw [visit, hmark]
      rw [result, result, explore_of_stack_nil hstack]
      show (root :: roots).foldlM (visit deps) search = _
      rw [List.foldlM_cons, hvisit]
      rfl
  -- with a frame on the stack the loop is inside an exploration, and an iteration is a turn of it
  | pass hstack hnext hmark =>
      rw [result, result, explore_of_turn (turn_advance hstack hnext hmark)]
  | descend hstack hnext hmark =>
      rw [result, result, explore_of_turn (turn_enter hstack hnext hmark)]
  | place hstack hnone => rw [result, result, explore_of_turn (turn_finish hstack hnone)]

/-- An iteration that closes a circle is the end of the search. -/
theorem Iteration.result_eq_error {path : List Nat} (h : Iteration deps loop move (.error path)) :
    loop.result deps = .error path := by
  cases h with
  | close hstack hnext hmark =>
      rw [result, explore_of_stack_cons hstack, step_of_inProgress hnext hmark]
      rfl

/-- A run does not change what the search comes to. -/
theorem Run.result_eq (h : Run deps moves (.ok loop)) :
    (begin deps).result deps = loop.result deps :=
  h.induction_on_ok (motive := fun _ loop => (begin deps).result deps = loop.result deps) rfl
    fun _ _ _ _ hresult hiteration => hresult.trans hiteration.result_eq

/-! ## The invariant -/

/-- What holds at the start of each iteration: the marks tell the stack and the order, each frame
waits for the one above it, and all cursors and positions are in range. -/
structure Invariant (deps : Dependencies) (loop : Loop) : Prop
    extends Search.Invariant deps loop.search where
  cursor_le : ∀ frame ∈ loop.search.stack, frame.cursor ≤ (deps.of frame.node).length
  root_lt : ∀ root ∈ loop.roots, root < deps.size

/-- Nothing is on the stack yet, and the roots are the positions. -/
theorem invariant_begin (deps : Dependencies) : (begin deps).Invariant deps where
  toInvariant := invariant_start deps
  cursor_le := by
    intro frame hframe
    cases hframe
  root_lt := fun root hroot => List.mem_range.mp hroot

/-- An iteration keeps the invariant. -/
theorem Invariant.iteration (hdeps : deps.WellFormed) (h : loop.Invariant deps)
    (hiteration : Iteration deps loop move (.ok next)) : next.Invariant deps := by
  cases hiteration with
  | skip hstack hmark =>
      exact ⟨h.toInvariant, h.cursor_le, fun other hother =>
        h.root_lt other (List.mem_cons_of_mem _ hother)⟩
  | start hstack hmark =>
      refine ⟨h.toInvariant.enter_root hstack hmark, ?_, fun other hother =>
        h.root_lt other (List.mem_cons_of_mem _ hother)⟩
      exact List.forall_mem_cons.mpr ⟨Nat.zero_le _, h.cursor_le⟩
  | pass hstack hnext hmark =>
      refine ⟨h.toInvariant.turn hdeps (turn_advance hstack hnext hmark), ?_, h.root_lt⟩
      exact cursor_le_advance h.cursor_le hstack hnext
  | descend hstack hnext hmark =>
      refine ⟨h.toInvariant.turn hdeps (turn_enter hstack hnext hmark), ?_, h.root_lt⟩
      exact List.forall_mem_cons.mpr ⟨Nat.zero_le _, cursor_le_advance h.cursor_le hstack hnext⟩
  | @place roots search top below hstack hnone =>
      refine ⟨h.toInvariant.turn hdeps (turn_finish hstack hnone), ?_, h.root_lt⟩
      intro frame hframe
      refine h.cursor_le frame ?_
      show frame ∈ search.stack
      rw [hstack]
      exact List.mem_cons_of_mem top hframe

/-- A run keeps the invariant. -/
theorem Run.invariant (hdeps : deps.WellFormed) (h : Run deps moves (.ok loop)) :
    loop.Invariant deps :=
  h.induction_on_ok (motive := fun _ loop => loop.Invariant deps) (invariant_begin deps)
    fun _ _ _ _ hinvariant hiteration => hinvariant.iteration hdeps hiteration

/-- An iteration reads and writes at positions only. -/
theorem Invariant.positions_lt (hdeps : deps.WellFormed) (h : loop.Invariant deps)
    {outcome : Except (List Nat) Loop} (hiteration : Iteration deps loop move outcome) :
    ∀ position ∈ move.positions, position < deps.size := by
  have hframe : ∀ {top : Frame} {below : List Frame}, loop.search.stack = top :: below →
      top.node < deps.size := by
    intro top below hstack
    refine h.active_lt top.node ?_
    rw [active_of_stack_cons hstack]
    exact List.mem_cons_self
  have hpair : ∀ {top : Frame} {below : List Frame} {dep : Nat}, loop.search.stack = top :: below →
      (deps.of top.node)[top.cursor]? = some dep →
      ∀ position ∈ [top.node, dep], position < deps.size := by
    intro top below dep hstack hdep
    rw [List.forall_mem_cons, List.forall_mem_singleton]
    exact ⟨hframe hstack, hdeps.lt_size (List.mem_of_getElem? hdep)⟩
  cases hiteration with
  | skip hstack hmark => exact List.forall_mem_singleton.mpr (h.root_lt _ List.mem_cons_self)
  | start hstack hmark => exact List.forall_mem_singleton.mpr (h.root_lt _ List.mem_cons_self)
  | pass hstack hnext hmark => exact hpair hstack hnext
  | descend hstack hnext hmark => exact hpair hstack hnext
  | place hstack hnone => exact List.forall_mem_singleton.mpr (hframe hstack)
  | close hstack hnext hmark => exact hpair hstack hnext

/-! ## Logs -/

/-- What the iterations did is told by the state that they have come to: the roots that were taken
are those that are not left, the nodes that were placed are in the order, and the nodes put on the
stack and the dependencies looked at are those of the state, as often as there. -/
structure Accounts (deps : Dependencies) (moves : List Move) (loop : Loop) : Prop where
  taken_eq : moves.filterMap Move.taken? ++ loop.roots = List.range deps.size
  placed_eq : moves.filterMap Move.placed? = loop.search.placed
  pushed_perm :
    (moves.filterMap Move.pushed?).Perm (loop.search.active ++ loop.search.placed)
  examined_perm : (moves.filterMap Move.examined?).Perm (loop.search.lookedAt deps)

/-- The empty log goes with the first state. -/
theorem accounts_begin (deps : Dependencies) : Accounts deps [] (begin deps) where
  taken_eq := rfl
  placed_eq := rfl
  pushed_perm := .nil
  examined_perm := .nil

/-- A log grows as the state does. -/
theorem Accounts.concat (h : Accounts deps moves loop)
    (hroots : loop.roots = move.taken?.toList ++ next.roots)
    (hplaced : next.search.placed = loop.search.placed ++ move.placed?.toList)
    (hpushed : (next.search.active ++ next.search.placed).Perm
      (loop.search.active ++ loop.search.placed ++ move.pushed?.toList))
    (hexamined : (next.search.lookedAt deps).Perm
      (loop.search.lookedAt deps ++ move.examined?.toList)) :
    Accounts deps (moves ++ [move]) next := by
  -- each part of the log grows by what the last iteration adds to it, which is one entry or none
  have hconcat : ∀ {α : Type} (f : Move → Option α),
      (moves ++ [move]).filterMap f = moves.filterMap f ++ (f move).toList := by
    intro α f
    rw [List.filterMap_append]
    cases hmove : f move with
    | none => rw [List.filterMap_cons_none hmove]; rfl
    | some a => rw [List.filterMap_cons_some hmove]; rfl
  refine ⟨?_, ?_, ?_, ?_⟩
  · rw [hconcat, List.append_assoc, ← hroots, h.taken_eq]
  · rw [hconcat, h.placed_eq, hplaced]
  · rw [hconcat]
    exact (h.pushed_perm.append_right _).trans hpushed.symm
  · rw [hconcat]
    exact (h.examined_perm.append_right _).trans hexamined.symm

/-- Looking at a dependency moves the cursor past it and does nothing else. -/
theorem Accounts.examine {roots : List Nat} {search : Search} {top : Frame} {below : List Frame}
    {dep : Nat} (h : Accounts deps moves ⟨roots, search⟩) (hstack : search.stack = top :: below)
    (hnext : (deps.of top.node)[top.cursor]? = some dep)
    (hmove : move ∈ [.pass top.node dep, .close top.node dep]) :
    Accounts deps (moves ++ [move]) ⟨roots, search.advance top below⟩ := by
  have hactive : (search.advance top below).active = search.active :=
    (active_of_stack_cons hstack).symm
  have hpushed : ((search.advance top below).active ++ (search.advance top below).placed).Perm
      (search.active ++ search.placed ++ []) := by
    rw [hactive, placed_advance, List.append_nil]
  rw [List.mem_pair] at hmove
  rcases hmove with rfl | rfl
  · exact h.concat rfl (List.append_nil _).symm hpushed (lookedAt_advance_perm hstack hnext)
  · exact h.concat rfl (List.append_nil _).symm hpushed (lookedAt_advance_perm hstack hnext)

/-- An iteration adds to the log what it adds to the state. -/
theorem Accounts.iteration (h : Accounts deps moves loop)
    (hiteration : Iteration deps loop move (.ok next)) : Accounts deps (moves ++ [move]) next := by
  cases hiteration with
  | skip hstack hmark =>
      exact h.concat rfl (List.append_nil _).symm (.of_eq (List.append_nil _).symm)
        (.of_eq (List.append_nil _).symm)
  | @start root roots search hstack hmark =>
      refine h.concat rfl (List.append_nil _).symm ?_ (.of_eq ?_)
      · show ([root] ++ (search.active ++ search.placed)).Perm _
        exact List.perm_append_comm
      · exact (lookedAt_enter _).trans (List.append_nil _).symm
  | pass hstack hnext hmark => exact h.examine hstack hnext List.mem_cons_self
  | @descend roots search top below dep hstack hnext hmark =>
      have hactive : (search.advance top below).active = search.active :=
        (active_of_stack_cons hstack).symm
      refine h.concat rfl (List.append_nil _).symm ?_ ?_
      · show ([dep] ++ ((search.advance top below).active ++ search.placed)).Perm _
        rw [hactive]
        exact List.perm_append_comm
      · show (((search.advance top below).enter dep).lookedAt deps).Perm _
        rw [lookedAt_enter]
        exact lookedAt_advance_perm hstack hnext
  | @place roots search top below hstack hnone =>
      refine h.concat rfl placed_finish ?_ ?_
      · -- the node leaves the front of the stack and joins the end of the order
        show ((search.finish top below).active ++ (search.finish top below).placed).Perm
          (search.active ++ search.placed ++ [])
        rw [active_finish, placed_finish, active_of_stack_cons hstack, List.append_nil,
          ← List.append_assoc]
        exact List.perm_append_singleton ..
      · exact (lookedAt_finish_perm hstack hnone).trans (.of_eq (List.append_nil _).symm)

/-- The log of a run is told by the state that the run has come to. -/
theorem Run.accounts (h : Run deps moves (.ok loop)) : Accounts deps moves loop :=
  h.induction_on_ok (accounts_begin deps) fun _ _ _ _ haccounts hiteration =>
    haccounts.iteration hiteration

/-- Also the log of a run that closed a circle is told by a state, although the run has come to
none: by the one in which the cursor has passed the dependency that was found on the stack. -/
theorem Run.exists_accounts (hdeps : deps.WellFormed) {outcome : Except (List Nat) Loop}
    (h : Run deps moves outcome) :
    ∃ loop, Accounts deps moves loop ∧ Coherent deps loop.search := by
  cases outcome with
  | ok loop => exact ⟨loop, h.accounts, (h.invariant hdeps).toCoherent⟩
  | error path =>
      cases h with
      | concat hrun hiteration =>
          have hcoherent := (hrun.invariant hdeps).toCoherent
          cases hiteration with
          -- only the iteration that closes a circle comes to no state
          | close hstack hnext hmark =>
              refine ⟨_, hrun.accounts.examine hstack hnext ?_, hcoherent.advance hstack⟩
              exact List.mem_cons_of_mem _ List.mem_cons_self

/-! ## At most once -/

section Once

variable {outcome : Except (List Nat) Loop} (hdeps : deps.WellFormed)
  (hnodup : ∀ node, (deps.of node).Nodup) (h : Run deps moves outcome)

include hdeps h

/-- No node is put on the stack twice. -/
theorem Run.nodup_pushed : (moves.filterMap Move.pushed?).Nodup := by
  obtain ⟨loop, haccounts, hcoherent⟩ := h.exists_accounts hdeps
  exact haccounts.pushed_perm.nodup_iff.mpr hcoherent.nodup_seen

/-- The iterations read and write at positions only. -/
theorem Run.positions_lt : ∀ move ∈ moves, ∀ position ∈ move.positions, position < deps.size := by
  induction h with
  | nil => exact List.forall_mem_nil _
  | concat hrun hiteration ih =>
      rw [List.forall_mem_append, List.forall_mem_singleton]
      exact ⟨ih, (hrun.invariant hdeps).positions_lt hdeps hiteration⟩

include hnodup

/-- No dependency of a node is looked at twice. -/
theorem Run.nodup_examined : (moves.filterMap Move.examined?).Nodup := by
  obtain ⟨loop, haccounts, hcoherent⟩ := h.exists_accounts hdeps
  exact haccounts.examined_perm.nodup_iff.mpr (hcoherent.nodup_lookedAt hnodup)

/-- A run is no longer than twice the number of positions and once the number of dependencies, which
are among the given links. -/
theorem Run.length_le {links : List (Nat × Nat)}
    (hlinks : ∀ node, ∀ dep ∈ deps.of node, (node, dep) ∈ links) :
    moves.length ≤ 2 * deps.size + links.length := by
  have hexamined := h.nodup_examined hdeps hnodup
  obtain ⟨loop, haccounts, hcoherent⟩ := h.exists_accounts hdeps
  have htaken : (moves.filterMap Move.taken?).length ≤ deps.size := by
    have hlength := congrArg List.length haccounts.taken_eq
    rw [List.length_append, List.length_range] at hlength
    omega
  have hplaced : (moves.filterMap Move.placed?).length ≤ deps.size := by
    have hsubset : loop.search.placed ⊆ List.range deps.size := fun node hnode =>
      List.mem_range.mpr (hcoherent.placed_lt node hnode)
    have hlength := (List.subperm_of_subset hcoherent.placed_nodup hsubset).length_le
    rwa [haccounts.placed_eq, ← List.length_range (n := deps.size)]
  have hlooks : (moves.filterMap Move.examined?).length ≤ links.length := by
    refine (List.subperm_of_subset hexamined ?_).length_le
    rintro ⟨node, dep⟩ hpair
    exact hlinks node dep (mem_of_mem_lookedAt (haccounts.examined_perm.mem_iff.mp hpair))
  -- every iteration is counted under exactly one of the three
  have hcounts := Move.length_eq_counts moves
  omega

end Once

/-- If no run is longer than a bound, some run comes to an end. -/
theorem exists_ended_run {bound : Nat}
    (hbound : ∀ moves outcome, Run deps moves outcome → moves.length ≤ bound) :
    (∃ moves path, Run deps moves (.error path)) ∨
      ∃ moves loop, Run deps moves (.ok loop) ∧ loop.Finished := by
  by_contra hnone
  rw [not_or] at hnone
  obtain ⟨hcircle, hfinished⟩ := hnone
  -- otherwise every run can be made longer
  have hlonger : ∀ length, ∃ moves loop, Run deps moves (.ok loop) ∧ moves.length = length := by
    intro length
    induction length with
    | zero => exact ⟨[], _, .nil, rfl⟩
    | succ length ih =>
        obtain ⟨moves, loop, hrun, rfl⟩ := ih
        obtain hend | ⟨move, outcome, hiteration⟩ := finished_or_exists_iteration deps loop
        · exact absurd ⟨moves, loop, hrun, hend⟩ hfinished
        · cases outcome with
          | error path => exact absurd ⟨_, path, hrun.concat hiteration⟩ hcircle
          | ok next => exact ⟨_, next, hrun.concat hiteration, List.length_append⟩
  obtain ⟨moves, loop, hrun, hlength⟩ := hlonger (bound + 1)
  have hle := hbound moves _ hrun
  omega

/-! ## The ends of a run -/

/-- A run that closed a circle found the node on the stack in its last iteration, and the circle is
the stack from there on. -/
theorem Run.exists_place (hdeps : deps.WellFormed) {path : List Nat}
    (h : Run deps moves (.error path)) :
    ∃ before loop node dep place, moves = before ++ [.close node dep] ∧
      Run deps before (.ok loop) ∧
      loop.search.active.reverse.findIdx? (· == dep) = some place ∧
      path = loop.search.active.reverse.drop place ++ [dep] := by
  cases h with
  | concat hrun hiteration =>
      have hinvariant := hrun.invariant hdeps
      cases hiteration with
      | close hstack hnext hmark =>
          obtain ⟨place, hplace, hcircle⟩ :=
            circle_eq_drop hstack ((hinvariant.inProgress_iff _).mp hmark)
          exact ⟨_, _, _, _, place, rfl, hrun, hplace, hcircle⟩

/-- A run that closes a circle shows that there is no order. -/
theorem Run.order_eq_error {path : List Nat} (h : Run deps moves (.error path)) :
    deps.order = .error path := by
  cases h with
  | concat hrun hiteration =>
      rw [order_eq_result_begin, hrun.result_eq, hiteration.result_eq_error]
      rfl

/-- A run that finishes has placed the nodes in their order. -/
theorem Run.order_eq_ok (h : Run deps moves (.ok loop)) (hfinished : loop.Finished) :
    deps.order = .ok loop.search.placed := by
  rw [order_eq_result_begin, h.result_eq, result_of_finished hfinished]
  rfl

/-- A run that finished has put every position on the stack and looked at every dependency. -/
theorem Run.complete_of_finished (hdeps : deps.WellFormed) (h : Run deps moves (.ok loop))
    (hfinished : loop.Finished) :
    (moves.filterMap Move.pushed?).Perm (List.range deps.size) ∧
      ∀ node dep, (node, dep) ∈ moves.filterMap Move.examined? ↔ dep ∈ deps.of node := by
  have hplaced := (Dependencies.order_ok hdeps (h.order_eq_ok hfinished)).1
  have hactive : loop.search.active = [] := by rw [active, hfinished.2, List.map_nil]
  have hpushed := h.accounts.pushed_perm
  rw [hactive, List.nil_append] at hpushed
  refine ⟨hpushed.trans hplaced, fun node dep => ?_⟩
  rw [h.accounts.examined_perm.mem_iff]
  refine ⟨mem_of_mem_lookedAt, fun hdep => ?_⟩
  have hnode : node ∈ loop.search.placed :=
    hplaced.mem_iff.mpr (List.mem_range.mpr (Dependencies.lt_size_of_mem hdep))
  exact List.mem_append_right _
    (List.mem_flatMap.mpr ⟨node, hnode, List.mem_map.mpr ⟨dep, hdep, rfl⟩⟩)

end Loop

/-! ## Flows -/

/-- The dependencies of the nodes of a flow. -/
def Flow.dependencies (flow : Flow) : Dependencies :=
  .ofGraph (Graph.build flow)

/-- The dependencies of a flow are positions of its nodes. -/
theorem Flow.wellFormed_dependencies (flow : Flow) : flow.dependencies.WellFormed :=
  Dependencies.wellFormed_ofGraph (Graph.build_wellFormed flow)

/-- No node of a flow has a dependency twice, however many connections say so. -/
theorem Flow.nodup_dependencies (flow : Flow) (node : Nat) : (flow.dependencies.of node).Nodup :=
  Dependencies.nodup_of_ofGraph _ node

/-- A run of a flow is bounded by its accepted nodes and connections, since every dependency
comes from a connection. -/
theorem Flow.length_run_le (flow : Flow) {moves : List Move} {outcome : Except (List Nat) Loop}
    (h : Loop.Run flow.dependencies moves outcome) :
    moves.length ≤ 2 * (Graph.build flow).nodes.length + (Graph.build flow).edges.length := by
  have hlinks : ∀ node, ∀ dep ∈ flow.dependencies.of node,
      (node, dep) ∈ (Graph.build flow).edges.map fun edge => (edge.target, edge.source) := by
    intro node dep hdep
    obtain ⟨edge, hedge, rfl, rfl⟩ :=
      (Dependencies.mem_of_ofGraph (Graph.build_wellFormed flow)).mp hdep
    exact List.mem_map.mpr ⟨edge, hedge, rfl⟩
  have hlength := h.length_le flow.wellFormed_dependencies flow.nodup_dependencies hlinks
  rwa [List.length_map, Flow.dependencies, Dependencies.size_ofGraph] at hlength

/-- At the start of each iteration of the search through a flow, cyclic or not, the invariant holds,
all nodes, cursors and dependencies on the stack are in range, and the search is finished or goes
on, by a step if there is a frame.  No run puts a node on the stack twice, looks at a dependency of
a node twice, goes past the last node, or is longer than twice the number of nodes and once that of
the connections.  A run that closes a circle has found the node on the stack, and a run that
finishes has looked at everything; one of the two comes about, and it is the result of the search.
-/
theorem search_looks_once_and_ends (flow : Flow) :
    (∀ moves loop, Loop.Run flow.dependencies moves (.ok loop) →
      loop.Invariant flow.dependencies ∧
      (∀ frame ∈ loop.search.stack, frame.node < (Graph.build flow).nodes.length ∧
        frame.cursor ≤ (flow.dependencies.of frame.node).length ∧
        ∀ dep ∈ flow.dependencies.of frame.node, dep < (Graph.build flow).nodes.length) ∧
      (loop.Finished ∨ ∃ move outcome, Loop.Iteration flow.dependencies loop move outcome) ∧
      ∀ move outcome, Loop.Iteration flow.dependencies loop move outcome →
        ∀ top below, loop.search.stack = top :: below →
          outcome = (Search.step flow.dependencies loop.search top below).map
            (Loop.mk loop.roots)) ∧
    (∀ moves outcome, Loop.Run flow.dependencies moves outcome →
      (moves.filterMap Move.pushed?).Nodup ∧ (moves.filterMap Move.examined?).Nodup ∧
      (∀ move ∈ moves, ∀ position ∈ move.positions, position < (Graph.build flow).nodes.length) ∧
      moves.length ≤ 2 * (Graph.build flow).nodes.length + (Graph.build flow).edges.length) ∧
    (∀ moves path, Loop.Run flow.dependencies moves (.error path) →
      flow.dependencies.order = .error path ∧
      ∃ before loop node dep place, moves = before ++ [.close node dep] ∧
        Loop.Run flow.dependencies before (.ok loop) ∧
        loop.search.active.reverse.findIdx? (· == dep) = some place ∧
        path = loop.search.active.reverse.drop place ++ [dep]) ∧
    (∀ moves loop, Loop.Run flow.dependencies moves (.ok loop) → loop.Finished →
      flow.dependencies.order = .ok loop.search.placed ∧
      (moves.filterMap Move.pushed?).Perm (List.range (Graph.build flow).nodes.length) ∧
      ∀ node dep, (node, dep) ∈ moves.filterMap Move.examined? ↔
        dep ∈ flow.dependencies.of node) ∧
    ((∃ moves path, Loop.Run flow.dependencies moves (.error path)) ∨
      ∃ moves loop, Loop.Run flow.dependencies moves (.ok loop) ∧ loop.Finished) := by
  have hdeps := flow.wellFormed_dependencies
  have hsize : flow.dependencies.size = (Graph.build flow).nodes.length :=
    Dependencies.size_ofGraph _
  rw [← hsize]
  refine ⟨fun moves loop hrun => ?_, fun moves outcome hrun => ?_, fun moves path hrun => ?_,
    fun moves loop hrun hfinished => ?_, ?_⟩
  · have hinvariant := hrun.invariant hdeps
    refine ⟨hinvariant, fun frame hframe => ?_, Loop.finished_or_exists_iteration _ loop,
      fun move outcome hiteration top below hstack => hiteration.eq_step hstack⟩
    exact ⟨hinvariant.active_lt _ (List.mem_map_of_mem hframe), hinvariant.cursor_le frame hframe,
      fun dep hdep => hdeps.lt_size hdep⟩
  · exact ⟨hrun.nodup_pushed hdeps, hrun.nodup_examined hdeps flow.nodup_dependencies,
      hrun.positions_lt hdeps, hsize ▸ flow.length_run_le hrun⟩
  · exact ⟨hrun.order_eq_error, hrun.exists_place hdeps⟩
  · exact ⟨hrun.order_eq_ok hfinished, hrun.complete_of_finished hdeps hfinished⟩
  · exact Loop.exists_ended_run fun moves outcome hrun => flow.length_run_le hrun

/-- The search through a circle behind a root ends with an iteration that closes the circle. -/
theorem circleBehindRoot_search_ends :
    ∃ before loop node dep,
      Loop.Run circleBehindRoot.dependencies (before ++ [.close node dep]) (.error [1, 2, 1]) ∧
      Loop.Run circleBehindRoot.dependencies before (.ok loop) ∧
      loop.Invariant circleBehindRoot.dependencies ∧ (before.filterMap Move.pushed?).Nodup := by
  have horder : circleBehindRoot.dependencies.order = .error [1, 2, 1] := by
    cbv
  obtain ⟨hstate, honce, hcircle, hfinish, hends⟩ := search_looks_once_and_ends circleBehindRoot
  rcases hends with ⟨moves, path, hrun⟩ | ⟨moves, loop, hrun, hfinished⟩
  · obtain ⟨herror, before, loop, node, dep, -, rfl, hbefore, -⟩ := hcircle moves path hrun
    rw [horder] at herror
    cases herror
    exact ⟨before, loop, node, dep, hrun, hbefore, (hstate _ _ hbefore).1, (honce _ _ hbefore).1⟩
  · have hok := (hfinish moves loop hrun hfinished).1
    rw [horder] at hok
    cases hok

end TestFlow
