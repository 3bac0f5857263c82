import TestFlow.Proofs.Order.Turns
import Mathlib.Data.List.Chain
import Mathlib.Data.List.Nodup
import Mathlib.Data.List.Perm.Basic

/-!
# The invariant of the search

The marks of the search say nothing that its stack and its order do not: the nodes in progress are
those on the stack, and the nodes done are those placed.  Between two frames of the stack the outer
one waits for the inner one, which is the dependency just before the outer cursor, and all that the
cursor passed before is placed.  So when a frame has no dependency left, all of them are placed, and
when a dependency is found on the stack, the frames from there on wait for each other in a circle.

The invariant is proved of one turn of the loop (`Search.Invariant.turn`) and carried from there to
the exploration of a root and to the whole search.

Reference: specification, §4.2 (dependencies first; a node in progress that is met again is a fatal
cycle).

## Main statements

* `Dependencies.order_ok` — a search that succeeds places every position once, dependencies first;
* `Dependencies.order_error` — a search that fails gives a circle of positions.
-/

namespace TestFlow

namespace Dependencies

/-! ## Lists of positions -/

/-- Every dependency is a position, and no position depends on itself. -/
structure WellFormed (deps : Dependencies) : Prop where
  lt_size : ∀ {node dep}, dep ∈ deps.of node → dep < deps.size
  ne_self : ∀ {node dep}, dep ∈ deps.of node → dep ≠ node

/-- Each member of a list comes after all that it depends on. -/
def Respects (deps : Dependencies) (order : List Nat) : Prop :=
  ∀ i node, order[i]? = some node → ∀ dep ∈ deps.of node, dep ∈ order.take i

/-- A list that goes along dependencies from a node back to it, and through no node twice. -/
def IsCircle (deps : Dependencies) (path : List Nat) : Prop :=
  ∃ first rest, path = first :: rest ++ [first] ∧ (first :: rest).Nodup ∧
    path.IsChain fun node dep => dep ∈ deps.of node

/-- A position past the last has no dependencies. -/
theorem of_eq_nil {deps : Dependencies} {node : Nat} (h : deps.size ≤ node) :
    deps.of node = [] := by
  have hlists : ¬ node < deps.lists.size := Nat.not_lt.mpr h
  rw [of, Array.getD, dif_neg hlists]

/-- Only positions have dependencies. -/
theorem lt_size_of_mem {deps : Dependencies} {node dep : Nat} (h : dep ∈ deps.of node) :
    node < deps.size := by
  by_contra hge
  rw [of_eq_nil (Nat.not_lt.mp hge)] at h
  cases h

/-- The nodes of a circle are positions. -/
theorem IsCircle.lt_size {deps : Dependencies} (hdeps : deps.WellFormed) {path : List Nat}
    (h : deps.IsCircle path) : ∀ node ∈ path, node < deps.size := by
  obtain ⟨first, rest, rfl, -, hchain⟩ := h
  -- only the first member needs an argument, every other one being a dependency of the one before
  -- it
  have hfirst : first < deps.size := by
    by_contra hlt
    have hnone := of_eq_nil (Nat.not_lt.mp hlt)
    cases rest with
    | nil =>
        have hlink := List.isChain_pair.mp hchain
        rw [hnone] at hlink
        cases hlink
    | cons second rest =>
        have hlink := (List.isChain_cons_cons.mp hchain).1
        rw [hnone] at hlink
        cases hlink
  exact hchain.induction (· < deps.size) _ (fun _ _ hdep _ => hdeps.lt_size hdep) fun _ => hfirst

/-- A node may come after a list that holds all of its dependencies. -/
theorem Respects.append_singleton {deps : Dependencies} {order : List Nat} {node : Nat}
    (h : deps.Respects order) (hnode : ∀ dep ∈ deps.of node, dep ∈ order) :
    deps.Respects (order ++ [node]) := by
  intro i other hother dep hdep
  by_cases hi : i < order.length
  · rw [List.getElem?_append_left hi] at hother
    rw [List.take_append_of_le_length (Nat.le_of_lt hi)]
    exact h i other hother dep hdep
  · have hi' : order.length ≤ i := Nat.not_lt.mp hi
    rw [List.getElem?_append_right hi'] at hother
    have hsame : other = node := List.mem_singleton.mp (List.mem_of_getElem? hother)
    rw [List.take_append, List.take_of_length_le hi']
    exact List.mem_append_left _ (hnode dep (hsame ▸ hdep))

end Dependencies

namespace Search

variable {deps : Dependencies} {search result : Search} {top : Frame} {below : List Frame}

/-! ## Marks -/

/-- Writing the mark of a node changes it for that node and for no other. -/
theorem mark_setIfInBounds {node : Nat} (hnode : node < search.marks.size) (mark : Mark)
    (stack : List Frame) (order : Array Nat) (other : Nat) :
    Search.mark ⟨search.marks.setIfInBounds node mark, stack, order⟩ other =
      if node = other then mark else search.mark other := by
  rw [Search.mark, Array.getD_eq_getD_getElem?, Array.getElem?_setIfInBounds]
  by_cases hsame : node = other
  · rw [if_pos hsame, if_pos hnode, if_pos hsame, Option.getD_some]
  · rw [if_neg hsame, if_neg hsame, Search.mark, Array.getD_eq_getD_getElem?]

/-- Starting a node marks it, and no other. -/
theorem mark_enter {node : Nat} (hnode : node < search.marks.size) (other : Nat) :
    (search.enter node).mark other = if node = other then .inProgress else search.mark other :=
  mark_setIfInBounds hnode .inProgress _ _ other

/-- Placing a node marks it, and no other. -/
theorem mark_finish (hnode : top.node < search.marks.size) (other : Nat) :
    (search.finish top below).mark other = if top.node = other then .done else search.mark other :=
  mark_setIfInBounds hnode .done _ _ other

/-- A node that is not done is one of the nodes that are marked. -/
theorem lt_size_of_mark_ne_done {node : Nat} (h : search.mark node ≠ .done) :
    node < search.marks.size := by
  by_contra hlt
  exact h (by simp [mark, Array.getD, hlt])

/-- The marks agree with the stack and the order: the nodes on the stack are those in progress, the
nodes placed are those done, and no node is on the stack or in the order twice. -/
structure Coherent (deps : Dependencies) (search : Search) : Prop where
  size_eq : search.marks.size = deps.size
  inProgress_iff : ∀ node, search.mark node = .inProgress ↔ node ∈ search.active
  done_iff : ∀ node < deps.size, (search.mark node = .done ↔ node ∈ search.placed)
  placed_lt : ∀ node ∈ search.placed, node < deps.size
  active_nodup : search.active.Nodup
  placed_nodup : search.placed.Nodup

/-- A search starts with nothing on the stack and nothing placed. -/
theorem coherent_start (deps : Dependencies) : Coherent deps (start deps.size) where
  size_eq := by simp [start]
  inProgress_iff := by
    intro node
    by_cases hlt : node < deps.size <;> simp [start, mark, active, hlt]
  done_iff := by
    intro node hlt
    simp [start, mark, placed, hlt]
  placed_lt := by simp [start, placed]
  active_nodup := by simp [start, active]
  placed_nodup := by simp [start, placed]

/-- Moving a cursor keeps the marks in agreement. -/
theorem Coherent.advance (h : Coherent deps search) (hstack : search.stack = top :: below) :
    Coherent deps (search.advance top below) := by
  have hactive : (search.advance top below).active = search.active :=
    (active_of_stack_cons hstack).symm
  exact ⟨h.size_eq, by rw [hactive]; exact h.inProgress_iff, h.done_iff, h.placed_lt,
    by rw [hactive]; exact h.active_nodup, h.placed_nodup⟩

/-- Starting an unvisited node keeps the marks in agreement. -/
theorem Coherent.enter (h : Coherent deps search) {node : Nat}
    (hnode : search.mark node = .unvisited) : Coherent deps (search.enter node) := by
  have hlt : node < search.marks.size := lt_size_of_mark_ne_done (by rw [hnode]; decide)
  refine ⟨?_, ?_, ?_, h.placed_lt, ?_, h.placed_nodup⟩
  · simpa [Search.enter] using h.size_eq
  · intro other
    rw [mark_enter hlt, active_enter, List.mem_cons]
    by_cases hsame : node = other
    · simp [hsame]
    · rw [if_neg hsame, h.inProgress_iff]
      simp [Ne.symm hsame]
  · intro other hother
    rw [mark_enter hlt]
    by_cases hsame : node = other
    · -- the node was not done before, and it is not done now
      subst hsame
      have hnot : node ∉ search.placed := by
        rw [← h.done_iff node hother, hnode]
        decide
      rw [if_pos rfl]
      exact iff_of_false (by decide) hnot
    · rw [if_neg hsame]
      exact h.done_iff other hother
  · rw [active_enter, List.nodup_cons, ← h.inProgress_iff, hnode]
    exact ⟨by decide, h.active_nodup⟩

/-- Placing the node of the innermost frame keeps the marks in agreement. -/
theorem Coherent.finish (h : Coherent deps search) (hstack : search.stack = top :: below) :
    Coherent deps (search.finish top below) := by
  have hactive := active_of_stack_cons hstack
  have hmark : search.mark top.node = .inProgress := by
    rw [h.inProgress_iff, hactive]
    exact List.mem_cons_self
  have hlt : top.node < search.marks.size := lt_size_of_mark_ne_done (by rw [hmark]; decide)
  have hnodup := h.active_nodup
  rw [hactive, List.nodup_cons] at hnodup
  have hnot : top.node ∉ search.placed := by
    rw [← h.done_iff top.node (h.size_eq ▸ hlt), hmark]
    decide
  -- the node leaves the stack, on which it stood once, and joins the order, in which it was not
  refine ⟨?_, ?_, ?_, ?_, hnodup.2, ?_⟩
  · simpa [Search.finish] using h.size_eq
  · intro other
    rw [mark_finish hlt, active_finish]
    by_cases hsame : top.node = other
    · subst hsame
      simpa using hnodup.1
    · rw [if_neg hsame, h.inProgress_iff, hactive, List.mem_cons]
      exact or_iff_right (Ne.symm hsame)
  · intro other hother
    rw [mark_finish hlt, placed_finish, List.mem_append, List.mem_singleton]
    by_cases hsame : top.node = other
    · simp [hsame]
    · rw [if_neg hsame, h.done_iff other hother]
      exact (or_iff_left (Ne.symm hsame)).symm
  · intro other hother
    rw [placed_finish, List.mem_append, List.mem_singleton] at hother
    rcases hother with hother | rfl
    · exact h.placed_lt other hother
    · exact h.size_eq ▸ hlt
  · rw [placed_finish, List.nodup_append_comm]
    exact List.nodup_cons.mpr ⟨by simpa using hnot, by simpa using h.placed_nodup⟩

/-- The marks tell apart the nodes that are placed, those on the stack, and all others. -/
theorem Coherent.mark_cases (h : Coherent deps search) {node : Nat} (hnode : node < deps.size) :
    (node ∈ search.placed ∧ search.mark node = .done) ∨
      (node ∉ search.placed ∧ node ∈ search.active ∧ search.mark node = .inProgress) ∨
      (node ∉ search.placed ∧ node ∉ search.active ∧ search.mark node = .unvisited) := by
  rw [← h.inProgress_iff, ← h.done_iff node hnode]
  cases search.mark node <;> simp

/-! ## What the frames wait for -/

/-- The outer frame waits for the inner one: the inner node is the dependency just before the outer
cursor, and those before it are placed. -/
def WaitsFor (deps : Dependencies) (placed : List Nat) (inner outer : Frame) : Prop :=
  ∃ index, outer.cursor = index + 1 ∧ (deps.of outer.node)[index]? = some inner.node ∧
    ∀ dep ∈ (deps.of outer.node).take index, dep ∈ placed

/-- A frame waits for a node that its node depends on. -/
theorem WaitsFor.mem {placed : List Nat} {inner outer : Frame}
    (h : WaitsFor deps placed inner outer) : inner.node ∈ deps.of outer.node := by
  obtain ⟨index, -, hindex, -⟩ := h
  exact List.mem_of_getElem? hindex

/-- A frame goes on waiting while more nodes are placed. -/
theorem WaitsFor.mono {placed more : List Nat} {inner outer : Frame}
    (h : WaitsFor deps placed inner outer) (hmore : placed ⊆ more) :
    WaitsFor deps more inner outer := by
  obtain ⟨index, hcursor, hindex, hpassed⟩ := h
  exact ⟨index, hcursor, hindex, fun dep hdep => hmore (hpassed dep hdep)⟩

/-- Nothing waits on the cursor of the innermost frame. -/
theorem isChain_waitsFor_cursor {placed : List Nat} (cursor : Nat)
    (h : (top :: below).IsChain (WaitsFor deps placed)) :
    ({ top with cursor := cursor } :: below).IsChain (WaitsFor deps placed) := by
  rw [List.isChain_cons] at h ⊢
  exact h

/-- The members of a list up to and with the one at an index. -/
theorem mem_take_succ {list : List Nat} {index value : Nat} (h : list[index]? = some value)
    (other : Nat) : other ∈ list.take (index + 1) ↔ other ∈ list.take index ∨ other = value := by
  rw [List.take_add_one, h, Option.toList_some, List.mem_append, List.mem_singleton]

/-- The invariant of the loop. -/
structure Invariant (deps : Dependencies) (search : Search) : Prop
    extends Coherent deps search where
  respects : deps.Respects search.placed
  waits : search.stack.IsChain (WaitsFor deps search.placed)
  passed : ∀ top ∈ search.stack.head?, ∀ dep ∈ (deps.of top.node).take top.cursor,
    dep ∈ search.placed

/-- The invariant holds before the first root. -/
theorem invariant_start (deps : Dependencies) : Invariant deps (start deps.size) where
  toCoherent := coherent_start deps
  respects := by
    intro i node hnode
    simp [start, placed] at hnode
  waits := .nil
  passed := by simp [start]

/-- Passing a placed dependency keeps the invariant. -/
theorem Invariant.advance (h : Invariant deps search) (hstack : search.stack = top :: below)
    {next : Nat} (hnext : (deps.of top.node)[top.cursor]? = some next)
    (hplaced : next ∈ search.placed) : Invariant deps (search.advance top below) where
  toCoherent := h.toCoherent.advance hstack
  respects := h.respects
  waits := by
    have hwaits := h.waits
    rw [hstack] at hwaits
    exact isChain_waitsFor_cursor (top.cursor + 1) hwaits
  passed := by
    rintro _ ⟨⟩ dep hdep
    rcases (mem_take_succ hnext dep).mp hdep with hdep | rfl
    · exact h.passed top (by rw [hstack]; rfl) dep hdep
    · exact hplaced

/-- Starting an unvisited dependency keeps the invariant. -/
theorem Invariant.enter_next (h : Invariant deps search) (hstack : search.stack = top :: below)
    {next : Nat} (hnext : (deps.of top.node)[top.cursor]? = some next)
    (hmark : search.mark next = .unvisited) :
    Invariant deps ((search.advance top below).enter next) where
  toCoherent := (h.toCoherent.advance hstack).enter hmark
  respects := h.respects
  waits := by
    have hwaits := h.waits
    rw [hstack] at hwaits
    have hpassed := h.passed top (by rw [hstack]; rfl)
    exact .cons_cons ⟨top.cursor, rfl, hnext, hpassed⟩
      (isChain_waitsFor_cursor (top.cursor + 1) hwaits)
  passed := by
    rintro _ ⟨⟩ dep hdep
    simp at hdep

/-- Starting a root keeps the invariant. -/
theorem Invariant.enter_root (h : Invariant deps search) (hstack : search.stack = [])
    {root : Nat} (hmark : search.mark root = .unvisited) : Invariant deps (search.enter root) where
  toCoherent := h.toCoherent.enter hmark
  respects := h.respects
  waits := by
    rw [enter, hstack]
    exact .singleton _
  passed := by
    rintro _ ⟨⟩ dep hdep
    simp at hdep

/-- Placing a node without further dependencies keeps the invariant. -/
theorem Invariant.finish (h : Invariant deps search) (hstack : search.stack = top :: below)
    (hnone : (deps.of top.node)[top.cursor]? = none) :
    Invariant deps (search.finish top below) := by
  have hmore : search.placed ⊆ (search.finish top below).placed := by
    rw [placed_finish]
    exact List.subset_append_left _ _
  have hwaits := h.waits
  rw [hstack, List.isChain_cons] at hwaits
  refine ⟨h.toCoherent.finish hstack, ?_, hwaits.2.imp fun _ _ hwait => hwait.mono hmore, ?_⟩
  · -- the cursor has passed all dependencies, so all of them are placed
    rw [placed_finish]
    refine h.respects.append_singleton fun dep hdep => ?_
    refine h.passed top (by rw [hstack]; rfl) dep ?_
    rwa [List.take_of_length_le (List.getElem?_eq_none_iff.mp hnone)]
  · -- the next frame has just been waiting for the node that was placed
    intro outer houter dep hdep
    obtain ⟨index, hcursor, hindex, hpassed⟩ := hwaits.1 outer houter
    rw [hcursor, mem_take_succ hindex] at hdep
    rcases hdep with hdep | rfl
    · exact hmore (hpassed dep hdep)
    · rw [placed_finish]
      exact List.mem_append_right _ (List.mem_singleton.mpr rfl)

/-- A turn keeps the invariant. -/
theorem Invariant.turn (hdeps : deps.WellFormed) (h : Invariant deps search)
    (hturn : Turn deps search result) : Invariant deps result := by
  obtain ⟨top, below, hstack, hstep⟩ := hturn
  rcases step_ok_cases hstep with ⟨hnone, rfl⟩ | ⟨next, hnext, ⟨hmark, rfl⟩ | ⟨hmark, rfl⟩⟩
  · exact h.finish hstack hnone
  · have hlt : next < deps.size := hdeps.lt_size (List.mem_of_getElem? hnext)
    exact h.advance hstack hnext ((h.done_iff next hlt).mp hmark)
  · exact h.enter_next hstack hnext hmark

/-- A run of turns keeps the invariant. -/
theorem Invariant.turns (hdeps : deps.WellFormed) (h : Invariant deps search)
    (hturns : Relation.ReflTransGen (Turn deps) search result) : Invariant deps result := by
  induction hturns with
  | refl => exact h
  | tail _ hturn ih => exact ih.turn hdeps hturn

/-! ## Circles -/

/-- The stack of a failing turn, the outermost node first, goes along dependencies. -/
theorem Invariant.isChain_active (h : Invariant deps search) :
    search.active.reverse.IsChain fun node dep => dep ∈ deps.of node := by
  rw [List.isChain_reverse, active, List.isChain_map]
  exact h.waits.imp fun _ _ hwait => hwait.mem

/-- What is left of a list from the first occurrence of a member on. -/
theorem exists_dropWhile_ne {list : List Nat} {value : Nat} (h : value ∈ list) :
    ∃ before rest, list = before ++ value :: rest ∧
      list.dropWhile (· != value) = value :: rest := by
  induction list with
  | nil => cases h
  | cons head tail ih =>
      by_cases hsame : head = value
      · subst hsame
        exact ⟨[], tail, rfl, by simp⟩
      · obtain ⟨before, rest, htail, hdrop⟩ := ih (List.mem_of_ne_of_mem (Ne.symm hsame) h)
        refine ⟨head :: before, rest, by rw [htail, List.cons_append], ?_⟩
        rw [List.dropWhile_cons_of_pos (by simpa using hsame), hdrop]

/-- The circle of a failing turn leads along dependencies from a node back to it. -/
theorem Invariant.isCircle (h : Invariant deps search) (hstack : search.stack = top :: below)
    {path : List Nat} (hstep : step deps search top below = .error path) : deps.IsCircle path := by
  obtain ⟨next, hnext, hmark, rfl⟩ := step_error_cases hstep
  have hmem : next ∈ search.active.reverse := by
    rw [List.mem_reverse]
    exact (h.inProgress_iff next).mp hmark
  obtain ⟨before, rest, hsplit, hdrop⟩ := exists_dropWhile_ne hmem
  have hcircle : circle (search.advance top below).stack next = next :: rest ++ [next] := by
    rw [circle_advance hstack, hdrop]
  -- the last node of the stack depends on the node that closes the circle
  have hclosed : (search.active.reverse ++ [next]).IsChain fun node dep => dep ∈ deps.of node := by
    refine h.isChain_active.append (.singleton _) ?_
    intro last hlast first hfirst
    rw [List.getLast?_reverse, active_of_stack_cons hstack, List.head?_cons,
      Option.mem_some_iff] at hlast
    rw [List.head?_cons, Option.mem_some_iff] at hfirst
    subst hlast hfirst
    exact List.mem_of_getElem? hnext
  -- the circle is the end of the stack from the node on, so it has the properties of the stack
  have hnodup := List.nodup_reverse.mpr h.active_nodup
  rw [hsplit] at hclosed hnodup
  refine ⟨next, rest, hcircle, hnodup.of_append_right, ?_⟩
  rw [hcircle]
  exact hclosed.suffix ⟨before, by rw [List.append_assoc]⟩

/-! ## From turns to the whole search -/

/-- A node that is on the stack or placed stays on the stack or placed. -/
theorem Turn.seen (hturn : Turn deps search result) {node : Nat}
    (h : node ∈ search.active ∨ node ∈ search.placed) :
    node ∈ result.active ∨ node ∈ result.placed := by
  obtain ⟨top, below, hstack, hstep⟩ := hturn
  rw [active_of_stack_cons hstack, List.mem_cons, or_assoc] at h
  rcases step_ok_cases hstep with ⟨-, rfl⟩ | ⟨next, -, ⟨-, rfl⟩ | ⟨-, rfl⟩⟩
  · rw [active_finish, placed_finish, List.mem_append, List.mem_singleton]
    rcases h with h | h | h
    · exact Or.inr (Or.inr h)
    · exact Or.inl h
    · exact Or.inr (Or.inl h)
  · rwa [active_advance, placed_advance, List.mem_cons, or_assoc]
  · rw [active_enter, active_advance, placed_enter, placed_advance, List.mem_cons, List.mem_cons,
      or_assoc, or_assoc]
    exact Or.inr h

/-- Along a run of turns, a node that is on the stack or placed stays on the stack or placed. -/
theorem seen_of_turns (hturns : Relation.ReflTransGen (Turn deps) search result) {node : Nat}
    (h : node ∈ search.active ∨ node ∈ search.placed) :
    node ∈ result.active ∨ node ∈ result.placed := by
  induction hturns with
  | refl => exact h
  | tail _ hturn ih => exact hturn.seen ih

/-- Exploring to an empty stack places all that was on the stack and keeps what was placed. -/
theorem Invariant.explore_ok (hdeps : deps.WellFormed) (h : Invariant deps search)
    (hok : explore deps search = .ok result) :
    Invariant deps result ∧ result.stack = [] ∧
      ∀ node, node ∈ search.active ∨ node ∈ search.placed → node ∈ result.placed := by
  obtain ⟨hturns, hempty⟩ := turns_of_explore_ok hok
  refine ⟨h.turns hdeps hturns, hempty, fun node hnode => ?_⟩
  have hseen := seen_of_turns hturns hnode
  rw [active, hempty] at hseen
  exact hseen.resolve_left List.not_mem_nil

/-- Exploring to a failure gives a circle. -/
theorem Invariant.explore_error (hdeps : deps.WellFormed) (h : Invariant deps search)
    {path : List Nat} (herror : explore deps search = .error path) : deps.IsCircle path := by
  obtain ⟨last, top, below, hturns, hstack, hstep⟩ := turns_of_explore_error herror
  exact (h.turns hdeps hturns).isCircle hstack hstep

/-- Visiting a root from an empty stack places it and keeps what was placed. -/
theorem Invariant.visit_ok (hdeps : deps.WellFormed) (h : Invariant deps search)
    (hempty : search.stack = []) {root : Nat} (hroot : root < deps.size)
    (hok : visit deps search root = .ok result) :
    Invariant deps result ∧ result.stack = [] ∧ search.placed ⊆ result.placed ∧
      root ∈ result.placed := by
  rcases h.mark_cases hroot with ⟨hplaced, hmark⟩ | ⟨-, hactive, -⟩ | ⟨-, -, hmark⟩
  · rw [visit, hmark] at hok
    cases hok
    exact ⟨h, hempty, List.Subset.refl _, hplaced⟩
  -- no root is in progress while the stack is empty
  · rw [active, hempty] at hactive
    cases hactive
  · rw [visit, hmark] at hok
    obtain ⟨hresult, hstack, hplaced⟩ := (h.enter_root hempty hmark).explore_ok hdeps hok
    exact ⟨hresult, hstack, fun node hnode => hplaced node (Or.inr hnode),
      hplaced root (Or.inl List.mem_cons_self)⟩

/-- Visiting a root from an empty stack fails only with a circle. -/
theorem Invariant.visit_error (hdeps : deps.WellFormed) (h : Invariant deps search)
    (hempty : search.stack = []) {root : Nat} {path : List Nat}
    (herror : visit deps search root = .error path) : deps.IsCircle path := by
  cases hmark : search.mark root with
  | unvisited =>
      rw [visit, hmark] at herror
      exact (h.enter_root hempty hmark).explore_error hdeps herror
  | inProgress =>
      rw [visit, hmark] at herror
      cases herror
  | done =>
      rw [visit, hmark] at herror
      cases herror

/-- Visiting roots one after the other places all of them. -/
theorem Invariant.visits_ok (hdeps : deps.WellFormed) {roots : List Nat}
    (hroots : ∀ root ∈ roots, root < deps.size) (h : Invariant deps search)
    (hempty : search.stack = []) (hok : roots.foldlM (visit deps) search = .ok result) :
    Invariant deps result ∧ search.placed ⊆ result.placed ∧
      ∀ root ∈ roots, root ∈ result.placed := by
  induction roots generalizing search with
  | nil =>
      cases hok
      exact ⟨h, List.Subset.refl _, by simp⟩
  | cons root rest ih =>
      rw [List.foldlM_cons] at hok
      cases hvisit : visit deps search root with
      | error path =>
          rw [hvisit] at hok
          cases hok
      | ok next =>
          rw [hvisit] at hok
          obtain ⟨hnext, hstack, hkept, hplaced⟩ :=
            h.visit_ok hdeps hempty (hroots root List.mem_cons_self) hvisit
          obtain ⟨hresult, hkept', hrest⟩ :=
            ih (fun other hother =>
              hroots other (List.mem_cons_of_mem root hother)) hnext hstack hok
          refine ⟨hresult, List.Subset.trans hkept hkept', ?_⟩
          -- what the first root placed is kept by the visits of the others
          intro other hother
          rcases List.mem_cons.mp hother with rfl | hother
          · exact hkept' hplaced
          · exact hrest other hother

/-- Visiting roots one after the other fails only with a circle. -/
theorem Invariant.visits_error (hdeps : deps.WellFormed) {roots : List Nat}
    (hroots : ∀ root ∈ roots, root < deps.size) (h : Invariant deps search)
    (hempty : search.stack = []) {path : List Nat}
    (herror : roots.foldlM (visit deps) search = .error path) : deps.IsCircle path := by
  induction roots generalizing search with
  | nil => cases herror
  | cons root rest ih =>
      rw [List.foldlM_cons] at herror
      cases hvisit : visit deps search root with
      | error path' =>
          rw [hvisit] at herror
          cases herror
          exact h.visit_error hdeps hempty hvisit
      | ok next =>
          rw [hvisit] at herror
          obtain ⟨hnext, hstack, -⟩ :=
            h.visit_ok hdeps hempty (hroots root List.mem_cons_self) hvisit
          exact ih (fun other hother => hroots other (List.mem_cons_of_mem root hother))
            hnext hstack herror

end Search

namespace Dependencies

variable {deps : Dependencies}

/-- An order is what the visits of all positions have placed. -/
theorem exists_visits_of_order {order : List Nat} (h : deps.order = .ok order) :
    ∃ result, (List.range deps.size).foldlM (Search.visit deps) (Search.start deps.size) =
      .ok result ∧ result.placed = order := by
  unfold Dependencies.order at h
  cases hvisits : (List.range deps.size).foldlM (Search.visit deps) (Search.start deps.size) with
  | error path =>
      rw [hvisits] at h
      cases h
  | ok result =>
      rw [hvisits] at h
      exact ⟨result, rfl, Except.ok.inj h⟩

/-- An order has every position once, and each after all that it depends on. -/
theorem order_ok (hdeps : deps.WellFormed) {order : List Nat} (h : deps.order = .ok order) :
    order.Perm (List.range deps.size) ∧ deps.Respects order := by
  obtain ⟨result, hvisits, rfl⟩ := exists_visits_of_order h
  obtain ⟨hresult, -, hroots⟩ := (Search.invariant_start deps).visits_ok hdeps
    (fun root hroot => List.mem_range.mp hroot) rfl hvisits
  refine ⟨?_, hresult.respects⟩
  -- two lists without repeats are permutations of each other as soon as they have the same members
  rw [List.perm_ext_iff_of_nodup hresult.placed_nodup List.nodup_range]
  intro node
  exact ⟨fun hnode => List.mem_range.mpr (hresult.placed_lt node hnode), hroots node⟩

/-- A search that fails gives a circle of positions. -/
theorem order_error (hdeps : deps.WellFormed) {path : List Nat} (h : deps.order = .error path) :
    deps.IsCircle path := by
  unfold Dependencies.order at h
  cases hfold : (List.range deps.size).foldlM (Search.visit deps) (Search.start deps.size) with
  | error path' =>
      rw [hfold] at h
      cases h
      exact (Search.invariant_start deps).visits_error hdeps
        (fun root hroot => List.mem_range.mp hroot) rfl hfold
  | ok result =>
      rw [hfold] at h
      cases h

end Dependencies

end TestFlow
