import TestFlow.Proofs.Order.Recursive

/-!
# Dependencies made of two parts

Two lots of positions may stand one behind the other with no dependency between them.  The search
goes through the first part as if it were alone.  It comes to the second part with all of the first
placed, and at positions that have moved; neither makes a difference, since nothing in the second
part leads back.  So it fails with the circle of the first part, or else with that of the second, or
else gives one order and then the other.

A part is told by where its positions are in the whole.  For the first part they are where they
were, for the second they have moved by the size of the first, and both cases are one
(`recursiveVisit_relocate`): whatever has been placed from elsewhere, a visit of a position that has
moved does what the visit of the position did before it moved.

Reference: specification, §4.1 (independent subgraphs keep the input order of their roots).

## Main definitions

* `Dependencies.Embeds` — the positions of one part have places of their own in a whole;
* `Dependencies.relocate` — what a search of a part comes to in the whole.

## Main statement

* `Dependencies.order_of_parts` — the order of a whole that is made of two parts.
-/

namespace TestFlow.Dependencies

/-- The positions of a part have places of their own in a whole, and depend there on the places of
what they depended on. -/
structure Embeds (part whole : Dependencies) (place : Nat → Nat) : Prop where
  injective : Function.Injective place
  of_place : ∀ node < part.size, whole.of (place node) = (part.of node).map place

/-- What a search of a part comes to in a whole where the nodes in front have been placed before. -/
def relocate (place : Nat → Nat) (front : List Nat) :
    Except (List Nat) (List Nat) → Except (List Nat) (List Nat)
  | .ok placed => .ok (front ++ placed.map place)
  | .error circle => .error (circle.map place)

/-- A part that is where it was and comes first searches as it did. -/
theorem relocate_id_nil (outcome : Except (List Nat) (List Nat)) :
    relocate id [] outcome = outcome := by
  rcases outcome with circle | placed
  · rw [relocate, List.map_id]
  · rw [relocate, List.map_id, List.nil_append]

/-- Visits that come to the same after moving do so one after the other. -/
theorem foldlM_relocate {place : Nat → Nat} {front : List Nat}
    {visit moved : List Nat → Nat → Except (List Nat) (List Nat)} {todo : List Nat}
    (h : ∀ node ∈ todo, ∀ placed,
      moved (front ++ placed.map place) (place node) = relocate place front (visit placed node))
    (placed : List Nat) :
    (todo.map place).foldlM moved (front ++ placed.map place) =
      relocate place front (todo.foldlM visit placed) := by
  induction todo generalizing placed with
  | nil => rfl
  | cons node todo ih =>
      obtain ⟨hnode, hrest⟩ := List.forall_mem_cons.mp h
      rw [List.map_cons, List.foldlM_cons, List.foldlM_cons, hnode]
      rcases visit placed node with circle | next
      · rfl
      · exact ih hrest next

variable {part whole : Dependencies} {place : Nat → Nat} {front : List Nat}

/-- The visit of a position that has moved comes to the same, whatever was placed from elsewhere. -/
theorem recursiveVisit_relocate (hpart : part.WellFormed) (hembeds : part.Embeds whole place)
    (hfront : ∀ node < part.size, place node ∉ front) (path placed : List Nat) {node : Nat}
    (hnode : node < part.size) :
    whole.recursiveVisit (path.map place) (front ++ placed.map place) (place node) =
      relocate place front (part.recursiveVisit path placed node) := by
  have hmem : ∀ {node : Nat} {list : List Nat}, place node ∈ list.map place ↔ node ∈ list :=
    List.mem_map_of_injective hembeds.injective
  -- the cases are those of the recursion: placed, on the path, or neither
  induction path, placed, node using recursiveVisit.induct part with
  | case1 path placed node hplaced =>
      have hplaced' : place node ∈ front ++ placed.map place :=
        List.mem_append_right front (hmem.mpr hplaced)
      rw [recursiveVisit, if_pos hplaced', recursiveVisit, if_pos hplaced]
      rfl
  | case2 path placed node hplaced hpath =>
      have hplaced' : place node ∉ front ++ placed.map place := by
        rw [List.mem_append, hmem]
        exact not_or.mpr ⟨hfront node hnode, hplaced⟩
      have hdrop : (path.map place).dropWhile (· != place node) =
          (path.dropWhile (· != node)).map place := by
        rw [List.dropWhile_map]
        congr 2
        funext other
        simp [hembeds.injective.eq_iff, bne]
      rw [recursiveVisit, if_neg hplaced', if_pos (hmem.mpr hpath), hdrop, recursiveVisit,
        if_neg hplaced, if_pos hpath, relocate, List.map_append]
      rfl
  | case3 path placed node hplaced hpath ih =>
      have hplaced' : place node ∉ front ++ placed.map place := by
        rw [List.mem_append, hmem]
        exact not_or.mpr ⟨hfront node hnode, hplaced⟩
      have hpath' : place node ∉ path.map place := fun h => hpath (hmem.mp h)
      -- what the node depends on has moved with it, and its visits are those of the recursion
      have hdeps : ((part.of node).map place).foldlM
            (whole.recursiveVisit (path.map place ++ [place node])) (front ++ placed.map place) =
          relocate place front
            ((part.of node).foldlM (part.recursiveVisit (path ++ [node])) placed) := by
        apply foldlM_relocate
        intro dep hdep placed
        have hvisit := ih placed ⟨dep, hdep⟩ (hpart.lt_size hdep)
        rwa [List.map_append] at hvisit
      rw [recursiveVisit_of_not_mem hplaced' hpath', hembeds.of_place node hnode, hdeps,
        recursiveVisit_of_not_mem hplaced hpath]
      rcases (part.of node).foldlM (part.recursiveVisit (path ++ [node])) placed with circle | next
      · rfl
      · simp [relocate, bind, Except.bind]

/-- Visits of roots that have moved come to the same, whatever was placed from elsewhere. -/
theorem foldlM_recursiveVisit_relocate (hpart : part.WellFormed)
    (hembeds : part.Embeds whole place) (hfront : ∀ node < part.size, place node ∉ front) :
    ((List.range part.size).map place).foldlM (whole.recursiveVisit []) front =
      relocate place front part.recursiveOrder := by
  have hvisits : ((List.range part.size).map place).foldlM (whole.recursiveVisit [])
      (front ++ [].map place) = relocate place front part.recursiveOrder := by
    apply foldlM_relocate
    intro node hnode placed
    exact recursiveVisit_relocate hpart hembeds hfront [] placed (List.mem_range.mp hnode)
  rwa [List.map_nil, List.append_nil] at hvisits

/-- A whole that is made of two parts, one behind the other, fails with the circle of the first
part, or with that of the second, or gives the order of the first and then that of the second. -/
theorem order_of_parts {first second : Dependencies} (hfirst : first.WellFormed)
    (hsecond : second.WellFormed) (hwhole : whole.WellFormed)
    (hsize : whole.size = first.size + second.size) (hleft : first.Embeds whole id)
    (hright : second.Embeds whole (first.size + ·)) :
    whole.order = first.order >>= fun front => relocate (first.size + ·) front second.order := by
  have hvisitFirst :
      (List.range first.size).foldlM (whole.recursiveVisit []) [] = first.recursiveOrder := by
    have hvisits := foldlM_recursiveVisit_relocate hfirst hleft fun _ _ => List.not_mem_nil
    rwa [List.map_id, relocate_id_nil] at hvisits
  rw [order_eq_recursiveOrder hwhole, order_eq_recursiveOrder hsecond, recursiveOrder, hsize,
    List.range_add, List.foldlM_append, hvisitFirst, ← order_eq_recursiveOrder hfirst]
  rcases horder : first.order with circle | front
  · rfl
  · -- the first part has been placed, and the second has no place in it
    apply foldlM_recursiveVisit_relocate hsecond hright
    intro node _ hmem
    have hlt := List.mem_range.mp ((order_ok hfirst horder).1.mem_iff.mp hmem)
    omega

end TestFlow.Dependencies
