import Mathlib.Data.List.Basic
import Mathlib.Data.List.Induction

/-!
# Members by their first places

A list without its repeats has the same members, in the order of their first places.  What comes
behind can add a member that is new, and does nothing otherwise (`eraseDups_concat`,
`eraseDups_append_cons_of_mem`), and a map that keeps members apart changes nothing about repeats
(`eraseDups_map_of_injective`).

Reference: specification, §3 (the dependency graph has an ordered, de-duplicated list for each
node).
-/

namespace TestFlow

variable {α β : Type} [BEq α] [BEq β]

/-- A list has the members of another one, in the order of their first places there. -/
def IsFirsts (list firsts : List α) : Prop :=
  (∀ a, a ∈ firsts ↔ a ∈ list) ∧ firsts.Pairwise fun a b => list.idxOf a < list.idxOf b

/-- First places differ, so there are no repeats. -/
theorem IsFirsts.nodup {list firsts : List α} (h : IsFirsts list firsts) : firsts.Nodup := by
  refine h.2.imp ?_
  rintro a b hlt rfl
  exact Nat.lt_irrefl _ hlt

variable [LawfulBEq α] [LawfulBEq β]

/-- A member at the end is kept if it is new. -/
theorem eraseDups_concat (list : List α) (last : α) :
    (list ++ [last]).eraseDups =
      if last ∈ list then list.eraseDups else list.eraseDups ++ [last] := by
  rw [List.eraseDups_append]
  by_cases hmem : last ∈ list
  · simp [List.removeAll, hmem]
  · simp [List.removeAll, hmem, List.eraseDups_cons]

/-- A member that came before does not count where it comes again. -/
theorem eraseDups_append_cons_of_mem {front : List α} {a : α} (h : a ∈ front) (back : List α) :
    (front ++ a :: back).eraseDups = (front ++ back).eraseDups := by
  have hagain : (a :: back).removeAll front = back.removeAll front := by
    simp [List.removeAll, h]
  rw [List.eraseDups_append, List.eraseDups_append, hagain]

/-- Repeats are repeats after an injective map, and nothing else is. -/
theorem eraseDups_map_of_injective {f : α → β} (hf : Function.Injective f) (list : List α) :
    (list.map f).eraseDups = list.eraseDups.map f := by
  induction list using List.reverseRecOn with
  | nil => rfl
  | append_singleton list last ih =>
      have hmem : f last ∈ list.map f ↔ last ∈ list := List.mem_map_of_injective hf
      rw [List.map_append, List.map_singleton, eraseDups_concat, eraseDups_concat, ih]
      by_cases h : last ∈ list
      · rw [if_pos h, if_pos (hmem.mpr h)]
      · rw [if_neg h, if_neg (hmem.not.mpr h), List.map_append, List.map_singleton]

/-- What is left without repeats has the members in the order of their first places. -/
theorem isFirsts_eraseDups (list : List α) : IsFirsts list list.eraseDups := by
  refine ⟨fun a => List.mem_eraseDups, ?_⟩
  induction list using List.reverseRecOn with
  | nil => exact .nil
  | append_singleton list last ih =>
      -- What comes behind does not move the first places in front.
      have hfront : list.eraseDups.Pairwise fun a b =>
          (list ++ [last]).idxOf a < (list ++ [last]).idxOf b := by
        refine ih.imp_of_mem ?_
        intro a b ha hb hlt
        rwa [List.idxOf_append_of_mem (List.mem_eraseDups.mp ha),
          List.idxOf_append_of_mem (List.mem_eraseDups.mp hb)]
      rw [eraseDups_concat]
      split
      · exact hfront
      · rename_i hnew
        -- the last member has its first place behind those of all others
        refine List.pairwise_append.mpr ⟨hfront, List.pairwise_singleton _ _, ?_⟩
        intro a ha b hb
        obtain rfl : b = last := List.mem_singleton.mp hb
        have ha := List.mem_eraseDups.mp ha
        have hlt := List.idxOf_lt_length_of_mem ha
        rw [List.idxOf_append_of_mem ha, List.idxOf_append, if_neg hnew]
        omega

end TestFlow
