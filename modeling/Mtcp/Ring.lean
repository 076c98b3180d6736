import Mathlib.Data.List.Basic
import Mathlib.Data.Nat.Basic

namespace Mtcp.Ring

open List

variable {β : Type} {cells : List β} {cap head tail : Nat} {x : β} {xs : List β}

/-- The place `i` steps after `head` on a ring of `cap + 1` cells. -/
def pos (cap head i : Nat) : Nat := (head + i) % (cap + 1)

def next (cap i : Nat) : Nat := if i ≠ cap then i + 1 else 0

def between (cells : List β) (cap head tail : Nat) : List β :=
  (List.range ((tail + (cap + 1) - head) % (cap + 1))).filterMap fun i => cells[pos cap head i]?

/-- The ring holds the queue `xs`. One cell always stays free. -/
structure Holds (cells : List β) (cap head tail : Nat) (xs : List β) : Prop where
  cells_length : cells.length = cap + 1
  head_le : head ≤ cap
  length_le : xs.length ≤ cap
  tail_eq : tail = pos cap head xs.length
  cell : ∀ i < xs.length, cells[pos cap head i]? = xs[i]?

theorem pos_eq {i : Nat} (hh : head ≤ cap) (hi : i ≤ cap) :
    pos cap head i = if head + i ≤ cap then head + i else head + i - (cap + 1) := by
  unfold pos
  split
  · exact Nat.mod_eq_of_lt (by omega)
  · rw [Nat.mod_eq_sub_mod (by omega), Nat.mod_eq_of_lt (by omega)]

theorem next_le {i : Nat} (hi : i ≤ cap) : next cap i ≤ cap := by
  unfold next
  split <;> omega

theorem pos_next {i : Nat} (hh : head ≤ cap) (hi : i + 1 ≤ cap) :
    pos cap (next cap head) i = pos cap head (i + 1) := by
  rw [pos_eq (next_le hh) (by omega), pos_eq hh hi]
  unfold next
  split_ifs <;> omega

theorem next_pos {i : Nat} (hh : head ≤ cap) (hi : i + 1 ≤ cap) :
    next cap (pos cap head i) = pos cap head (i + 1) := by
  rw [pos_eq hh (by omega), pos_eq hh hi]
  unfold next
  split_ifs <;> omega

theorem pos_injective {i j : Nat} (hh : head ≤ cap) (hi : i ≤ cap) (hj : j ≤ cap)
    (h : pos cap head i = pos cap head j) : i = j := by
  rw [pos_eq hh hi, pos_eq hh hj] at h
  split_ifs at h <;> omega

theorem holds_empty (h : cells.length = cap + 1) : Holds cells cap 0 0 [] :=
  ⟨h, Nat.zero_le _, Nat.zero_le _, by simp [pos], by simp⟩

theorem filterMap_range (xs : List β) : (range xs.length).filterMap (fun i => xs[i]?) = xs := by
  induction xs with
  | nil => rfl
  | cons x xs ih =>
    rw [length_cons, range_succ_eq_map, filterMap_cons, filterMap_map]
    exact congrArg (x :: ·) ih

namespace Holds

section

variable (h : Holds cells cap head tail xs)

include h

theorem empty_iff : head = tail ↔ xs = [] := by
  have hpos := pos_eq h.head_le h.length_le
  have htail := h.tail_eq
  have hhead := h.head_le
  have hlen := h.length_le
  rw [← length_eq_zero_iff, htail, hpos]
  split <;> omega

theorem next_tail_ne_iff : next cap tail ≠ head ↔ xs.length < cap := by
  have hpos := pos_eq h.head_le h.length_le
  have htail := h.tail_eq
  have hhead := h.head_le
  have hlen := h.length_le
  rw [htail, hpos]
  unfold next
  split_ifs <;> omega

theorem tail_lt : tail < cells.length := by
  rw [h.tail_eq, h.cells_length]
  exact Nat.mod_lt _ (Nat.succ_pos cap)

theorem fill (x : β) :
    Holds (cells.set tail x) cap head tail xs where
  cells_length := length_set.trans h.cells_length
  head_le := h.head_le
  length_le := h.length_le
  tail_eq := h.tail_eq
  cell := by
    intro i hi
    have hlen := h.length_le
    have hne : tail ≠ pos cap head i := by
      intro heq
      have := pos_injective h.head_le hlen (by omega) (h.tail_eq.symm.trans heq)
      omega
    rw [getElem?_set_ne hne]
    exact h.cell i hi

theorem push (hx : cells[tail]? = some x)
    (hroom : xs.length < cap) : Holds cells cap head (next cap tail) (xs ++ [x]) where
  cells_length := h.cells_length
  head_le := h.head_le
  length_le := by
    rw [length_append, length_singleton]
    exact hroom
  tail_eq := by
    rw [h.tail_eq, next_pos h.head_le hroom, length_append, length_singleton]
  cell := by
    intro i hi
    rw [length_append, length_singleton] at hi
    obtain hlt | heq := Nat.lt_succ_iff_lt_or_eq.mp hi
    · rw [getElem?_append_left hlt]
      exact h.cell i hlt
    · subst heq
      rw [← h.tail_eq, hx]
      simp

end

theorem front (h : Holds cells cap head tail (x :: xs)) : cells[head]? = some x := by
  have hcell := h.cell 0 (Nat.succ_pos _)
  rw [pos_eq h.head_le (Nat.zero_le _), Nat.add_zero, if_pos h.head_le] at hcell
  exact hcell

theorem pop (h : Holds cells cap head tail (x :: xs)) :
    Holds cells cap (next cap head) tail xs where
  cells_length := h.cells_length
  head_le := next_le h.head_le
  length_le := Nat.le_of_succ_le h.length_le
  tail_eq := h.tail_eq.trans (pos_next h.head_le h.length_le).symm
  cell := by
    intro i hi
    have hlen := h.length_le
    rw [length_cons] at hlen
    rw [pos_next h.head_le (by omega)]
    exact h.cell (i + 1) (Nat.succ_lt_succ hi)

theorem between_eq (h : Holds cells cap head tail xs) : between cells cap head tail = xs := by
  have hsize : (tail + (cap + 1) - head) % (cap + 1) = xs.length := by
    have hpos := pos_eq h.head_le h.length_le
    have hhead := h.head_le
    have hlen := h.length_le
    rw [h.tail_eq, hpos]
    split
    · rw [Nat.mod_eq_sub_mod (by omega), Nat.mod_eq_of_lt (by omega)]
      omega
    · rw [Nat.mod_eq_of_lt (by omega)]
      omega
  unfold between
  rw [hsize]
  have hcells : ∀ i ∈ range xs.length, cells[pos cap head i]? = xs[i]? :=
    fun i hi => h.cell i (mem_range.mp hi)
  exact (filterMap_congr hcells).trans (filterMap_range xs)

end Holds

end Mtcp.Ring
