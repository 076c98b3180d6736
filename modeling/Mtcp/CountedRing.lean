import Mtcp.Bytes

namespace Mtcp.CountedRing

open Bytes List

variable {β : Type} {cells : List β} {start count : Nat} {x : β} {xs : List β}

def pos (size start i : Nat) : Nat := (start + i) % size

/-- One step on, with the wrap written as a comparison. -/
def next (size i : Nat) : Nat := if size ≤ i + 1 then 0 else i + 1

/-- A ring in which every cell can be used; the number of used cells is kept beside it. -/
structure Holds (cells : List β) (start count : Nat) (xs : List β) : Prop where
  start_lt : start < cells.length
  count_eq : count = xs.length
  length_le : xs.length ≤ cells.length
  cell : ∀ i < xs.length, cells[pos cells.length start i]? = xs[i]?

theorem pos_eq {size i : Nat} (hs : start < size) (hi : i ≤ size) :
    pos size start i = if start + i < size then start + i else start + i - size := by
  unfold pos
  split
  · exact Nat.mod_eq_of_lt (by omega)
  · rw [Nat.mod_eq_sub_mod (by omega), Nat.mod_eq_of_lt (by omega)]

theorem next_lt {size i : Nat} (hi : i < size) : next size i < size := by
  unfold next
  split <;> omega

theorem pos_next {size i : Nat} (hs : start < size) (hi : i + 1 ≤ size) :
    pos size (next size start) i = pos size start (i + 1) := by
  rw [pos_eq (next_lt hs) (by omega), pos_eq hs hi]
  unfold next
  split_ifs <;> omega

theorem next_pos {size i : Nat} (hs : start < size) (hi : i < size) :
    next size (pos size start i) = pos size start (i + 1) := by
  rw [pos_eq hs (by omega), pos_eq hs (by omega)]
  unfold next
  split_ifs <;> omega

theorem pos_injective {size i j : Nat} (hs : start < size) (hi : i < size) (hj : j < size)
    (h : pos size start i = pos size start j) : i = j := by
  rw [pos_eq hs (by omega), pos_eq hs (by omega)] at h
  split_ifs at h <;> omega

theorem pos_pos (size start i k : Nat) :
    pos size (pos size start i) k = pos size start (i + k) := by
  rw [pos, pos, pos, Nat.mod_add_mod, Nat.add_assoc]

theorem pos_add_size (size start i : Nat) : pos size start (i + size) = pos size start i := by
  rw [pos, ← Nat.add_assoc, Nat.add_mod_right, pos]

/-! Blocks of cells, in two pieces where they cross the end. -/

def advance (size i n : Nat) : Nat := if i + n < size then i + n else n - (size - i)

def readBlock (cells : List β) (i n : Nat) : List β :=
  if i + n < cells.length then slice cells i n
  else slice cells i (cells.length - i) ++ slice cells 0 (n - (cells.length - i))

def writeBlock (cells : List β) (i : Nat) (ys : List β) : List β :=
  if i + ys.length < cells.length then memcpy cells i ys
  else memcpy (memcpy cells i (ys.take (cells.length - i))) 0 (ys.drop (cells.length - i))

theorem advance_eq {size i n : Nat} (hi : i < size) (hn : n ≤ size) :
    advance size i n = pos size i n := by
  rw [pos_eq hi hn, advance]
  split_ifs <;> omega

theorem length_readBlock {i n : Nat} (hi : i < cells.length) (hn : n ≤ cells.length) :
    (readBlock cells i n).length = n := by
  rw [readBlock]
  split
  · exact length_slice _ _ _ (by omega)
  · rw [length_append, length_slice _ _ _ (by omega), length_slice _ _ _ (by omega)]
    omega

theorem getElem?_readBlock {i n k : Nat} (hi : i < cells.length) (hn : n ≤ cells.length)
    (hk : k < n) : (readBlock cells i n)[k]? = cells[pos cells.length i k]? := by
  rw [pos_eq hi (by omega), readBlock]
  split
  · rw [if_pos (by omega), getElem?_slice _ _ hk]
  · have hlen := length_slice cells i (cells.length - i) (by omega)
    by_cases hlow : i + k < cells.length
    · rw [if_pos hlow, getElem?_append_left (by omega), getElem?_slice _ _ (by omega)]
    · rw [if_neg hlow, getElem?_append_right (by omega), hlen, getElem?_slice _ _ (by omega)]
      congr 1
      omega

theorem length_writeBlock {i : Nat} {ys : List β} (hi : i < cells.length)
    (hy : ys.length ≤ cells.length) : (writeBlock cells i ys).length = cells.length := by
  rw [writeBlock]
  split
  · exact length_memcpy _ _ _ (by omega)
  · have hin := length_memcpy cells i (ys.take (cells.length - i)) (by simp; omega)
    rw [length_memcpy _ _ _ (by rw [hin, length_drop]; omega), hin]

theorem getElem?_writeBlock {i k : Nat} {ys : List β} (hi : i < cells.length)
    (hy : ys.length ≤ cells.length) (hk : k < cells.length) :
    (writeBlock cells i ys)[pos cells.length i k]? =
      if k < ys.length then ys[k]? else cells[pos cells.length i k]? := by
  rw [pos_eq hi hk.le, writeBlock]
  have hback : i + k - i = k := by omega
  split
  · rw [getElem?_memcpy _ _ _ hi.le]
    by_cases hlow : i + k < cells.length
    · rw [if_pos hlow, hback]
      by_cases hin : k < ys.length
      · rw [if_pos ⟨by omega, by omega⟩, if_pos hin]
      · rw [if_neg (by omega), if_neg hin]
    · rw [if_neg hlow, if_neg (by omega), if_neg (by omega)]
  · rw [getElem?_memcpy _ _ _ (Nat.zero_le _), getElem?_memcpy _ _ _ hi.le, length_drop,
      length_take, getElem?_drop]
    by_cases hlow : i + k < cells.length
    · rw [if_pos hlow, if_neg (by omega), if_pos (by omega), if_pos (by omega), hback,
        getElem?_take_of_lt (by omega)]
    · rw [if_neg hlow]
      by_cases hin : k < ys.length
      · rw [if_pos (by omega), if_pos hin]
        congr 1
        omega
      · rw [if_neg (by omega), if_neg (by omega), if_neg hin]

theorem holds_empty (h : 0 < cells.length) : Holds cells 0 0 [] := ⟨h, rfl, Nat.zero_le _, by simp⟩

namespace Holds

theorem count_le (h : Holds cells start count xs) : count ≤ cells.length :=
  h.count_eq.symm ▸ h.length_le

theorem push (h : Holds cells start count xs) (x : β) (hroom : count < cells.length) :
    Holds (cells.set (pos cells.length start count) x) start (count + 1) (xs ++ [x]) where
  start_lt := by
    rw [length_set]
    exact h.start_lt
  count_eq := by
    rw [length_append, length_singleton, h.count_eq]
  length_le := by
    rw [length_append, length_singleton, length_set, ← h.count_eq]
    exact hroom
  cell := by
    intro i hi
    rw [length_append, length_singleton, ← h.count_eq] at hi
    rw [length_set]
    obtain hlt | heq := Nat.lt_succ_iff_lt_or_eq.mp hi
    · have hne : pos cells.length start count ≠ pos cells.length start i := by
        intro hpos
        have := pos_injective h.start_lt hroom (by omega) hpos
        omega
      rw [getElem?_set_ne hne, getElem?_append_left (h.count_eq ▸ hlt)]
      exact h.cell i (h.count_eq ▸ hlt)
    · have hpos : pos cells.length start count < cells.length :=
        Nat.mod_lt _ (Nat.lt_of_le_of_lt (Nat.zero_le _) h.start_lt)
      rw [heq, getElem?_set_self hpos, h.count_eq]
      simp

theorem front (h : Holds cells start count (x :: xs)) : cells[start]? = some x := by
  have hcell := h.cell 0 (Nat.succ_pos _)
  rw [pos_eq h.start_lt (Nat.zero_le _), Nat.add_zero, if_pos h.start_lt] at hcell
  exact hcell

theorem pop (h : Holds cells start count (x :: xs)) :
    Holds cells (next cells.length start) (count - 1) xs where
  start_lt := next_lt h.start_lt
  count_eq := by
    rw [h.count_eq, length_cons, Nat.add_sub_cancel]
  length_le := Nat.le_of_succ_le h.length_le
  cell := by
    intro i hi
    have hlen := h.length_le
    rw [length_cons] at hlen
    rw [pos_next h.start_lt (by omega)]
    exact h.cell (i + 1) (Nat.succ_lt_succ hi)

theorem readBlock_eq (h : Holds cells start count xs) {n : Nat} (hn : n ≤ count) :
    readBlock cells start n = xs.take n := by
  have hlen := length_readBlock h.start_lt (hn.trans h.count_le)
  apply ext_getElem?
  intro k
  by_cases hk : k < n
  · rw [getElem?_readBlock h.start_lt (hn.trans h.count_le) hk, getElem?_take_of_lt hk]
    exact h.cell k (by rw [← h.count_eq]; omega)
  · rw [getElem?_eq_none (by omega), getElem?_eq_none (by rw [length_take]; omega)]

theorem popBlock (h : Holds cells start count xs) {n : Nat} (hn : n ≤ count) :
    Holds cells (advance cells.length start n) (count - n) (xs.drop n) where
  start_lt := by
    rw [advance_eq h.start_lt (hn.trans h.count_le)]
    exact Nat.mod_lt _ (Nat.zero_lt_of_lt h.start_lt)
  count_eq := by rw [length_drop, h.count_eq]
  length_le := by
    have hle := h.length_le
    rw [length_drop]
    omega
  cell := by
    intro i hi
    rw [length_drop] at hi
    rw [advance_eq h.start_lt (hn.trans h.count_le), pos_pos, getElem?_drop]
    exact h.cell (n + i) (by omega)

theorem pushBlock (h : Holds cells start count xs) {ys : List β}
    (hroom : count + ys.length ≤ cells.length) :
    Holds (writeBlock cells (pos cells.length start count) ys) start (count + ys.length)
      (xs ++ ys) := by
  have hpos : pos cells.length start count < cells.length :=
    Nat.mod_lt _ (Nat.zero_lt_of_lt h.start_lt)
  have hlen := @length_writeBlock β cells _ ys hpos (by omega)
  refine ⟨hlen.symm ▸ h.start_lt, ?_, ?_, fun i hi => ?_⟩
  · rw [length_append, h.count_eq]
  · rw [length_append, hlen, ← h.count_eq]
    exact hroom
  · rw [length_append, ← h.count_eq] at hi
    rw [hlen]
    by_cases hold : i < count
    · -- an old element is as far behind the new block as the block is long, once around
      have hround : pos cells.length start i =
          pos cells.length (pos cells.length start count) (i + cells.length - count) := by
        rw [pos_pos, Nat.add_sub_cancel' (by omega), pos_add_size]
      rw [hround, getElem?_writeBlock hpos (by omega) (by omega), if_neg (by omega), ← hround,
        getElem?_append_left (h.count_eq ▸ hold)]
      exact h.cell i (h.count_eq ▸ hold)
    · have hnew : pos cells.length start i =
          pos cells.length (pos cells.length start count) (i - count) := by
        rw [pos_pos, Nat.add_sub_cancel' (by omega)]
      rw [hnew, getElem?_writeBlock hpos (by omega) (by omega), if_pos (by omega),
        getElem?_append_right (by rw [← h.count_eq]; omega), h.count_eq]

end Holds

end Mtcp.CountedRing
