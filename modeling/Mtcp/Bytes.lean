import Mathlib.Tactic

namespace Mtcp.Bytes

open List

variable {α : Type}

/-- Overwrite a block of memory from an offset on. A write that leaves the block
shows as a change of its length. -/
def memcpy (block : List α) (off : Nat) (src : List α) : List α :=
  block.take off ++ src ++ block.drop (off + src.length)

def slice (block : List α) (off len : Nat) : List α := (block.drop off).take len

def memmove (block : List α) (dst src len : Nat) : List α :=
  memcpy block dst (slice block src len)

variable (block : List α) (off : Nat)

theorem length_memcpy (src : List α) (h : off + src.length ≤ block.length) :
    (memcpy block off src).length = block.length := by
  simp only [memcpy, length_append, length_take, length_drop]
  omega

theorem length_slice (off len : Nat) (h : off + len ≤ block.length) :
    (slice block off len).length = len := by
  simp only [slice, length_take, length_drop]
  omega

theorem slice_memcpy_append (off len : Nat) (src : List α)
    (h : off + len + src.length ≤ block.length) :
    slice (memcpy block (off + len) src) off (len + src.length) = slice block off len ++ src := by
  have htake : (block.take (off + len)).drop off = slice block off len := by
    rw [slice, drop_take]
    congr 1
    omega
  have hlen : (block.take (off + len)).length = off + len := by
    rw [length_take]
    omega
  rw [slice, memcpy, append_assoc, drop_append_of_le_length (by omega), htake, ← append_assoc]
  have hpre : (slice block off len ++ src).length = len + src.length := by
    rw [length_append, length_slice block off len (by omega)]
  rw [take_append_of_le_length (by omega), ← hpre, take_length]

theorem length_memmove (dst src len : Nat) (hs : src + len ≤ block.length)
    (hd : dst + len ≤ block.length) : (memmove block dst src len).length = block.length := by
  rw [memmove, length_memcpy]
  rw [length_slice block src len hs]
  exact hd

theorem slice_memmove (src len : Nat) (h : src + len ≤ block.length) :
    slice (memmove block 0 src len) 0 len = slice block src len := by
  have hlen := length_slice block src len h
  have happ := slice_memcpy_append block 0 0 (slice block src len) (by omega)
  rw [hlen] at happ
  simpa [memmove, slice] using happ

theorem drop_slice (off len n : Nat) :
    (slice block off len).drop n = slice block (off + n) (len - n) := by
  rw [slice, slice, drop_take, drop_drop]

theorem slice_slice (off len a b : Nat) (h : a + b ≤ len) :
    slice (slice block off len) a b = slice block (off + a) b := by
  rw [slice, drop_slice, slice, take_take]
  congr 1
  omega

theorem getElem?_memcpy (block src : List α) {off : Nat} (i : Nat) (h : off ≤ block.length) :
    (memcpy block off src)[i]? =
      if off ≤ i ∧ i < off + src.length then src[i - off]? else block[i]? := by
  have hpre : (block.take off).length = off := by
    rw [length_take]
    omega
  rw [memcpy, append_assoc]
  by_cases hlow : i < off
  · rw [if_neg (by omega), getElem?_append_left (by omega), getElem?_take_of_lt hlow]
  · rw [getElem?_append_right (by omega), hpre]
    by_cases hmid : i < off + src.length
    · rw [if_pos ⟨by omega, hmid⟩, getElem?_append_left (by omega)]
    · rw [if_neg (by omega), getElem?_append_right (by omega), getElem?_drop]
      congr 1
      omega

theorem getElem?_slice {len i : Nat} (h : i < len) :
    (slice block off len)[i]? = block[off + i]? := by
  rw [slice, getElem?_take_of_lt h, getElem?_drop]

theorem getElem?_slice_of_le {len i : Nat} (h : len ≤ i) : (slice block off len)[i]? = none := by
  rw [slice, getElem?_take, if_neg (by omega)]

theorem slice_congr {block block' : List α} {off off' len : Nat}
    (h : ∀ i < len, block[off + i]? = block'[off' + i]?) :
    slice block off len = slice block' off' len := by
  apply ext_getElem?
  intro i
  by_cases hi : i < len
  · rw [getElem?_slice _ _ hi, getElem?_slice _ _ hi, h i hi]
  · rw [getElem?_slice_of_le _ _ (not_lt.mp hi), getElem?_slice_of_le _ _ (not_lt.mp hi)]

theorem slice_prefix {len len' : Nat} (h : len ≤ len') :
    slice block off len <+: slice block off len' := by
  rw [slice, slice, ← min_eq_left h, ← take_take]
  exact take_prefix _ _

theorem slice_append {n len : Nat} (h : n ≤ len) :
    slice block off n ++ slice block (off + n) (len - n) = slice block off len := by
  rw [← drop_slice, slice, slice]
  nth_rewrite 1 [← min_eq_left h]
  rw [← take_take, take_append_drop]

theorem getElem?_memmove (src len : Nat) {i : Nat} (hi : i < len) (h : src + len ≤ block.length) :
    (memmove block 0 src len)[i]? = block[src + i]? := by
  rw [memmove, getElem?_memcpy _ _ _ (Nat.zero_le _), length_slice _ _ _ h, if_pos (by omega),
    Nat.sub_zero, getElem?_slice _ _ hi]

end Mtcp.Bytes
