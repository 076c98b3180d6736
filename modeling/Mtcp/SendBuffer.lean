import Mtcp.Bytes

namespace Mtcp

open Bytes

/-- `struct tcp_send_buffer`. Pointers into `data` are offsets, and a chunk fresh from
the pool holds whatever bytes were there before. -/
structure TcpSendBuffer where
  data : List UInt8
  head : Nat
  headOff : Nat
  tailOff : Nat
  len : Nat
  cumLen : UInt64
  size : Nat
  headSeq : UInt32
  initSeq : UInt32
  deriving DecidableEq, Repr

namespace SendBuffer

def sbInit (junk : Nat → UInt8) (chunkSize : Nat) (initSeq : UInt32) : TcpSendBuffer where
  data := (List.range chunkSize).map junk
  head := 0
  headOff := 0
  tailOff := 0
  len := 0
  cumLen := 0
  size := chunkSize
  headSeq := initSeq
  initSeq := initSeq

def sbPut (buf : TcpSendBuffer) (bytes : List UInt8) : Int × TcpSendBuffer :=
  if bytes.length = 0 then (0, buf) else
  let toPut := min bytes.length (buf.size - buf.len)
  if toPut = 0 then (-2, buf) else
  if buf.tailOff + toPut < buf.size then
    (toPut, { buf with
      data := memcpy buf.data buf.tailOff (bytes.take toPut)
      tailOff := buf.tailOff + toPut
      len := buf.len + toPut
      cumLen := buf.cumLen + UInt64.ofNat toPut })
  else
    (toPut, { buf with
      data := memcpy (memmove buf.data 0 buf.head buf.len) buf.len (bytes.take toPut)
      head := 0
      headOff := 0
      tailOff := buf.len + toPut
      len := buf.len + toPut
      cumLen := buf.cumLen + UInt64.ofNat toPut })

def sbRemove (buf : TcpSendBuffer) (len : Nat) : Int × TcpSendBuffer :=
  if len = 0 then (0, buf) else
  let toRemove := min len buf.len
  if toRemove = 0 then (-2, buf) else
  let buf := { buf with
    headOff := buf.headOff + toRemove
    head := buf.headOff + toRemove
    headSeq := buf.headSeq + UInt32.ofNat toRemove
    len := buf.len - toRemove }
  if buf.len = 0 ∧ 0 < buf.headOff then
    (toRemove, { buf with head := 0, headOff := 0, tailOff := 0 })
  else
    (toRemove, buf)

structure Wf (buf : TcpSendBuffer) : Prop where
  head : buf.head = buf.headOff
  tail : buf.tailOff = buf.headOff + buf.len
  bound : buf.tailOff ≤ buf.size
  data : buf.data.length = buf.size

def contents (buf : TcpSendBuffer) : List UInt8 := slice buf.data buf.head buf.len

theorem Wf.len_le {buf : TcpSendBuffer} (h : Wf buf) : buf.len ≤ buf.size := by
  have h1 := h.tail
  have h2 := h.bound
  omega

theorem length_contents {buf : TcpSendBuffer} (h : Wf buf) : (contents buf).length = buf.len := by
  have h1 := h.tail
  have h2 := h.bound
  apply length_slice
  rw [h.data, h.head]
  omega

theorem wf_sbInit (junk : Nat → UInt8) (size : Nat) (seq : UInt32) : Wf (sbInit junk size seq) where
  head := rfl
  tail := rfl
  bound := Nat.zero_le _
  data := by simp [sbInit]

theorem sbPut_spec {buf : TcpSendBuffer} {bytes : List UInt8} (hw : Wf buf) (hne : bytes ≠ [])
    (h : (sbPut buf bytes).1 = bytes.length) :
    Wf (sbPut buf bytes).2 ∧ contents (sbPut buf bytes).2 = contents buf ++ bytes ∧
      (sbPut buf bytes).2.len = buf.len + bytes.length ∧
      (sbPut buf bytes).2.size = buf.size ∧ (sbPut buf bytes).2.headSeq = buf.headSeq ∧
      buf.len + bytes.length ≤ buf.size := by
  have hpos : 0 < bytes.length := List.length_pos_of_ne_nil hne
  have h1 := hw.head
  have h2 := hw.tail
  have h3 := hw.bound
  have h4 := hw.data
  unfold sbPut at h ⊢
  rw [if_neg (by omega)] at h ⊢
  dsimp only at h ⊢
  split at h
  · omega
  · next hroom =>
    have hput : min bytes.length (buf.size - buf.len) = bytes.length := by
      split at h <;> (dsimp only at h; omega)
    rw [hput, if_neg (by omega), List.take_length]
    split
    · next hfit =>
      have hc := slice_memcpy_append buf.data buf.head buf.len bytes (by omega)
      refine ⟨⟨h1, by simp only; omega, by simp only; omega, ?_⟩, ?_, rfl, rfl, rfl, by omega⟩
      · rw [length_memcpy _ _ _ (by omega), h4]
      · have htail : buf.tailOff = buf.head + buf.len := by omega
        simp only [contents, htail]
        exact hc
    · have hlen := length_memmove buf.data 0 buf.head buf.len (by omega) (by omega)
      have hc := slice_memcpy_append (memmove buf.data 0 buf.head buf.len) 0 buf.len bytes
        (by omega)
      rw [Nat.zero_add] at hc
      refine ⟨⟨rfl, by simp, by simp only; omega, ?_⟩, ?_, rfl, rfl, rfl, by omega⟩
      · rw [length_memcpy _ _ _ (by omega), hlen, h4]
      · simp only [contents]
        rw [hc, slice_memmove _ _ _ (by omega)]

theorem sbPut_whole {buf : TcpSendBuffer} {bytes : List UInt8} (hne : bytes ≠ [])
    (hfit : bytes.length ≤ buf.size - buf.len) : (sbPut buf bytes).1 = bytes.length ∧
      (sbPut buf bytes).2.cumLen = buf.cumLen + UInt64.ofNat bytes.length := by
  have hpos : 0 < bytes.length := List.length_pos_of_ne_nil hne
  unfold sbPut
  rw [if_neg (by omega)]
  rw [min_eq_left hfit, if_neg (by omega)]
  split
  · exact ⟨rfl, rfl⟩
  · exact ⟨rfl, rfl⟩

theorem sbRemove_spec {buf : TcpSendBuffer} {n : Nat} (hw : Wf buf) (hn : n ≤ buf.len) :
    Wf (sbRemove buf n).2 ∧ contents (sbRemove buf n).2 = (contents buf).drop n ∧
      (sbRemove buf n).2.len = buf.len - n ∧ (sbRemove buf n).2.size = buf.size ∧
      (sbRemove buf n).2.headSeq = buf.headSeq + UInt32.ofNat n := by
  have h1 := hw.head
  have h2 := hw.tail
  have h3 := hw.bound
  have h4 := hw.data
  have hmin : min n buf.len = n := by omega
  unfold sbRemove
  split
  · next h0 =>
    subst h0
    exact ⟨hw, by simp, by simp, rfl, by simp⟩
  · rw [hmin, if_neg (by assumption)]
    dsimp only
    have hc : (contents buf).drop n = slice buf.data (buf.headOff + n) (buf.len - n) := by
      rw [contents, drop_slice, h1]
    split
    · next hempty =>
      refine ⟨⟨rfl, by simp only; omega, by simp only; omega, h4⟩, ?_, rfl, rfl, rfl⟩
      rw [hc]
      simp only [contents, hempty.1, slice, List.take_zero]
    · refine ⟨⟨rfl, by simp only; omega, h3, h4⟩, ?_, rfl, rfl, rfl⟩
      rw [hc]
      rfl

theorem sbRemove_min (buf : TcpSendBuffer) (n : Nat) :
    (sbRemove buf n).2 = (sbRemove buf (min n buf.len)).2 := by
  unfold sbRemove
  by_cases hn : n = 0
  · rw [if_pos hn, hn, Nat.zero_min, if_pos rfl]
  · rw [if_neg hn]
    by_cases hmin : min n buf.len = 0
    · rw [if_pos hmin, if_pos hmin]
    · rw [if_neg hmin, if_neg hmin, min_eq_left (Nat.min_le_right n buf.len), if_neg hmin]

theorem sbRemove_cumLen (buf : TcpSendBuffer) (n : Nat) :
    (sbRemove buf n).2.cumLen = buf.cumLen := by
  unfold sbRemove
  dsimp only
  split_ifs <;> rfl

theorem sbRemove_of_empty {buf : TcpSendBuffer} (n : Nat) (h : buf.len = 0) :
    (sbRemove buf n).2 = buf := by
  unfold sbRemove
  split
  · rfl
  · rw [h, Nat.min_zero]
    rfl

end SendBuffer

end Mtcp
