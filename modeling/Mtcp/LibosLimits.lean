import Mtcp.LibosFraming

namespace Mtcp.Libos

open LittleEndian List

variable {sga : Sga} {s t u : Sender}

/-! A push that does not fit. -/

/-- The frame is sent and its payload counted, or nothing is sent and the caller is told; and no
error of `mtcp_write` is taken for success. -/
def AllOrNothing (sga : Sga) (s : Sender) : Prop :=
  ((libosMtcpPush sga s).2.sent = s.sent ++ frame sga ∧
      (libosMtcpPush sga s).1 = (sga.map List.length).sum ∨
    (libosMtcpPush sga s).1 = -1 ∧ (libosMtcpPush sga s).2.sent = s.sent) ∧
  (libosMtcpPush sga s).2.passed = s.passed

structure Sender.Fills (s t : Sender) : Prop where
  sent : s.sent.length ≤ t.sent.length
  room : t.room + t.sent.length = s.room + s.sent.length
  passed : s.passed ≤ t.passed

theorem Sender.Fills.trans (h : s.Fills t) (h' : t.Fills u) : s.Fills u :=
  ⟨h.sent.trans h'.sent, h'.room.trans h.room, h.passed.trans h'.passed⟩

theorem Sender.Fills.pass (h : s.Fills t) (count : Nat) : s.Fills (t.pass count) :=
  h.trans ⟨le_refl _, rfl, Nat.le_add_right _ _⟩

theorem mtcpWrite_fills (buf : List UInt8) (s : Sender) : s.Fills (mtcpWrite buf s).2 := by
  unfold mtcpWrite
  split
  · exact ⟨le_refl _, rfl, le_refl _⟩
  · constructor <;> simp only [length_append, length_take] <;> omega

theorem pushBufs_fills (sga : Sga) (total : Nat) (s : Sender) :
    s.Fills (pushBufs sga total s).2 := by
  induction sga generalizing total s with
  | nil => exact ⟨le_refl _, rfl, le_refl _⟩
  | cons buf sga ih =>
    have hlen := mtcpWrite_fills (word buf.length) s
    have hbuf := (hlen.pass (mtcpWrite (word buf.length) s).1).trans (mtcpWrite_fills buf _)
    unfold pushBufs
    dsimp only
    split_ifs
    · exact ⟨le_refl _, rfl, le_refl _⟩
    · exact hlen
    · exact hbuf
    · exact (hbuf.pass _).trans (ih _ _)

/-- With any room at all the first word leaves a trace; without it the error goes unnoticed. -/
theorem libosMtcpPush_fills (sga : Sga) (s : Sender) : s.Fills (libosMtcpPush sga s).2 ∧
    (0 < s.room → s.sent.length < (libosMtcpPush sga s).2.sent.length) ∧
    (s.room = 0 → s.passed < (libosMtcpPush sga s).2.passed) := by
  have hfirst := mtcpWrite_fills (word magic) s
  have hlt : 0 < s.room → s.sent.length < (mtcpWrite (word magic) s).2.sent.length := by
    intro h
    rw [mtcpWrite, length_word, if_neg (by omega)]
    simp only [length_append, length_take, length_word]
    omega
  have hfull : s.room = 0 → mtcpWrite (word magic) s = (2 ^ 64 - 1, s) := fun h => if_pos (.inr h)
  unfold libosMtcpPush
  generalize mtcpWrite (word magic) s = r at hfirst hlt hfull ⊢
  have htotal := mtcpWrite_fills (word (totalLen sga)) (r.2.pass r.1)
  have hgo : ∀ {u : Sender}, (r.2.pass r.1).Fills u → s.Fills u ∧
      (0 < s.room → s.sent.length < u.sent.length) ∧ (s.room = 0 → s.passed < u.passed) := by
    intro u hu
    refine ⟨(hfirst.pass _).trans hu, fun h => (hlt h).trans_le hu.sent, fun h => ?_⟩
    rw [hfull h] at hu
    exact Nat.lt_of_succ_le hu.passed
  dsimp only
  split_ifs with hshort
  · refine ⟨hfirst, hlt, fun h => ?_⟩
    rw [hfull h] at hshort
    exact absurd hshort (show ¬2 ^ 64 - 1 < 8 by decide)
  · exact hgo htotal
  · exact hgo ((htotal.pass _).trans (mtcpWrite_fills _ _))
  · exact hgo ((((htotal.pass _).trans (mtcpWrite_fills _ _)).pass _).trans (pushBufs_fills _ _ _))

theorem sum_written (sga : Sga) : ∃ k, (sga.map written).sum + sga.countP (·.isEmpty) =
    (sga.map length).sum + k * 2 ^ 64 := by
  induction sga with
  | nil => exact ⟨0, rfl⟩
  | cons buf sga ih =>
    obtain ⟨k, ih⟩ := ih
    cases buf with
    | nil =>
      refine ⟨k + 1, ?_⟩
      simp [Libos.written]
      omega
    | cons b buf =>
      refine ⟨k, ?_⟩
      simp [Libos.written]
      omega

theorem sum_le (hsmall : small sga) : (sga.map length).sum ≤ 8192 * sga.length := by
  induction sga with
  | nil => exact le_refl _
  | cons buf sga ih =>
    rw [small, all_cons, Bool.and_eq_true, decide_eq_true_eq] at hsmall
    have hrest := ih hsmall.2
    rw [map_cons, sum_cons, length_cons]
    omega

theorem notMem_nil_iff : [] ∉ sga ↔ sga.countP (·.isEmpty) = 0 := by
  rw [countP_eq_zero]
  constructor
  · rintro h buf hbuf hnil
    exact h (isEmpty_iff.mp hnil ▸ hbuf)
  · exact fun h hmem => h [] hmem rfl

theorem asInt_sum_written (hnum : sga.length ≤ 10) (hsmall : small sga) :
    asInt (sga.map written).sum = (sga.map length).sum ↔ [] ∉ sga := by
  obtain ⟨k, hk⟩ := sum_written sga
  have hsum := sum_le hsmall
  have hcount : sga.countP (·.isEmpty) ≤ sga.length := countP_le_length
  rw [notMem_nil_iff, asInt_eq]
  split <;> omega

/-- A push is all or nothing exactly if the frame fits, with buffers that are neither empty nor
larger than `MTCP_SNDBUF_SIZE`. -/
theorem push_all_or_nothing_iff (hnum : sga.length ≤ 10) : AllOrNothing sga s ↔
    (frame sga).length ≤ s.room ∧ small sga = true ∧ [] ∉ sga := by
  obtain ⟨hfills, hlt, hfull⟩ := libosMtcpPush_fills sga s
  have hframe := length_frame sga
  constructor
  · rintro ⟨hsent, hpassed⟩
    have hroom : 0 < s.room := Nat.pos_of_ne_zero fun h => (hfull h).ne' hpassed
    -- Something was sent, so it must have been the whole frame.
    obtain ⟨hsent, hret⟩ | ⟨-, hsame⟩ := hsent
    · have hroom' := hfills.room
      rw [hsent, length_append] at hroom'
      have hle : (frame sga).length ≤ s.room := by omega
      have hsmall : small sga := by
        by_contra hlarge
        have hshort := libosMtcpPush_large (Bool.eq_false_of_not_eq_true hlarge) hle
        rw [hsent, length_append] at hshort
        exact lt_irrefl _ hshort
      rw [libosMtcpPush_small hsmall hle] at hret
      exact ⟨hle, hsmall, (asInt_sum_written hnum hsmall).mp hret⟩
    · have hmore := hlt hroom
      rw [hsame] at hmore
      exact absurd hmore (lt_irrefl _)
  · rintro ⟨hle, hsmall, hnil⟩
    rw [AllOrNothing, libosMtcpPush_small hsmall hle]
    refine ⟨.inl ⟨rfl, (asInt_sum_written hnum hsmall).mpr hnil⟩, ?_⟩
    rw [notMem_nil_iff.mp hnil, Nat.add_zero]

theorem push_all_or_nothing_iff_two : AllOrNothing [[1, 2], [3]] { room := 100, sent := [9] } :=
  (push_all_or_nothing_iff (by decide)).mpr (by decide)

/-- With sixteen bytes of room the header is sent without the count, whose write fails and is
taken for a success like all that follow. -/
theorem push_leaves_part_of_frame :
    let r := libosMtcpPush [[1, 2], [3]] { room := 16 }
    r.2.sent = (frame [[1, 2], [3]]).take 16 ∧ r.2.passed = 5 ∧ r.1 = -2 ∧
      ¬AllOrNothing [[1, 2], [3]] { room := 16 } := by
  unfold AllOrNothing
  decide +kernel

/-! A pop that trusts the frame. Addresses are counted from the buffer of the frame; what lies
outside is whatever is in memory there. -/

def memory (bytes : List UInt8) (junk : Nat → UInt8) (k : Nat) : UInt8 := bytes.getD k (junk k)

def wordAt (mem : Nat → UInt8) (ptr : Nat) : Nat :=
  value ((List.range 8).map fun k => mem ((ptr + k) % 2 ^ 64))

/-- The last loop of `libos_mtcp_pop`: for every entry the place of its length, and the length.
The buffer follows. -/
def entries (mem : Nat → UInt8) : Nat → Nat → List (Nat × Nat)
  | 0, _ => []
  | n + 1, ptr => (ptr, wordAt mem ptr) :: entries mem n ((ptr + 8 + wordAt mem ptr) % 2 ^ 64)

def poppedEntries (mem : Nat → UInt8) : List (Nat × Nat) :=
  entries mem (asInt (wordAt mem 16)).toNat 24

/-- A walk through the array stays in a frame of `size` bytes and in the ten entries of the caller,
and the sum of the lengths is what is returned. -/
structure InFrame (mem : Nat → UInt8) (size : Nat) : Prop where
  count : 24 ≤ size
  slots : (poppedEntries mem).length ≤ 10
  inside : ∀ e ∈ poppedEntries mem, e.1 + 8 + e.2 ≤ size
  total : asInt (((poppedEntries mem).map Prod.snd).sum % 2 ^ 64) =
    ((poppedEntries mem).map Prod.snd).sum

/-- A pop has written into its own buffer and gone through nothing but the frame received. -/
structure SafePop (around : Nat → UInt8) (res : Int × Receiver) : Prop where
  writes : res.2.fault ≠ some .wildWrite
  walks : ∀ bytes ∈ res.2.walked, InFrame (memory bytes around) bytes.length ∧
    res.1 = ((poppedEntries (memory bytes around)).map Prod.snd).sum

/-- A count, as an `int` at most ten, and as many buffers behind their lengths, with no more bytes
in all than an `int` can count. -/
def HoldsArray (data : List UInt8) : Prop :=
  8 ≤ data.length ∧ ∃ sga pad, data.drop 8 = body sga ++ pad ∧
    (asInt (value (data.take 8))).toNat = sga.length ∧ sga.length ≤ 10 ∧
      (sga.map List.length).sum < 2147483648

/-- A length that is neither none nor wraps around, that `realloc` serves unless there is nothing
to read for it, and if all of it is there, an array. -/
def Poppable (heap len : Nat) (data : List UInt8) : Prop :=
  0 < len ∧ len < 2 ^ 64 - 16 ∧ (16 + len ≤ heap ∨ data = [] ∨ asInt len ≤ 0) ∧
    (len < 2147483648 → len ≤ data.length → HoldsArray (data.take len))

variable {bytes : List UInt8} {junk : Nat → UInt8}

theorem length_entries (mem : Nat → UInt8) (n ptr : Nat) : (entries mem n ptr).length = n := by
  induction n generalizing ptr with
  | zero => rfl
  | succ n ih => rw [entries, length_cons, ih]

theorem wordAt_frame {ptr : Nat} (hptr : ptr + 8 ≤ bytes.length) (hlt : bytes.length < 2 ^ 64) :
    wordAt (memory bytes junk) ptr = value ((bytes.drop ptr).take 8) := by
  rw [wordAt]
  congr 1
  apply ext_getElem?
  intro k
  by_cases hk : k < 8
  · have hin : ptr + k < bytes.length := by omega
    rw [getElem?_map, getElem?_range hk, getElem?_take_of_lt hk, getElem?_drop,
      Option.map_some, Nat.mod_eq_of_lt (by omega), memory, getD_eq_getElem?_getD,
      getElem?_eq_getElem hin, Option.getD_some]
  · rw [getElem?_eq_none (by simpa using hk), getElem?_eq_none]
    rw [length_take]
    omega

/-- The array can be read from the bytes of the frame exactly if all its entries lie there. -/
theorem readBufs_entries (hlt : bytes.length < 2 ^ 64) (n : Nat) {ptr : Nat}
    (hptr : ptr ≤ bytes.length) : readBufs n (bytes.drop ptr) =
      if ∀ e ∈ entries (memory bytes junk) n ptr, e.1 + 8 + e.2 ≤ bytes.length then
        some ((entries (memory bytes junk) n ptr).map fun e => (bytes.drop (e.1 + 8)).take e.2)
      else none := by
  induction n generalizing ptr with
  | zero => exact (if_pos nofun).symm
  | succ n ih =>
    simp only [entries, readBufs, forall_mem_cons, length_drop, map_cons]
    by_cases hword : ptr + 8 ≤ bytes.length
    · rw [if_neg (by omega), ← wordAt_frame hword hlt]
      generalize wordAt (memory bytes junk) ptr = len
      rw [drop_drop, drop_drop]
      by_cases hlen : ptr + 8 + len ≤ bytes.length
      · rw [if_neg (by omega), Nat.mod_eq_of_lt (by omega), ih hlen]
        simp only [hlen, true_and]
        split <;> rfl
      · rw [if_pos (by omega), if_neg fun h => hlen h.1]
    · rw [if_pos (by omega), if_neg fun h => hword (by have := h.1; omega)]

theorem readSga_iff (data : List UInt8) :
    (∃ sga, readSga data = some sga ∧ (sga.map length).sum < 2147483648) ↔ HoldsArray data := by
  unfold readSga HoldsArray
  by_cases hlen : data.length < 8
  · rw [if_pos hlen]
    exact iff_of_false nofun fun h => absurd h.1 (Nat.not_le.mpr hlen)
  rw [if_neg hlen]
  dsimp only
  constructor
  · rintro ⟨sga, hsga, hsum⟩
    split_ifs at hsga with hten
    obtain ⟨hnum, pad, hpad⟩ := readBufs_some hsga
    exact ⟨Nat.not_lt.mp hlen, sga, pad, hpad, hnum.symm, by omega, hsum⟩
  · rintro ⟨-, sga, pad, hdata, hnum, hten, hsum⟩
    have hlens : ∀ buf ∈ sga, buf.length < 2 ^ 64 := fun buf hbuf => by
      have := le_sum_of_mem (mem_map_of_mem (f := length) hbuf)
      omega
    rw [if_neg (by omega), hdata, hnum]
    exact ⟨sga, readBufs_body hlens pad, hsum⟩

theorem readSga_entries (hlt : bytes.length < 2 ^ 64) (junk : Nat → UInt8) :
    readSga (bytes.drop 16) = some sga ↔
      (24 ≤ bytes.length ∧ (poppedEntries (memory bytes junk)).length ≤ 10 ∧
        ∀ e ∈ poppedEntries (memory bytes junk), e.1 + 8 + e.2 ≤ bytes.length) ∧
      ((poppedEntries (memory bytes junk)).map fun e => (bytes.drop (e.1 + 8)).take e.2) = sga := by
  have hslots := length_entries (memory bytes junk) (asInt (wordAt (memory bytes junk) 16)).toNat 24
  rw [readSga, length_drop, drop_drop]
  by_cases hcount : 24 ≤ bytes.length
  · rw [if_neg (by omega), ← @wordAt_frame bytes junk 16 (by omega) hlt]
    dsimp only
    rw [@readBufs_entries bytes junk hlt _ (16 + 8) hcount, poppedEntries, hslots]
    split_ifs with hten hin
    · exact iff_of_false not_false fun h => by omega
    · exact ⟨fun h => ⟨⟨hcount, by omega, hin⟩, Option.some_inj.mp h⟩, fun h => congrArg some h.2⟩
    · exact iff_of_false not_false fun h => hin h.1.2.2
  · rw [if_pos (by omega)]
    exact iff_of_false (Option.some_ne_none sga).symm fun h => hcount h.1.1

theorem lengths_of_readSga (hlt : bytes.length < 2 ^ 64) (junk : Nat → UInt8)
    (h : readSga (bytes.drop 16) = some sga) :
    (poppedEntries (memory bytes junk)).map Prod.snd = sga.map length := by
  obtain ⟨⟨-, -, hin⟩, rfl⟩ := (readSga_entries hlt junk).mp h
  rw [map_map]
  refine map_congr_left fun e he => ?_
  have hle := hin e he
  rw [Function.comp_apply, length_take, length_drop]
  omega

theorem inFrame_iff (hlt : bytes.length < 2 ^ 64) (junk : Nat → UInt8) :
    InFrame (memory bytes junk) bytes.length ↔
      ∃ sga, readSga (bytes.drop 16) = some sga ∧ (sga.map length).sum < 2147483648 := by
  constructor
  · rintro ⟨hcount, hslots, hin, htotal⟩
    have hsga := (readSga_entries hlt junk).mpr ⟨⟨hcount, hslots, hin⟩, rfl⟩
    refine ⟨_, hsga, ?_⟩
    rw [← lengths_of_readSga hlt junk hsga]
    rw [asInt_eq] at htotal
    split at htotal <;> omega
  · rintro ⟨sga, hsga, hsum⟩
    obtain ⟨⟨hcount, hslots, hin⟩, -⟩ := (readSga_entries hlt junk).mp hsga
    refine ⟨hcount, hslots, hin, ?_⟩
    rw [lengths_of_readSga hlt junk hsga, Nat.mod_eq_of_lt (by omega), asInt_of_lt hsum]

theorem SafePop.of_later {around : Nat → UInt8} {res : Int × Receiver}
    (hwalked : res.2.walked = []) (hfault : res.2.fault = none) : SafePop around res where
  writes h := by
    rw [hfault] at h
    cases h
  walks bytes hbytes := by
    rw [hwalked] at hbytes
    cases hbytes

theorem popBody_safe_iff {hdr : List UInt8} {r : Receiver} (around : Nat → UInt8)
    (hlen : hdr.length = 16) (hmagic : value (hdr.take 8) = magic) (hwalked : r.walked = [])
    (hfault : r.fault = none) : SafePop around (popBody hdr r) ↔
      Poppable r.heap (value ((hdr.drop 8).take 8)) r.readable := by
  have hwant := want_cases hdr
  unfold popBody Poppable
  rw [if_neg (not_not.mpr hmagic)]
  dsimp only
  generalize value ((hdr.drop 8).take 8) = len at hwant ⊢
  by_cases hwrap : (16 + len) % 2 ^ 64 ≤ 16
  · -- the array is looked for behind the header
    have hnone : readSga (hdr.drop 16) = none := by
      rw [drop_of_length_le (Nat.le_of_eq hlen)]
      rfl
    rw [if_neg (by omega), readUpTo_of_le (hwrap.trans_eq hlen.symm)]
    dsimp only
    rw [hnone]
    refine iff_of_false (fun h => ?_) (by omega)
    have hcount := (h.walks hdr (mem_append_right _ (mem_singleton_self _))).1.count
    omega
  have hsum : (16 + len) % 2 ^ 64 = 16 + len := by omega
  have hle : 0 < len ∧ len < 2 ^ 64 - 16 := by omega
  rw [hsum, hlen, Nat.add_sub_cancel_left, ← and_assoc, and_iff_right hle]
  by_cases hheap : r.heap < 16 + len
  · rw [if_pos ⟨by omega, hheap⟩, mtcpRead]
    split_ifs with hnone
    · refine iff_of_true (.of_later hwalked hfault) ⟨.inr hnone, fun hint hall => ?_⟩
      rw [asInt_of_lt hint, ← length_eq_zero_iff] at hnone
      omega
    · refine iff_of_false (fun h => h.writes ?_) fun h =>
        h.1.elim (fun hle => absurd hle (Nat.not_le.mpr hheap)) hnone
      simp [Receiver.abort, hfault]
  rw [if_neg fun h => hheap h.2, and_iff_right (.inl (Nat.not_lt.mp hheap))]
  obtain ⟨hnone, heq⟩ | ⟨n, -, -, hshort, heq⟩ | ⟨hfits, hint, heq⟩ :=
    readUpTo_cases (show hdr.length < 16 + len by omega) r
  · rw [heq]
    refine iff_of_true (.of_later hwalked hfault) fun hint hall => ?_
    rw [hlen, Nat.add_sub_cancel_left, asInt_of_lt hint, ← length_eq_zero_iff] at hnone
    omega
  · rw [heq]
    exact iff_of_true (.of_later hwalked hfault) fun hint hall => by omega
  · rw [hlen, Nat.add_sub_cancel_left] at heq hint
    have hframe : (hdr ++ r.readable.take len).length < 2 ^ 64 := by
      rw [length_append, length_take]
      omega
    have hdrop : (hdr ++ r.readable.take len).drop 16 = r.readable.take len := drop_left' hlen
    have hin := @inFrame_iff _ hframe around
    rw [hdrop] at hin
    rw [heq, forall_prop_of_true hint, forall_prop_of_true (by omega), ← readSga_iff]
    dsimp only
    rw [hdrop]
    constructor
    · intro h
      refine hin.mp (h.walks _ ?_).1
      cases readSga (r.readable.take len) <;> exact mem_append_right _ (mem_singleton_self _)
    · rintro ⟨sga, hsga, hsum⟩
      rw [hsga]
      refine ⟨by simp [hfault], fun bytes hbytes => ?_⟩
      rw [hwalked, nil_append, mem_singleton] at hbytes
      subst hbytes
      refine ⟨hin.mpr ⟨sga, hsga, hsum⟩, ?_⟩
      rw [lengths_of_readSga hframe around (hdrop.symm ▸ hsga)]
      exact asInt_of_lt hsum

/-- A pop is safe on what comes after the magic word exactly if its request record has no buffer by
chance and what it can read of the length and the array is in order. -/
theorem pop_in_frame_iff (junk : Bool) (around : Nat → UInt8) (heap : Nat) (rest : List UInt8) :
    SafePop around (libosMtcpPop junk { readable := word magic ++ rest, heap := heap }) ↔
      junk = false ∧
        (8 ≤ rest.length → Poppable heap (value (rest.take 8)) (rest.drop 8)) := by
  have hread : (word magic ++ rest).length = 8 + rest.length := by
    rw [length_append, length_word]
  have hne : word magic ++ rest ≠ [] := length_pos_iff.mp (by omega)
  cases junk with
  | true =>
    refine iff_of_false (fun h => h.writes ?_) nofun
    rw [libosMtcpPop, if_pos rfl, mtcpRead, if_neg (not_or.mpr ⟨hne, by decide⟩)]
    rfl
  | false =>
    rw [and_iff_right rfl, libosMtcpPop_of_none rfl, popFrom]
    by_cases hhdr : 8 ≤ rest.length
    · have hlen : (word magic ++ rest.take 8).length = 16 := by
        rw [length_append, length_word, length_take]
        omega
      have hsplit : word magic ++ rest = word magic ++ rest.take 8 ++ rest.drop 8 := by
        rw [append_assoc, take_append_drop]
      rw [readUpTo_append (by decide) hsplit (by rw [hlen]; rfl) (by decide), nil_append,
        forall_prop_of_true hhdr]
      have hbody := @popBody_safe_iff (word magic ++ rest.take 8)
        { readable := rest.drop 8, heap := heap } around hlen
        (by rw [take_left' (length_word _)]; exact value_word (by decide)) rfl rfl
      rw [drop_left' (length_word _), take_take] at hbody
      exact hbody
    · refine iff_of_true ?_ fun h => absurd h hhdr
      obtain ⟨hnone, -⟩ | ⟨n, -, -, -, heq⟩ | ⟨hfits, -⟩ := readUpTo_cases
        (show ([] : List UInt8).length < 16 by decide)
          { readable := word magic ++ rest, heap := heap }
      · exact absurd hnone (not_or.mpr ⟨hne, by decide⟩)
      · rw [heq]
        exact .of_later rfl rfl
      · rw [length_nil, Nat.zero_add, hread] at hfits
        omega

theorem pop_in_frame_iff_two :
    SafePop (fun _ => 0) (libosMtcpPop false { readable := frame [[1, 2], [3]] }) := by
  have hsplit : frame [[1, 2], [3]] = word magic ++ (frame [[1, 2], [3]]).drop 8 := by
    decide +kernel
  rw [hsplit]
  refine (pop_in_frame_iff false _ _ _).mpr ⟨rfl, fun _ => ⟨?_, ?_, .inl ?_, fun _ _ => ?_⟩⟩
  iterate 3 decide +kernel
  exact ⟨by decide +kernel, [[1, 2], [3]], [], by decide +kernel⟩

/-- The frame has room for the count of its buffers and announces one. A length that `realloc`
does not serve has the next byte written to a place near zero. -/
theorem pop_reads_behind_frame :
    let short := word magic ++ word 8 ++ word 1
    let long := word magic ++ word (2 ^ 62 + 1000) ++ [0]
    (libosMtcpPop false { readable := short }).2.fault = some .overrun ∧
      poppedEntries (memory short fun _ => 0) = [(24, 0)] ∧
      ¬SafePop (fun _ => 0) (libosMtcpPop false { readable := short }) ∧
      (libosMtcpPop false { readable := long }).2.fault = some .wildWrite := by
  have hentries : poppedEntries (memory (word magic ++ word 8 ++ word 1) fun _ => 0) =
    [(24, 0)] := by decide +kernel
  refine ⟨by decide +kernel, hentries, fun h => ?_, by decide +kernel⟩
  have hin := (h.walks (word magic ++ word 8 ++ word 1) (by decide +kernel)).1.inside (24, 0)
    (by rw [hentries]; exact List.mem_singleton_self _)
  exact absurd hin (by decide)

end Mtcp.Libos
