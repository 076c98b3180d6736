import Mtcp.Libos
import Mtcp.Runs
import Mtcp.Serial

namespace Mtcp.Libos

open LittleEndian Runs List Option Bool Prod

variable {sga : Sga} {s : Sender} {r r' : Receiver}

/-! What a frame looks like. -/

def body (sga : Sga) : List UInt8 := sga.flatMap fun buf => word buf.length ++ buf

def frame (sga : Sga) : List UInt8 :=
  word magic ++ word (totalLen sga) ++ word sga.length ++ body sga

def small (sga : Sga) : Bool := sga.all fun buf => decide (buf.length ≤ 8192)

@[simp]
theorem length_word (n : Nat) : (word n).length = 8 := length_bytes 8 n

theorem value_word {n : Nat} (h : n < 2 ^ 64) : value (word n) = n := value_bytes h

theorem length_body (sga : Sga) : (body sga).length + 8 = totalLen sga := by
  unfold body totalLen
  induction sga with
  | nil => rfl
  | cons buf sga ih =>
    rw [flatMap_cons, length_append, length_append, length_word, map_cons, sum_cons]
    omega

theorem length_frame (sga : Sga) : (frame sga).length = 16 + totalLen sga := by
  have hbody := length_body sga
  simp only [frame, length_append, length_word]
  omega

/-! What a push writes. -/

def written (buf : List UInt8) : Nat := if buf.length = 0 then 2 ^ 64 - 1 else buf.length

theorem le_written (buf : List UInt8) : buf.length ≤ written buf := by
  unfold written
  split <;> omega

theorem mtcpWrite_fits (buf : List UInt8) (s : Sender) (h : buf.length ≤ s.room) :
    mtcpWrite buf s = (written buf,
      { s with room := s.room - buf.length, sent := s.sent ++ buf }) := by
  unfold mtcpWrite written
  by_cases hlen : buf.length = 0
  · rw [if_pos (.inl hlen), if_pos hlen, length_eq_zero_iff.mp hlen, append_nil,
      length_nil, Nat.sub_zero]
  · rw [if_neg (by omega), if_neg hlen]
    simp only [Nat.min_eq_right h, take_length]

theorem mtcpWrite_word (n : Nat) (s : Sender) (h : 8 ≤ s.room) :
    mtcpWrite (word n) s = (8, { s with room := s.room - 8, sent := s.sent ++ word n }) := by
  rw [mtcpWrite_fits _ _ (by rw [length_word]; exact h), written, length_word]
  rfl

theorem pass_written {buf : List UInt8} (hbuf : buf.length ≤ 8192) (s : Sender) :
    s.pass (written buf) = { s with passed := s.passed + [buf].countP (·.isEmpty) } := by
  cases buf with
  | nil => rfl
  | cons b buf =>
    rw [length_cons] at hbuf
    rw [Sender.pass, written, length_cons, if_neg (Nat.succ_ne_zero _), if_neg (by omega)]
    rfl

theorem length_body_cons (buf : List UInt8) (sga : Sga) :
    (body (buf :: sga)).length = 8 + buf.length + (body sga).length := by
  rw [body, flatMap_cons, length_append, length_append, length_word, body]

theorem pushBufs_cons (sga : Sga) (s : Sender) {buf : List UInt8} (hbuf : buf.length ≤ 8192)
    (hroom : 8 + buf.length ≤ s.room) (total : Nat) :
    pushBufs (buf :: sga) total s = pushBufs sga (total + written buf)
      ⟨s.room - (8 + buf.length), s.sent ++ (word buf.length ++ buf),
        s.passed + [buf].countP (·.isEmpty)⟩ := by
  have hrest : buf.length ≤ s.room - 8 := by omega
  rw [pushBufs, if_neg (Nat.not_lt.mpr hbuf), mtcpWrite_word _ _ (by omega)]
  dsimp only
  rw [if_neg (Nat.lt_irrefl 8), mtcpWrite_fits buf _ hrest]
  rw [if_neg (Nat.not_lt.mpr (le_written buf)), pass_written hbuf]
  dsimp only [Sender.pass]
  rw [Nat.sub_sub, append_assoc]
  rfl

theorem pushBufs_small (hsmall : small sga) (hroom : (body sga).length ≤ s.room)
    (total : Nat) : pushBufs sga total s = (asInt (total + (sga.map written).sum),
      ⟨s.room - (body sga).length, s.sent ++ body sga, s.passed + sga.countP (·.isEmpty)⟩) := by
  induction sga generalizing s total with
  | nil => simp [pushBufs, body]
  | cons buf sga ih =>
    rw [length_body_cons] at hroom ⊢
    rw [small, all_cons, and_eq_true, decide_eq_true_eq] at hsmall
    have hrest : (body sga).length ≤ s.room - (8 + buf.length) := by omega
    rw [pushBufs_cons sga s hsmall.1 (by omega), ih hsmall.2 hrest]
    simp only [body, flatMap_cons, append_assoc, Nat.sub_sub, Nat.add_assoc, map_cons, sum_cons,
      ← countP_append, singleton_append]

theorem pushBufs_large (hlarge : small sga = false) (hroom : (body sga).length ≤ s.room)
    (total : Nat) : (pushBufs sga total s).2.sent.length < s.sent.length + (body sga).length := by
  induction sga generalizing s total with
  | nil => exact absurd hlarge (by decide)
  | cons buf sga ih =>
    rw [length_body_cons] at hroom ⊢
    by_cases hbuf : 8192 < buf.length
    · rw [pushBufs, if_pos hbuf]
      dsimp only
      omega
    · rw [small, all_cons, decide_eq_true (Nat.not_lt.mp hbuf), Bool.true_and] at hlarge
      have hrest : (body sga).length ≤ s.room - (8 + buf.length) := by omega
      rw [pushBufs_cons sga s (Nat.not_lt.mp hbuf) (by omega)]
      refine (ih hlarge hrest _).trans_eq ?_
      simp only [length_append, length_word]
      omega

theorem libosMtcpPush_eq (hroom : (frame sga).length ≤ s.room) :
    libosMtcpPush sga s = pushBufs sga 0 ⟨s.room - 24,
      s.sent ++ (word magic ++ word (totalLen sga) ++ word sga.length), s.passed⟩ := by
  have hbody := length_body sga
  rw [length_frame] at hroom
  rw [libosMtcpPush, mtcpWrite_word _ _ (by omega)]
  dsimp only
  rw [if_neg (Nat.lt_irrefl 8), mtcpWrite_word _ _ (show 8 ≤ s.room - 8 by omega)]
  rw [if_neg (Nat.lt_irrefl 8), mtcpWrite_word _ _ (show 8 ≤ s.room - 8 - 8 by omega)]
  rw [if_neg (Nat.lt_irrefl 8)]
  dsimp only [Sender.pass]
  rw [Nat.sub_sub, Nat.sub_sub, ← append_assoc, ← append_assoc]
  rfl

theorem libosMtcpPush_small (hsmall : small sga) (hroom : (frame sga).length ≤ s.room) :
    libosMtcpPush sga s = (asInt (sga.map written).sum,
      ⟨s.room - (frame sga).length, s.sent ++ frame sga, s.passed + sga.countP (·.isEmpty)⟩) := by
  have hbody := length_body sga
  have hlen := length_frame sga
  have hrest : (body sga).length ≤ s.room - 24 := by omega
  rw [libosMtcpPush_eq hroom, pushBufs_small hsmall hrest, frame, Nat.zero_add]
  simp only [length_append, length_word, append_assoc, Nat.sub_sub]
  rw [show 24 + (body sga).length = 8 + (8 + (8 + (body sga).length)) by omega]

theorem libosMtcpPush_large (hlarge : small sga = false) (hroom : (frame sga).length ≤ s.room) :
    (libosMtcpPush sga s).2.sent.length < s.sent.length + (frame sga).length := by
  have hbody := length_body sga
  have hlen := length_frame sga
  have hrest : (body sga).length ≤ s.room - 24 := by omega
  rw [libosMtcpPush_eq hroom]
  refine (pushBufs_large hlarge hrest 0).trans_eq ?_
  simp only [length_append, length_word]
  omega

/-! What a pop does. -/

theorem asInt_eq (n : Nat) : asInt n =
    if n % 4294967296 < 2147483648 then ((n % 4294967296 : Nat) : Int)
    else ((n % 4294967296 : Nat) : Int) - 4294967296 := by
  have hsigned := Serial.signed_eq (UInt32.ofNat n)
  rw [UInt32.toNat_ofNat'] at hsigned
  exact hsigned

theorem asInt_of_lt {n : Nat} (h : n < 2147483648) : asInt n = n := by
  rw [asInt_eq, Nat.mod_eq_of_lt (by omega), if_pos h]

theorem asInt_toNat_le (n : Nat) :
    (asInt n).toNat ≤ n ∧ ((asInt n).toNat = n ↔ n < 2147483648) := by
  rw [asInt_eq]
  split <;> omega

theorem readUpTo_cases {want : Nat} {got : List UInt8} (h : got.length < want) (r : Receiver) :
    ((r.readable = [] ∨ asInt (want - got.length) ≤ 0) ∧
      readUpTo want got r = .later (r.keep got)) ∨ (∃ n, 0 < n ∧ r.readable ≠ [] ∧
      (r.readable.length < want - got.length ∨ 2147483648 ≤ want - got.length) ∧
      readUpTo want got r = .later (({ r with readable := r.readable.drop n } : Receiver).keep
        (got ++ r.readable.take n))) ∨
    (want ≤ got.length + r.readable.length ∧ want - got.length < 2147483648 ∧
      readUpTo want got r = .ready (got ++ r.readable.take (want - got.length))
        { r with readable := r.readable.drop (want - got.length) }) := by
  have hle := asInt_toNat_le (want - got.length)
  unfold readUpTo mtcpRead
  rw [if_pos h]
  by_cases hnone : r.readable = [] ∨ asInt (want - got.length) ≤ 0
  · rw [if_pos hnone]
    exact .inl ⟨hnone, rfl⟩
  rw [if_neg hnone]
  obtain ⟨hnil, hpos⟩ := not_or.mp hnone
  dsimp only
  rw [length_take]
  by_cases hshort : got.length + min (asInt (want - got.length)).toNat r.readable.length < want
  · rw [if_pos hshort]
    exact .inr (.inl ⟨_, by omega, hnil, by omega, rfl⟩)
  · have hall : (asInt (want - got.length)).toNat = want - got.length := by omega
    rw [if_neg hshort, hall]
    exact .inr (.inr ⟨by omega, hle.2.mp hall, rfl⟩)

theorem readUpTo_append {want : Nat} {got bytes rest : List UInt8} (hgot : got.length < want)
    (hread : r.readable = bytes ++ rest) (hlen : got.length + bytes.length = want)
    (hint : want < 2147483648) :
    readUpTo want got r = .ready (got ++ bytes) { r with readable := rest } := by
  have hbytes : bytes.length = want - got.length := by omega
  have hall := congrArg length hread
  rw [length_append] at hall
  obtain ⟨hnone, -⟩ | ⟨n, -, -, hshort, -⟩ | ⟨-, -, heq⟩ := readUpTo_cases hgot r
  · rw [asInt_of_lt (by omega), ← length_eq_zero_iff] at hnone
    omega
  · omega
  · rw [heq, hread, take_left' hbytes, drop_left' hbytes]

theorem readBufs_some {n : Nat} {ptr : List UInt8} {bufs : Sga} (h : readBufs n ptr = some bufs) :
    bufs.length = n ∧ ∃ pad, ptr = body bufs ++ pad := by
  induction n generalizing ptr bufs with
  | zero =>
    rw [readBufs] at h
    obtain rfl := some.inj h
    exact ⟨rfl, ptr, rfl⟩
  | succ n ih =>
    rw [readBufs] at h
    by_cases hlen : ptr.length < 8
    · rw [if_pos hlen] at h
      exact absurd h nofun
    rw [if_neg hlen] at h
    by_cases hbuf : (ptr.drop 8).length < value (ptr.take 8)
    · rw [if_pos hbuf] at h
      exact absurd h nofun
    rw [if_neg hbuf] at h
    obtain ⟨rest, hrest, rfl⟩ := map_eq_some_iff.mp h
    obtain ⟨hnum, pad, hpad⟩ := ih hrest
    have hword := bytes_value (ptr.take 8)
    rw [length_take_of_le (Nat.not_lt.mp hlen)] at hword
    change word _ = _ at hword
    refine ⟨by rw [length_cons, hnum], pad, ?_⟩
    rw [body, flatMap_cons, length_take_of_le (Nat.not_lt.mp hbuf), hword, ← body, append_assoc,
      append_assoc, ← hpad, take_append_drop, take_append_drop]

theorem readSga_length {bytes : List UInt8} (h : readSga bytes = some sga) :
    totalLen sga ≤ bytes.length := by
  unfold readSga at h
  by_cases hlen : bytes.length < 8
  · rw [if_pos hlen] at h
    exact absurd h nofun
  rw [if_neg hlen] at h
  dsimp only at h
  split at h
  · exact absurd h nofun
  · obtain ⟨-, pad, hpad⟩ := readBufs_some h
    have hbody := congrArg length hpad
    have htotal := length_body sga
    rw [length_drop, length_append] at hbody
    omega

/-- The bytes that are ready start with a whole frame, by the length in its header. -/
def wholeFrame (bytes : List UInt8) : Bool :=
  decide (16 ≤ bytes.length) && decide (16 + value ((bytes.drop 8).take 8) ≤ bytes.length)

theorem keep_of_none (hreq : r.req = none) (bytes : List UInt8) : r.keep bytes = r := by
  rw [Receiver.keep, hreq, map_none, ← hreq]

theorem readUpTo_of_le {want : Nat} {got : List UInt8} (h : want ≤ got.length) (r : Receiver) :
    readUpTo want got r = .ready got r := by
  rw [readUpTo, if_neg (Nat.not_lt.mpr h)]

/-- The length field of a header is a 64-bit word, so that only a length near the top of its
range wraps around. -/
theorem want_cases (hdr : List UInt8) :
    (16 + value ((hdr.drop 8).take 8)) % 2 ^ 64 = 16 + value ((hdr.drop 8).take 8) ∨
    (16 + value ((hdr.drop 8).take 8)) % 2 ^ 64 ≤ 16 := by
  have hlt : value ((hdr.drop 8).take 8) < 2 ^ 64 := by
    apply Nat.lt_of_lt_of_le (value_lt _)
    have hlen : ((hdr.drop 8).take 8).length ≤ 8 := length_take_le 8 _
    exact Nat.pow_le_pow_right (by decide) hlen
  omega

theorem popBody_cases {hdr : List UInt8} (hlen : hdr.length = 16) (hreq : r.req = none) :
    (popBody hdr r).2.req = none ∧ (((popBody hdr r).2.returned = r.returned ∧
      (popBody hdr r).2.readable.length ≤ r.readable.length) ∨
    (16 + value ((hdr.drop 8).take 8) ≤ 16 + r.readable.length ∧ ∃ sga,
      (popBody hdr r).2.returned = r.returned ++ [sga] ∧
      (frame sga).length + (popBody hdr r).2.readable.length ≤ 16 + r.readable.length)) := by
  unfold popBody
  by_cases hmagic : value (hdr.take 8) ≠ magic
  · rw [if_pos hmagic]
    exact ⟨hreq, .inl ⟨rfl, Nat.le_refl _⟩⟩
  rw [if_neg hmagic]
  have hwant := want_cases hdr
  dsimp only
  generalize hw : (16 + value ((hdr.drop 8).take 8)) % 2 ^ 64 = want at hwant ⊢
  by_cases hheap : hdr.length < want ∧ r.heap < want
  · rw [if_pos hheap, mtcpRead]
    split_ifs
    · exact ⟨by simp [hreq], .inl ⟨rfl, Nat.le_refl _⟩⟩
    · exact ⟨hreq, .inl ⟨rfl, by simp [Receiver.abort]⟩⟩
  rw [if_neg hheap]
  by_cases hle : want ≤ hdr.length
  · -- Nothing is left for the array.
    have hnone : readSga (hdr.drop 16) = none := by
      rw [drop_of_length_le (Nat.le_of_eq hlen)]
      rfl
    rw [readUpTo_of_le hle]
    dsimp only
    rw [hnone]
    exact ⟨hreq, .inl ⟨rfl, Nat.le_refl _⟩⟩
  obtain ⟨-, heq⟩ | ⟨n, -, -, -, heq⟩ | ⟨hfits, -, heq⟩ := readUpTo_cases (Nat.not_le.mp hle) r
  · rw [heq]
    rw [keep_of_none hreq]
    exact ⟨hreq, .inl ⟨rfl, Nat.le_refl _⟩⟩
  · rw [heq]
    rw [keep_of_none (by exact hreq)]
    exact ⟨hreq, .inl ⟨rfl, (drop_suffix n _).length_le⟩⟩
  · rw [heq]
    dsimp only
    cases hsga : readSga ((hdr ++ r.readable.take (want - hdr.length)).drop 16) with
    | none => exact ⟨hreq, .inl ⟨rfl, by simp [Receiver.abort]⟩⟩
    | some sga =>
      have htotal := readSga_length hsga
      have hframe := length_frame sga
      refine ⟨by simp [hreq], .inr ⟨?_, sga, rfl, ?_⟩⟩
      · omega
      · rw [length_drop, length_append, length_take] at htotal
        rw [length_drop]
        omega

/-- A pop finds nothing to read, or loses bytes, or takes a whole frame and returns an array that
was in it. -/
theorem popFrom_cases (hreq : r.req = none) : (popFrom [] r).2.req = none ∧
    ((r.readable = [] ∧ (popFrom [] r).2 = r) ∨ ((popFrom [] r).2.returned = r.returned ∧
      (popFrom [] r).2.readable.length < r.readable.length) ∨
    (wholeFrame r.readable ∧ ∃ sga, (popFrom [] r).2.returned = r.returned ++ [sga] ∧
      (frame sga).length + (popFrom [] r).2.readable.length ≤ r.readable.length)) := by
  unfold popFrom
  obtain ⟨hnone, heq⟩ | ⟨n, hpos, hne, -, heq⟩ | ⟨hfits, -, heq⟩ :=
    readUpTo_cases (show ([] : List UInt8).length < 16 by decide) r
  · rw [heq]
    rw [keep_of_none hreq]
    exact ⟨hreq, .inl ⟨hnone.resolve_right (by decide), rfl⟩⟩
  · have hlen := length_pos_iff.mpr hne
    rw [heq]
    rw [keep_of_none (by exact hreq)]
    refine ⟨hreq, .inr (.inl ⟨rfl, ?_⟩)⟩
    rw [length_drop]
    omega
  · rw [heq]
    dsimp only
    rw [nil_append, length_nil, Nat.sub_zero]
    rw [length_nil, Nat.zero_add] at hfits
    have hlen : (r.readable.take 16).length = 16 := length_take_of_le hfits
    obtain ⟨hreq', ⟨hret, hread⟩ | ⟨hwhole, sga, hret, hread⟩⟩ :=
      popBody_cases (r := { r with readable := r.readable.drop 16 }) hlen hreq
    · refine ⟨hreq', .inr (.inl ⟨hret, Nat.lt_of_le_of_lt hread ?_⟩)⟩
      rw [length_drop]
      omega
    · rw [length_drop] at hwhole hread
      refine ⟨hreq', .inr (.inr ⟨?_, sga, hret, by omega⟩)⟩
      have hlenField : ((r.readable.take 16).drop 8).take 8 = (r.readable.drop 8).take 8 := by
        rw [drop_take, take_take]
        rfl
      rw [hlenField] at hwhole
      simp only [wholeFrame, and_eq_true, decide_eq_true_eq]
      omega

/-! Counting bytes: what was returned and what can still be read is not more than what arrived. -/

def weight (sgas : List Sga) : Nat := (sgas.map fun sga => (frame sga).length).sum

def clean (r : Receiver) : Event → Bool
  | .arrive _ => true
  | .pop junk => r.readable.isEmpty || (!junk && wholeFrame r.readable)

def arrivals (es : List Event) : List UInt8 :=
  es.flatMap fun e => match e with
    | .arrive chunk => chunk
    | .pop _ => []

def Receiver.load (r : Receiver) : Nat := weight r.returned + r.readable.length

theorem weight_append (sgas : List Sga) (sga : Sga) :
    weight (sgas ++ [sga]) = weight sgas + (frame sga).length := by
  simp [weight]

theorem pop_load (hreq : r.req = none) (junk : Bool) :
    (libosMtcpPop junk r).2.req = none ∧ (libosMtcpPop junk r).2.load ≤ r.load ∧
      (clean r (.pop junk) = false → (libosMtcpPop junk r).2.load < r.load) := by
  unfold libosMtcpPop
  rw [hreq]
  dsimp only
  cases junk with
  | true =>
    rw [if_pos rfl]
    unfold mtcpRead
    by_cases hnil : r.readable = []
    · rw [if_pos (.inl hnil)]
      refine ⟨hreq, Nat.le_refl _, fun hclean => ?_⟩
      rw [clean, hnil] at hclean
      exact absurd hclean Bool.noConfusion
    · rw [if_neg (not_or.mpr ⟨hnil, by decide⟩)]
      have hpos := length_pos_iff.mpr hnil
      have hdrop : (r.readable.drop 16).length < r.readable.length := by
        rw [length_drop]
        omega
      exact ⟨hreq, Nat.add_le_add_left (Nat.le_of_lt hdrop) _, fun _ => Nat.add_lt_add_left hdrop _⟩
  | false =>
    rw [if_neg Bool.false_ne_true]
    obtain ⟨hreq', ⟨hnil, heq⟩ | ⟨hret, hread⟩ | ⟨hwhole, sga, hret, hread⟩⟩ := popFrom_cases hreq
    · rw [heq]
      refine ⟨hreq, Nat.le_refl _, fun hclean => ?_⟩
      rw [clean, hnil] at hclean
      exact absurd hclean Bool.noConfusion
    · refine ⟨hreq', ?_, fun _ => ?_⟩
      · rw [Receiver.load, Receiver.load, hret]
        omega
      · rw [Receiver.load, Receiver.load, hret]
        omega
    · refine ⟨hreq', ?_, fun hclean => ?_⟩
      · rw [Receiver.load, Receiver.load, hret, weight_append]
        omega
      · rw [clean, hwhole] at hclean
        simp at hclean

theorem step_arrive (hfault : r.fault = none) (chunk : List UInt8) :
    step r (.arrive chunk) = { r with readable := r.readable ++ chunk } := by
  rw [step, if_neg (by simp [hfault])]

theorem step_pop (hfault : r.fault = none) (junk : Bool) :
    step r (.pop junk) = (libosMtcpPop junk r).2 := by
  rw [step, if_neg (by simp [hfault])]

theorem step_load (hreq : r.req = none) (e : Event) :
    (step r e).req = none ∧ (step r e).load ≤ r.load + (arrivals [e]).length ∧
      (r.fault = none → clean r e = false → (step r e).load < r.load + (arrivals [e]).length) := by
  cases hfault : r.fault with
  | some f =>
    unfold step
    rw [if_pos (by simp [hfault])]
    exact ⟨hreq, Nat.le_add_right _ _, nofun⟩
  | none =>
    cases e with
    | arrive chunk =>
      rw [step_arrive hfault]
      refine ⟨hreq, ?_, fun _ hclean => absurd hclean Bool.noConfusion⟩
      simp [Receiver.load, arrivals, Nat.add_assoc]
    | pop junk =>
      obtain ⟨hreq', hle, hlt⟩ := pop_load hreq junk
      rw [step_pop hfault]
      exact ⟨hreq', hle, fun _ => hlt⟩

theorem arrivals_cons (e : Event) (es : List Event) :
    (arrivals (e :: es)).length = (arrivals [e]).length + (arrivals es).length := by
  simp [arrivals]

theorem run_load (hreq : r.req = none) (es : List Event) :
    (run r es).req = none ∧ (run r es).load ≤ r.load + (arrivals es).length := by
  induction es generalizing r with
  | nil => exact ⟨hreq, Nat.le_refl _⟩
  | cons e es ih =>
    obtain ⟨hreq', hle, -⟩ := step_load hreq e
    obtain ⟨hreq'', hle'⟩ := ih hreq'
    refine ⟨hreq'', ?_⟩
    rw [arrivals_cons]
    change (run (step r e) es).load ≤ _
    omega

/-! Frames that are read whole. -/

theorem readBufs_body (hlen : ∀ buf ∈ sga, buf.length < 2 ^ 64) (pad : List UInt8) :
    readBufs sga.length (body sga ++ pad) = some sga := by
  induction sga with
  | nil => rfl
  | cons buf sga ih =>
    obtain ⟨hbuf, hrest⟩ := forall_mem_cons.mp hlen
    have hbody : body (buf :: sga) ++ pad = word buf.length ++ (buf ++ (body sga ++ pad)) := by
      rw [body, flatMap_cons, append_assoc, append_assoc, body]
    have htake : (word buf.length ++ (buf ++ (body sga ++ pad))).take 8 = word buf.length :=
      take_left' (length_word _)
    have hdrop : (word buf.length ++ (buf ++ (body sga ++ pad))).drop 8 =
        buf ++ (body sga ++ pad) := drop_left' (length_word _)
    rw [hbody, length_cons, readBufs, if_neg (by simp), htake, hdrop]
    rw [value_word hbuf, if_neg (by simp), drop_left, take_left, ih hrest, map_some]

theorem totalLen_le (hsmall : small sga) : totalLen sga ≤ 8200 * sga.length + 8 := by
  induction sga with
  | nil => exact Nat.le_refl _
  | cons buf sga ih =>
    rw [small, all_cons, and_eq_true, decide_eq_true_eq] at hsmall
    have hle := ih hsmall.2
    rw [totalLen, map_cons, sum_cons, length_cons]
    rw [totalLen] at hle
    omega

theorem readSga_frame (hsmall : small sga) (hnum : sga.length ≤ 10) :
    readSga (word sga.length ++ body sga) = some sga := by
  have hvalue : value (word sga.length) = sga.length := value_word (by omega)
  have hint : asInt sga.length = sga.length := asInt_of_lt (by omega)
  rw [readSga, if_neg (by simp), take_left' (length_word _), drop_left' (length_word _)]
  rw [hvalue, hint, if_neg (by omega), Int.toNat_natCast]
  have hlen : ∀ buf ∈ sga, buf.length < 2 ^ 64 := fun buf hbuf => by
    have := decide_eq_true_eq.mp (all_eq_true.mp hsmall buf hbuf)
    omega
  rw [← append_nil (body sga), readBufs_body hlen]

theorem popBody_frame {tail : List UInt8} (hsmall : small sga) (hnum : sga.length ≤ 10)
    (hreq : r.req = none) (hheap : 100000 ≤ r.heap)
    (hread : r.readable = word sga.length ++ body sga ++ tail) :
    (popBody (word magic ++ word (totalLen sga)) r).2 = { r with
      readable := tail
      walked := r.walked ++ [frame sga]
      returned := r.returned ++ [sga] } := by
  have hbody := length_body sga
  have htotal := totalLen_le hsmall
  have hlen : (word sga.length ++ body sga).length = totalLen sga := by
    rw [length_append, length_word]
    omega
  have hmagic : value (word magic) = magic := value_word (by decide)
  have hvalue : value (word (totalLen sga)) = totalLen sga := value_word (by omega)
  have hhdr : (word magic ++ word (totalLen sga)).length = 16 := by simp
  have hwant : (16 + totalLen sga) % 2 ^ 64 = 16 + totalLen sga := Nat.mod_eq_of_lt (by omega)
  rw [popBody, take_left' (length_word _), if_neg (not_not.mpr hmagic),
    drop_left' (length_word _), take_of_length_le (Nat.le_of_eq (length_word _)), hvalue,
    hwant]
  dsimp only
  rw [if_neg (by omega), readUpTo_append (by omega) hread (by omega) (by omega)]
  dsimp only
  rw [drop_left' hhdr, readSga_frame hsmall hnum]
  simp [hreq, frame]

theorem libosMtcpPop_of_none (hreq : r.req = none) : libosMtcpPop false r = popFrom [] r := by
  rw [libosMtcpPop, hreq]
  rfl

theorem pop_frame {tail : List UInt8} (hsmall : small sga) (hnum : sga.length ≤ 10)
    (hreq : r.req = none) (hheap : 100000 ≤ r.heap) (hread : r.readable = frame sga ++ tail) :
    (libosMtcpPop false r).2 = { r with
      readable := tail
      walked := r.walked ++ [frame sga]
      returned := r.returned ++ [sga] } := by
  have hsplit : r.readable =
      (word magic ++ word (totalLen sga)) ++ (word sga.length ++ body sga ++ tail) := by
    rw [hread, frame]
    simp only [append_assoc]
  rw [libosMtcpPop_of_none hreq, popFrom, readUpTo_append (by decide) hsplit (by simp)
    (by decide), nil_append]
  exact popBody_frame (r := { r with readable := word sga.length ++ body sga ++ tail })
    hsmall hnum hreq hheap rfl

/-! Runs in which no frame is torn. -/

/-- The arrays of the frames that are not yet read, in the bytes ready and to come. -/
structure Aligned (sgas rest : List Sga) (future : List UInt8) (r : Receiver) : Prop where
  fault : r.fault = none
  req : r.req = none
  heap : 100000 ≤ r.heap
  returned : r.returned ++ rest = sgas
  stream : r.readable ++ future = rest.flatMap frame

theorem Aligned.load {sgas rest : List Sga} {future : List UInt8} (h : Aligned sgas rest future r) :
    r.load + future.length = weight sgas := by
  have hlen := congrArg length h.stream
  rw [length_append] at hlen
  rw [← h.returned, weight, map_append, sum_append, Receiver.load, weight, Nat.add_assoc,
    hlen, length_flatMap]

theorem Aligned.frame_of_whole {sgas rest : List Sga} {future : List UInt8}
    (h : Aligned sgas rest future r) (hok : ∀ sga ∈ rest, small sga ∧ sga.length ≤ 10)
    (hwhole : wholeFrame r.readable) :
    ∃ sga rest' tail, rest = sga :: rest' ∧ r.readable = frame sga ++ tail := by
  simp only [wholeFrame, and_eq_true, decide_eq_true_eq] at hwhole
  cases rest with
  | nil =>
    have hlen := congrArg length h.stream
    rw [length_append, flatMap_nil, length_nil] at hlen
    omega
  | cons sga rest =>
    have htotal := totalLen_le (hok sga ((.head _) ..)).1
    have hnum := (hok sga ((.head _) ..)).2
    -- The length field that is ready is the one of the frame.
    have hfield : (r.readable.drop 8).take 8 = word (totalLen sga) := by
      have htake : ((r.readable ++ future).drop 8).take 8 = (r.readable.drop 8).take 8 := by
        rw [drop_append_of_le_length (by omega), take_append_of_le_length]
        rw [length_drop]
        omega
      rw [← htake, h.stream, flatMap_cons, frame]
      simp only [append_assoc]
      rw [drop_left' (length_word _), take_left' (length_word _)]
    rw [hfield, value_word (by omega), ← length_frame] at hwhole
    have hpre : r.readable.take (frame sga).length = frame sga := by
      have htake := congrArg (take (frame sga).length) h.stream
      rw [take_append_of_le_length hwhole.2, flatMap_cons, take_left] at htake
      exact htake
    refine ⟨sga, rest, r.readable.drop (frame sga).length, rfl, ?_⟩
    conv_lhs => rw [← take_append_drop (frame sga).length r.readable, hpre]

theorem step_pop_nil (hfault : r.fault = none) (hreq : r.req = none) (hnil : r.readable = [])
    (junk : Bool) : step r (.pop junk) = r := by
  rw [step_pop hfault]
  cases junk with
  | true => simp [libosMtcpPop, hreq, mtcpRead, hnil]
  | false =>
    rw [libosMtcpPop_of_none hreq]
    obtain ⟨-, ⟨-, heq⟩ | ⟨-, hlt⟩ | ⟨hwhole, -⟩⟩ := popFrom_cases hreq
    · exact heq
    · rw [hnil] at hlt
      exact absurd hlt (Nat.not_lt_zero _)
    · rw [hnil] at hwhole
      exact absurd hwhole (by decide)

theorem aligned_step {sgas rest : List Sga} {e : Event} {es : List Event}
    (h : Aligned sgas rest (arrivals (e :: es)) r)
    (hok : ∀ sga ∈ rest, small sga ∧ sga.length ≤ 10) (hclean : clean r e) :
    ∃ rest', rest' <:+ rest ∧ Aligned sgas rest' (arrivals es) (step r e) := by
  cases e with
  | arrive chunk =>
    rw [step_arrive h.fault]
    refine ⟨rest, suffix_refl _, h.fault, h.req, h.heap, h.returned, ?_⟩
    rw [← h.stream]
    exact append_assoc _ _ _
  | pop junk =>
    have hfuture : arrivals (.pop junk :: es) = arrivals es := by
      rw [arrivals, flatMap_cons, nil_append, arrivals]
    rw [hfuture] at h
    by_cases hnil : r.readable = []
    · rw [step_pop_nil h.fault h.req hnil]
      exact ⟨rest, suffix_refl _, h⟩
    · have hwhole : junk = false ∧ wholeFrame r.readable := by
        simpa [clean, hnil] using hclean
      obtain ⟨sga, rest', tail, rfl, hread⟩ := h.frame_of_whole hok hwhole.2
      have hsga := hok sga ((.head _) ..)
      rw [step_pop h.fault, hwhole.1, pop_frame hsga.1 hsga.2 h.req h.heap hread]
      refine ⟨rest', suffix_cons sga rest', h.fault, h.req, h.heap, ?_, ?_⟩
      · rw [append_assoc]
        exact h.returned
      · have hstream := h.stream
        rw [hread, flatMap_cons, append_assoc] at hstream
        exact append_cancel_left hstream

/-- Without a torn frame a run keeps to the frames; the first torn one is never made up for. -/
theorem aligned_run {sgas rest : List Sga} {es : List Event} (h : Aligned sgas rest (arrivals es) r)
    (hok : ∀ sga ∈ rest, small sga ∧ sga.length ≤ 10) :
    (Along step (fun r e => clean r e) r es ∧ ∃ rest', rest' <:+ rest ∧
      Aligned sgas rest' [] (run r es)) ∨
    (¬ Along step (fun r e => clean r e) r es ∧ (run r es).load < weight sgas) := by
  induction es generalizing r rest with
  | nil => exact .inl ⟨trivial, rest, suffix_refl _, h⟩
  | cons e es ih =>
    by_cases hclean : clean r e
    · obtain ⟨rest', hsuffix, h'⟩ := aligned_step h hok hclean
      obtain ⟨hall, rest'', hsuffix', h''⟩ | ⟨hnot, hlt⟩ := ih h' fun sga hsga =>
        hok sga (hsuffix.subset hsga)
      · exact .inl ⟨⟨hclean, hall⟩, rest'', hsuffix'.trans hsuffix, h''⟩
      · exact .inr ⟨fun hall => hnot hall.2, hlt⟩
    · have hload := h.load
      obtain ⟨hreq, -, hlt⟩ := step_load h.req e
      have hlt := hlt h.fault (eq_false_iff.mpr hclean)
      have hle := (run_load hreq es).2
      rw [arrivals_cons] at hload
      refine .inr ⟨fun hall => hclean hall.1, ?_⟩
      change (run (step r e) es).load < weight sgas
      omega

theorem arrivals_pops (n : Nat) : arrivals (replicate n (.pop false)) = [] := by
  induction n with
  | zero => rfl
  | succ n ih => exact ih

theorem pops_return_all {sgas rest : List Sga} (h : Aligned sgas rest [] r)
    (hok : ∀ sga ∈ rest, small sga ∧ sga.length ≤ 10) {n : Nat} (hn : rest.length ≤ n) :
    (run r (replicate n (.pop false))).returned = sgas := by
  induction n generalizing r rest with
  | zero =>
    obtain rfl := length_eq_zero_iff.mp (Nat.le_zero.mp hn)
    rw [← h.returned, append_nil]
    rfl
  | succ n ih =>
    rw [replicate_succ]
    change (run (step r (.pop false)) _).returned = sgas
    have hstream := h.stream
    rw [append_nil] at hstream
    cases rest with
    | nil =>
      rw [step_pop_nil h.fault h.req hstream]
      exact ih h hok (Nat.zero_le n)
    | cons sga rest =>
      have hsga := hok sga ((.head _) ..)
      rw [step_pop h.fault, pop_frame hsga.1 hsga.2 h.req h.heap hstream]
      refine ih ⟨h.fault, h.req, h.heap, ?_, append_nil _⟩
        (fun sga' hsga' => hok sga' (.tail _ hsga')) (Nat.le_of_succ_le_succ hn)
      rw [append_assoc]
      exact h.returned

/-! The bytes of a list of pushes, each with the room it finds in the send buffer. -/

def sent (pushes : List (Nat × Sga)) : List UInt8 :=
  pushes.flatMap fun p => (libosMtcpPush p.2 { room := p.1 }).2.sent

theorem sent_small {pushes : List (Nat × Sga)}
    (hroom : ∀ p ∈ pushes, (frame p.2).length ≤ p.1) (hsmall : ∀ p ∈ pushes, small p.2) :
    sent pushes = (pushes.map snd).flatMap frame := by
  induction pushes with
  | nil => rfl
  | cons p pushes ih =>
    have hp := libosMtcpPush_small (s := { room := p.1 }) (hsmall p ((.head _) ..))
      (hroom p ((.head _) ..))
    rw [sent, flatMap_cons, hp, nil_append, map_cons, flatMap_cons]
    congr 1
    exact ih (fun q hq => hroom q (.tail _ hq)) fun q hq => hsmall q (.tail _ hq)

theorem sent_length_le {pushes : List (Nat × Sga)}
    (hroom : ∀ p ∈ pushes, (frame p.2).length ≤ p.1) :
    (sent pushes).length ≤ weight (pushes.map snd) ∧ ((∃ p ∈ pushes, small p.2 = false) →
        (sent pushes).length < weight (pushes.map snd)) := by
  induction pushes with
  | nil => exact ⟨Nat.le_refl _, fun ⟨p, hp, _⟩ => absurd hp not_mem_nil⟩
  | cons p pushes ih =>
    obtain ⟨hle, hlt⟩ := ih fun q hq => hroom q (.tail _ hq)
    have hroomp := hroom p ((.head _) ..)
    have hsent : (sent (p :: pushes)).length =
        (libosMtcpPush p.2 { room := p.1 }).2.sent.length + (sent pushes).length := by
      rw [sent, flatMap_cons, length_append, sent]
    have hweight : weight ((p :: pushes).map snd) =
        (frame p.2).length + weight (pushes.map snd) := by
      rw [weight, map_cons, map_cons, sum_cons, weight]
    rw [hsent, hweight]
    cases hp : small p.2 with
    | true =>
      have hpush := congrArg (·.2.sent.length)
        (libosMtcpPush_small (s := { room := p.1 }) hp hroomp)
      dsimp only at hpush
      rw [nil_append] at hpush
      refine ⟨by omega, fun ⟨q, hq, hlarge⟩ => ?_⟩
      obtain rfl | hq := mem_cons.mp hq
      · exact absurd (hp.symm.trans hlarge) Bool.noConfusion
      · have := hlt ⟨q, hq, hlarge⟩
        omega
    | false =>
      have hpush := libosMtcpPush_large (s := { room := p.1 }) hp hroomp
      rw [length_nil, Nat.zero_add] at hpush
      exact ⟨by omega, fun _ => by omega⟩

/-- The arrays that are pushed come out again, however the stream is cut, exactly if no buffer is
larger than `MTCP_SNDBUF_SIZE` and no pop finds a part of a frame, or a record with a buffer by
chance, when there is something to read. -/
theorem framing_round_trip_iff (pushes : List (Nat × Sga))
    (hpushes : ∀ p ∈ pushes, p.2.length ≤ 10 ∧ (frame p.2).length ≤ p.1)
    (es : List Event) (hes : arrivals es = sent pushes) :
    (run {} (es ++ List.replicate pushes.length (.pop false))).returned = pushes.map Prod.snd ↔
      (∀ p ∈ pushes, small p.2 = true) ∧ Along step (fun r e => clean r e = true) {} es := by
  have hroom : ∀ p ∈ pushes, (frame p.2).length ≤ p.1 := fun p hp => (hpushes p hp).2
  have hrun : run {} (es ++ List.replicate pushes.length (.pop false)) =
      run (run {} es) (List.replicate pushes.length (.pop false)) := List.foldl_append
  have hes' := run_load (r := {}) rfl es
  have hpops := (run_load hes'.1 (List.replicate pushes.length (.pop false))).2
  rw [← hrun, arrivals_pops, List.length_nil, Nat.add_zero] at hpops
  -- What was returned weighs no more than what arrived and was not lost.
  have hweight : (run {} (es ++ List.replicate pushes.length (.pop false))).returned =
      pushes.map Prod.snd → weight (pushes.map Prod.snd) ≤ (run {} es).load := fun hret =>
    Nat.le_trans (hret ▸ Nat.le_add_right _ _) hpops
  by_cases hsmall : ∀ p ∈ pushes, small p.2 = true
  · have hstart : Aligned (pushes.map Prod.snd) (pushes.map Prod.snd) (arrivals es) {} :=
      ⟨rfl, rfl, by decide, rfl, hes.trans (sent_small hroom hsmall)⟩
    have hok : ∀ sga ∈ pushes.map Prod.snd, small sga = true ∧ sga.length ≤ 10 := by
      intro sga hsga
      obtain ⟨p, hp, rfl⟩ := List.mem_map.mp hsga
      exact ⟨hsmall p hp, (hpushes p hp).1⟩
    obtain ⟨hall, rest, hsuffix, h⟩ | ⟨hnot, hlt⟩ := aligned_run hstart hok
    · refine ⟨fun _ => ⟨hsmall, hall⟩, fun _ => ?_⟩
      rw [hrun]
      refine pops_return_all h (fun sga hsga => hok sga (hsuffix.subset hsga)) ?_
      have hle := hsuffix.length_le
      rw [List.length_map] at hle
      exact hle
    · exact ⟨fun hret => absurd (hweight hret) (Nat.not_le.mpr hlt), fun h => absurd h.2 hnot⟩
  · refine ⟨fun hret => ?_, fun h => absurd h.1 hsmall⟩
    have hlarge : ∃ p ∈ pushes, small p.2 = false := by
      simpa using hsmall
    have hlt := (sent_length_le hroom).2 hlarge
    have hle := hweight hret
    have hload := hes'.2
    rw [hes] at hload
    have hzero : (({} : Receiver)).load = 0 := rfl
    omega

/-- Two arrays; their frames of 43 and 34 bytes arrive in two chunks, the first of which ends
inside the second frame. -/
def twoArrays : List (Nat × Sga) := [(100, [[1, 2], [3]]), (57, [[4, 5]])]

theorem chunks_of_whole_frames_round_trip :
    (run {} ([.pop true, .arrive ((sent twoArrays).take 60), .pop false,
      .arrive ((sent twoArrays).drop 60), .pop false] ++
        List.replicate twoArrays.length (.pop false))).returned = [[[1, 2], [3]], [[4, 5]]] :=
  (framing_round_trip_iff twoArrays (by decide) _ (by decide +kernel)).mpr
    ⟨by decide, by decide +kernel⟩

/-- A pop after ten bytes of the first frame takes them with it. The next one does not find the
magic number and ends the process. -/
theorem torn_header_ends_the_process :
    let r := run {} ([.arrive ((sent twoArrays).take 10), .pop false,
      .arrive ((sent twoArrays).drop 10)] ++ List.replicate twoArrays.length (.pop false))
    r.returned = [] ∧ r.fault = some .badMagic ∧ r.returned ≠ twoArrays.map Prod.snd := by
  decide +kernel

end Mtcp.Libos
