import Mtcp.OptionParser

namespace Mtcp.Options

open Cursor List

/-! The two parsers compared, and the options the stack itself writes. -/

/-- A timestamp that a parser takes when it comes by. -/
def StampAt (seg : Segment) (i : Nat) : Prop :=
  i < seg.opts.length ∧ byteAt seg i = optTimestamp ∧
    i + (byteAt seg (i + 1)).toNat ≤ seg.opts.length

instance (seg : Segment) (i : Nat) : Decidable (StampAt seg i) :=
  inferInstanceAs (Decidable (_ ∧ _ ∧ _))

/-- The area ends at a place, or there is no timestamp from it on. -/
def Silent (seg : Segment) (i : Nat) : Prop :=
  byteAt seg i = optEnd ∨ ∀ k, i ≤ k → ¬ StampAt seg k

inductive TcpOption where
  | nop
  | stamp (val echo : UInt32)
  | other (kind : UInt8) (data : List UInt8)

namespace TcpOption

def bytes : TcpOption → List UInt8
  | .nop => [optNop]
  | .stamp val echo => [optTimestamp, 10] ++ htonl val ++ htonl echo
  | .other kind data => kind :: UInt8.ofNat (data.length + 2) :: data

def val? : TcpOption → Option UInt32
  | .stamp val _ => some val
  | _ => none

/-- An option has the length it declares, and if its kind has a size, that one. -/
def Sized : TcpOption → Prop
  | .other kind data => kind ∉ timestampKinds ∧ data.length + 2 < 256 ∧
    (kind = optMss → data.length = 2) ∧ (kind = optWscale → data.length = 1) ∧
      (kind = optSackPermit → data.length = 0)
  | _ => True

end TcpOption

def stamps (os : List TcpOption) : List UInt32 := os.filterMap TcpOption.val?

theorem word_of_bytes (x : UInt32) :
    ((x >>> 24).toUInt8.toUInt32 <<< 24) + ((x >>> 16).toUInt8.toUInt32 <<< 16) +
      ((x >>> 8).toUInt8.toUInt32 <<< 8) + x.toUInt8.toUInt32 = x := by
  apply UInt32.toNat_inj.mp
  have hlt := x.toNat_lt
  simp [Nat.shiftLeft_eq, Nat.shiftRight_eq_div_pow]
  omega

variable {curTs : UInt32} {seg : Segment} {s t : TcpStream} {i fuel : Nat}
  {r : Option (UInt32 × UInt32)}

theorem Silent.next {advance : UInt8 → Nat → Option Nat} {j : Nat} (h : Silent seg i)
    (hnext : cursorNext advance seg i = some j) : Silent seg j := by
  obtain hend | hnone := h
  · rw [cursorNext, if_pos hend, ite_self] at hnext
    cases hnext
  · exact .inr fun k hk => hnone k ((cursorNext_mono i j hnext).trans hk)

variable {o : TcpOption} {pre rest : List UInt8}

variable {os : List TcpOption}

theorem mss_of_bytes (mss : UInt16) :
    ((mss >>> 8).toUInt8.toUInt16 <<< 8) + (mss % 256).toUInt8.toUInt16 = mss := by
  apply UInt16.toNat_inj.mp
  have hlt := mss.toNat_lt
  simp [Nat.shiftLeft_eq, Nat.shiftRight_eq_div_pow]
  omega

def synFlag (flags : UInt8) : Bool := flags &&& 0x02 != 0

/-- What the stack writes into the option area has the length it has calculated, and both parsers
read it back, whatever follows it. -/
theorem options_round_trip (s t : TcpStream) (env : Env) (seg : Segment) (curTs : UInt32)
    (flags : UInt8) :
    (generateTCPOptions s curTs (synFlag flags)).length = calculateOptionLength (synFlag flags) ∧
      calculateOptionLength (synFlag flags) % 4 = 0 ∧
      parseTCPOptions env { seg with opts := generateTCPOptions s curTs true } t = { t with
        sawTimestamp := true
        sndvar.mss := s.sndvar.mss
        sndvar.effMss := s.sndvar.mss - 12
        sndvar.wscalePeer := s.sndvar.wscaleMine
        rcvvar.tsRecent := curTs
        rcvvar.tsLastTsUpd := env.curTs } ∧
      parseTCPTimestamp { seg with opts := generateTCPOptions s curTs (synFlag flags) } =
        some (some (curTs, s.rcvvar.tsRecent)) := by
  refine ⟨?_, ?_, ?_, ?_⟩
  · cases synFlag flags <;> rfl
  · cases synFlag flags <;> rfl
  · have hmss := mss_of_bytes s.sndvar.mss
    have hts := word_of_bytes curTs
    conv_rhs => rw [← hmss, ← hts]
    rfl
  · have hval := word_of_bytes curTs
    have hecho := word_of_bytes s.rcvvar.tsRecent
    conv_rhs => rw [← hval, ← hecho]
    cases synFlag flags <;> rfl

end Mtcp.Options
