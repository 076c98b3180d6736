import Mtcp.ControlPass
import Mtcp.Routing

namespace Mtcp.Arp

open Routing List UInt32 Option

/-! The lookup of a hardware address, and what received packets add to the table. -/

variable {dip : UInt32} {es es' : List ArpEntry} {e : ArpEntry}

def matching (dip : UInt32) (e : ArpEntry) : Bool := dip &&& e.ipMask == e.ipMasked

/-- An entry as `EnrollARPTableEntry` and `RegisterARPEntry` make it. -/
structure WellFormed (e : ArpEntry) : Prop where
  nonneg : 0 ≤ e.prefixLen
  le : e.prefixLen ≤ 32
  mask : e.ipMask = maskFromPrefix e.prefixLen.toNat
  masked : e.ipMasked = e.ip &&& e.ipMask

def Longest (dip : UInt32) (es : List ArpEntry) (e : ArpEntry) : Prop :=
  e ∈ es ∧ matching dip e ∧ ∀ e' ∈ es, matching dip e' → e'.prefixLen ≤ e.prefixLen

/-- The address of a longest match is found, and none iff there is no match. -/
def LongestFound (arp : ArpTable) (dip : UInt32) : Prop :=
  (∀ haddr, getDestinationHWaddr arp dip false = some haddr →
    ∃ e, Longest dip arp.entry e ∧ e.haddr = haddr) ∧
  (getDestinationHWaddr arp dip false = none ↔ ∀ e ∈ arp.entry, ¬matching dip e)

def Reordered (es es' : List ArpEntry) : Prop :=
  es'.Perm es ∧ ∀ n : Int, es'.filter (·.prefixLen == n) = es.filter (·.prefixLen == n)

def hostEntry (dip : UInt32) (es : List ArpEntry) : Option ArpEntry :=
  (es.filter (·.prefixLen == 1)).find? (·.ip == dip)

/-- The first such entry agrees with a longest match, or all longest matches are longer. -/
def Decisive (dip : UInt32) (es : List ArpEntry) : Prop :=
  match hostEntry dip es with
  | some h => ∃ e, Longest dip es e ∧ e.haddr = h.haddr
  | none => ∀ e, Longest dip es e → 2 ≤ e.prefixLen

/-! The search. -/

section Search

variable {x : ArpEntry} {best : Int} {haddr : Option (List UInt8)}

theorem hostEntry_eq_none : hostEntry dip es = none ↔ ∀ e ∈ es, e.prefixLen = 1 → e.ip ≠ dip := by
  simp [hostEntry]

theorem matchEntries_host (h : hostEntry dip es = some e) :
    matchEntries dip es best haddr = some e.haddr := by
  induction es generalizing best haddr with
  | nil => exact absurd h nofun
  | cons x es ih =>
    unfold matchEntries
    by_cases hone : x.prefixLen = 1
    · by_cases hip : x.ip = dip
      · obtain rfl : x = e := by simpa [hostEntry, hone, hip] using h
        rw [if_pos hone, if_pos hip]
      · rw [if_pos hone, if_neg hip]
        exact ih (by simpa [hostEntry, hone, hip] using h)
    · have hes : hostEntry dip es = some e := by simpa [hostEntry, hone] using h
      rw [if_neg hone]
      split
      · exact ih hes
      · exact ih hes

theorem matchEntries_skip (hhost : x.prefixLen = 1 → x.ip ≠ dip)
    (hle : x.prefixLen ≠ 1 → matching dip x → x.prefixLen ≤ best) :
    matchEntries dip (x :: es) best haddr = matchEntries dip es best haddr := by
  rw [matchEntries]
  by_cases hone : x.prefixLen = 1
  · rw [if_pos hone, if_neg (hhost hone)]
  · rw [if_neg hone, if_neg]
    rintro ⟨hm, hlt⟩
    exact absurd (hle hone (beq_iff_eq.mpr hm)) (Int.not_le.mpr hlt)

theorem matchEntries_take (hone : x.prefixLen ≠ 1) (hm : matching dip x)
    (hlt : best < x.prefixLen) :
    matchEntries dip (x :: es) best haddr = matchEntries dip es x.prefixLen (some x.haddr) := by
  rw [matchEntries, if_neg hone, if_pos ⟨beq_iff_eq.mp hm, hlt⟩]

/-- The entry that the loop ends with: the first of the greatest length. -/
structure Chosen (dip : UInt32) (es : List ArpEntry) (e : ArpEntry) : Prop where
  first : (es.filter (·.prefixLen == e.prefixLen)).find? (matching dip) = some e
  ne_one : e.prefixLen ≠ 1
  greatest : ∀ e' ∈ es, e'.prefixLen ≠ 1 → matching dip e' → e'.prefixLen ≤ e.prefixLen

theorem Chosen.mem (h : Chosen dip es e) : e ∈ es ∧ matching dip e :=
  ⟨(mem_filter.mp (mem_of_find?_eq_some h.first)).1, find?_some h.first⟩

theorem Chosen.head (hone : x.prefixLen ≠ 1) (hm : matching dip x)
    (hle : ∀ e ∈ es, e.prefixLen ≠ 1 → matching dip e → e.prefixLen ≤ x.prefixLen) :
    Chosen dip (x :: es) x := by
  refine ⟨by simp [hm], hone, fun e he hone' hm' => ?_⟩
  obtain rfl | he := mem_cons.mp he
  · exact Int.le_refl _
  · exact hle e he hone' hm'

theorem Chosen.tail (h : Chosen dip es e)
    (hlt : x.prefixLen ≠ 1 → matching dip x → x.prefixLen < e.prefixLen) :
    Chosen dip (x :: es) e := by
  refine ⟨?_, h.ne_one, fun e' he hone hm => ?_⟩
  · by_cases heq : x.prefixLen = e.prefixLen
    · have hm : ¬matching dip x := fun hm => by
        have := hlt (heq ▸ h.ne_one) hm
        omega
      simpa [heq, hm] using h.first
    · simpa [heq] using h.first
  · obtain rfl | he := mem_cons.mp he
    · exact (hlt hone hm).le
    · exact h.greatest e' he hone hm

theorem matchEntries_scan (h : hostEntry dip es = none) : (matchEntries dip es best haddr = haddr ∧
      ∀ e ∈ es, e.prefixLen ≠ 1 → matching dip e → e.prefixLen ≤ best) ∨
    ∃ e, Chosen dip es e ∧ best < e.prefixLen ∧ matchEntries dip es best haddr = some e.haddr := by
  induction es generalizing best haddr with
  | nil => exact .inl ⟨rfl, nofun⟩
  | cons x es ih =>
    have hnone := hostEntry_eq_none.mp h
    have hhost := hnone x (.head _)
    have hes := hostEntry_eq_none.mpr fun y hy => hnone y (.tail _ hy)
    by_cases htake : x.prefixLen ≠ 1 ∧ matching dip x ∧ best < x.prefixLen
    · obtain ⟨hone, hm, hlt⟩ := htake
      rw [matchEntries_take hone hm hlt]
      right
      obtain ⟨hr, hle⟩ | ⟨e, he, hgt, hr⟩ := ih hes
      · exact ⟨x, .head hone hm hle, hlt, hr⟩
      · exact ⟨e, he.tail fun _ _ => hgt, hlt.trans hgt, hr⟩
    · have hskip : x.prefixLen ≠ 1 → matching dip x → x.prefixLen ≤ best := fun hone hm =>
        Int.not_lt.mp fun hlt => htake ⟨hone, hm, hlt⟩
      rw [matchEntries_skip hhost hskip]
      obtain ⟨hr, hle⟩ | ⟨e, he, hgt, hr⟩ := ih hes
      · refine .inl ⟨hr, fun e he => ?_⟩
        obtain rfl | he := mem_cons.mp he
        · exact hskip
        · exact hle e he
      · exact .inr ⟨e, he.tail fun hone hm => (hskip hone hm).trans_lt hgt, hgt, hr⟩

end Search

/-! Longest match. -/

theorem lookup_cases (h : hostEntry dip es = none) : (matchEntries dip es 0 none = none ∧
      ∀ e ∈ es, e.prefixLen ≠ 1 → matching dip e → e.prefixLen ≤ 0) ∨
    ∃ e, Chosen dip es e ∧ 0 < e.prefixLen ∧ matchEntries dip es 0 none = some e.haddr :=
  matchEntries_scan h

theorem Reordered.symm (h : Reordered es es') : Reordered es' es :=
  ⟨h.1.symm, fun n => (h.2 n).symm⟩

theorem Reordered.hostEntry_eq (h : Reordered es es') : hostEntry dip es' = hostEntry dip es :=
  congrArg (find? fun e : ArpEntry => e.ip == dip) (h.2 1)

theorem Reordered.chosen (h : Reordered es es') (he : Chosen dip es e) : Chosen dip es' e :=
  ⟨(congrArg (find? (matching dip)) (h.2 e.prefixLen)).trans he.first, he.ne_one,
    fun e' he' => he.greatest e' (h.1.subset he')⟩

theorem Chosen.unique (h : Chosen dip es e) {e' : ArpEntry} (h' : Chosen dip es e') : e = e' := by
  have hle := h.greatest e' h'.mem.1 h'.ne_one h'.mem.2
  have hge := h'.greatest e h.mem.1 h.ne_one h.mem.2
  have hfirst := h.first
  rw [Int.le_antisymm hge hle, h'.first] at hfirst
  exact (some.inj hfirst).symm

theorem Reordered.lookup_of_chosen (h : Reordered es es') (hhost : hostEntry dip es = none)
    (he : Chosen dip es e) (hpos : 0 < e.prefixLen) :
    matchEntries dip es' 0 none = some e.haddr := by
  obtain ⟨-, hle⟩ | ⟨e', he', -, hr⟩ := lookup_cases (h.hostEntry_eq.trans hhost)
  · have := hle e (h.1.symm.subset he.mem.1) he.ne_one he.mem.2
    omega
  · rw [hr, (h.chosen he).unique he']

theorem matchEntries_reordered (h : Reordered es es') :
    matchEntries dip es' 0 none = matchEntries dip es 0 none := by
  cases hhost : hostEntry dip es with
  | some e => rw [matchEntries_host hhost, matchEntries_host (h.hostEntry_eq.trans hhost)]
  | none =>
    obtain ⟨hr, -⟩ | ⟨e, he, hpos, hr⟩ := lookup_cases hhost
    · obtain ⟨hr', -⟩ | ⟨e', he', hpos', -⟩ := lookup_cases (h.hostEntry_eq.trans hhost)
      · rw [hr, hr']
      · rw [h.symm.lookup_of_chosen (h.hostEntry_eq.trans hhost) he' hpos'] at hr
        exact absurd hr nofun
    · rw [hr, h.lookup_of_chosen hhost he hpos]

theorem Longest.exists (he : e ∈ es) (hm : matching dip e) : ∃ e, Longest dip es e := by
  have hne : es.filter (matching dip) ≠ [] := ne_nil_of_mem (mem_filter.mpr ⟨he, hm⟩)
  obtain ⟨m, hmem, hmax⟩ := exists_greatest ArpEntry.prefixLen hne
  obtain ⟨hmem, hm⟩ := mem_filter.mp hmem
  exact ⟨m, hmem, hm, fun e' he' hm' => hmax e' (mem_filter.mpr ⟨he', hm'⟩)⟩

theorem Chosen.longest (h : Chosen dip es e) (hpos : 0 < e.prefixLen) : Longest dip es e := by
  refine ⟨h.mem.1, h.mem.2, fun e' he' hm' => ?_⟩
  by_cases hone : e'.prefixLen = 1
  · omega
  · exact h.greatest e' he' hone hm'

variable {arp : ArpTable}

theorem longestFound_of_host (hwf : ∀ e ∈ arp.entry, WellFormed e)
    (hhost : hostEntry dip arp.entry = some e) :
    LongestFound arp dip ↔ ∃ e', Longest dip arp.entry e' ∧ e'.haddr = e.haddr := by
  have hr : getDestinationHWaddr arp dip false = some e.haddr := matchEntries_host hhost
  obtain ⟨he, -⟩ := mem_filter.mp (mem_of_find?_eq_some hhost)
  have hip : e.ip = dip := by simpa using find?_some hhost
  have hm : matching dip e := by simp [matching, (hwf e he).masked, hip]
  unfold LongestFound
  rw [hr]
  refine ⟨fun h => h.1 _ rfl, fun h => ⟨fun haddr heq => ?_, nofun, fun hnone => ?_⟩⟩
  · injection heq with heq
    exact heq ▸ h
  · exact absurd hm (hnone e he)

theorem longestFound_of_scan (hhost : hostEntry dip arp.entry = none) :
    LongestFound arp dip ↔ ∀ e, Longest dip arp.entry e → 2 ≤ e.prefixLen := by
  change (∀ haddr, matchEntries dip arp.entry 0 none = some haddr → _) ∧
    (matchEntries dip arp.entry 0 none = none ↔ _) ↔ _
  obtain ⟨hr, hle⟩ | ⟨e, he, hpos, hr⟩ := lookup_cases hhost
  · rw [hr]
    constructor
    · rintro ⟨-, hnone⟩ e ⟨he, hm, -⟩
      exact absurd hm (hnone.mp rfl e he)
    · refine fun hlong => ⟨nofun, fun _ e he hm => ?_, fun _ => rfl⟩
      obtain ⟨m, hmax⟩ := Longest.exists he hm
      have htwo := hlong m hmax
      have := hle m hmax.1 (by omega) hmax.2.1
      omega
  · rw [hr]
    have hne := he.ne_one
    refine ⟨fun _ m hmax => ?_, fun _ => ⟨fun haddr heq => ?_, nofun, fun hnone => ?_⟩⟩
    · have := hmax.2.2 e he.mem.1 he.mem.2
      omega
    · injection heq with heq
      exact ⟨e, he.longest hpos, heq⟩
    · exact absurd he.mem.2 (hnone e he.mem.1)

/-- The lookup is a longest match exactly in these tables; the order of entries of different
lengths never matters. -/
theorem arp_longest_match_iff (hwf : ∀ e ∈ arp.entry, WellFormed e) (dip : UInt32) :
    (LongestFound arp dip ↔ Decisive dip arp.entry) ∧
    ∀ es, Reordered arp.entry es →
      getDestinationHWaddr ⟨es, arp.gateway⟩ dip false = getDestinationHWaddr arp dip false := by
  refine ⟨?_, fun es h => matchEntries_reordered h⟩
  unfold Decisive
  cases hhost : hostEntry dip arp.entry with
  | some e => exact longestFound_of_host hwf hhost
  | none => exact longestFound_of_scan hhost

def staticEntry (ip : UInt32) (p : Nat) (haddr : List UInt8) : ArpEntry :=
  ⟨ip, p, maskFromPrefix p, ip &&& maskFromPrefix p, haddr⟩

theorem staticEntry_wellFormed (ip : UInt32) {p : Nat} (hp : p ≤ 32) (haddr : List UInt8) :
    WellFormed (staticEntry ip p haddr) :=
  ⟨Int.natCast_nonneg p, Int.ofNat_le.mpr hp, rfl, rfl⟩

theorem arp_longest_match_nested :
    LongestFound ⟨[staticEntry 0x0000000a 8 [1], staticEntry 0x0001000a 24 [2]], none⟩
      0x0701000a := by
  refine (arp_longest_match_iff (fun e he => ?_) _).1.mpr fun e he => ?_
  · obtain rfl | rfl := List.mem_pair.mp he
    · exact staticEntry_wellFormed _ (by decide) _
    · exact staticEntry_wellFormed _ (by decide) _
  · obtain rfl | rfl := List.mem_pair.mp he.1
    · decide
    · decide

/-- Neither 128.0.0.0/1 nor 0.0.0.0/0 is found for 192.0.0.1. -/
theorem arp_short_entries_missed :
    (∀ e ∈ [staticEntry 0x00000080 1 [1], staticEntry 0 0 [2]], WellFormed e) ∧
    getDestinationHWaddr ⟨[staticEntry 0x00000080 1 [1], staticEntry 0 0 [2]], none⟩ 0x010000c0
      false = none ∧
    ¬LongestFound ⟨[staticEntry 0x00000080 1 [1], staticEntry 0 0 [2]], none⟩ 0x010000c0 ∧
    ¬LongestFound ⟨[staticEntry 0 0 [2]], none⟩ 0x010000c0 := by
  refine ⟨fun e he => ?_, by decide, fun h => ?_, fun h => ?_⟩
  · obtain rfl | rfl := List.mem_pair.mp he
    · exact staticEntry_wellFormed _ (by decide) _
    · exact staticEntry_wellFormed _ (by decide) _
  · exact h.2.mp (by decide) _ List.mem_cons_self (by decide)
  · exact h.2.mp (by decide) _ List.mem_cons_self (by decide)

/-! What is learned from the network. -/

/-- An ARP packet; `arOp` is in host byte order. -/
structure ArpPacket where
  arOp : UInt16
  arSip : UInt32
  arSha : List UInt8
  arTip : UInt32

/-- The table, the addresses asked for, the answers sent and, not in the source, the indices that
`RegisterARPEntry` wrote to. -/
structure ArpState where
  table : ArpTable
  requests : List UInt32 := []
  replies : List (UInt32 × List UInt8) := []
  writes : List Nat := []

def registered (ip : UInt32) (haddr : List UInt8) : ArpEntry :=
  ⟨ip, 32, 0xffffffff, ip, haddr⟩

def registerARPEntry (gateway : Option RouteTable) (ip : UInt32) (haddr : List UInt8)
    (s : ArpState) : ArpState :=
  let e := registered ip haddr
  { s with
    table := ⟨s.table.entry ++ [e],
      if gateway.any fun g => g.daddr &&& e.ipMask == e.ipMasked then some e
      else s.table.gateway⟩
    writes := s.writes ++ [s.table.entry.length] }

def learn (gateway : Option RouteTable) (p : ArpPacket) (s : ArpState) : ArpState :=
  if (getDestinationHWaddr s.table p.arSip false).isNone then
    registerARPEntry gateway p.arSip p.arSha s
  else s

def processARPRequest (gateway : Option RouteTable) (p : ArpPacket) (s : ArpState) : ArpState :=
  let s := learn gateway p s
  { s with replies := s.replies ++ [(p.arSip, p.arSha)] }

def processARPReply (gateway : Option RouteTable) (p : ArpPacket) (s : ArpState) : ArpState :=
  let s := learn gateway p s
  { s with requests := s.requests.erase p.arSip }

def processARPPacket (eths : List EthTable) (gateway : Option RouteTable) (s : ArpState)
    (p : ArpPacket) : ArpState :=
  if !eths.any (p.arTip == ·.ipAddr) then s
  else if p.arOp = 1 then processARPRequest gateway p s
  else if p.arOp = 2 then processARPReply gateway p s
  else s

def processARPPackets (eths : List EthTable) (gateway : Option RouteTable) (s : ArpState)
    (ps : List ArpPacket) : ArpState :=
  ps.foldl (processARPPacket eths gateway) s

def ArpPacket.heard (eths : List EthTable) (p : ArpPacket) : Bool :=
  eths.any (p.arTip == ·.ipAddr) && (p.arOp == 1 || p.arOp == 2)

def strangers (eths : List EthTable) (arp : ArpTable) (ps : List ArpPacket) : List UInt32 :=
  (((ps.filter (·.heard eths)).map ArpPacket.arSip).filter
    fun ip => (getDestinationHWaddr arp ip false).isNone).dedup

/-! A packet registers its sender, if need be, and does nothing else to the table. -/

section Learning

variable {eths : List EthTable} {gateway : Option RouteTable} {s : ArpState} {p : ArpPacket}
  {arp : ArpTable}

theorem getDestinationHWaddr_host (arp : ArpTable) (dip : UInt32) :
    getDestinationHWaddr arp dip false = matchEntries dip arp.entry 0 none := rfl

theorem processARPPacket_heard (gateway : Option RouteTable) (s : ArpState) (h : p.heard eths) :
    (processARPPacket eths gateway s p).table = (learn gateway p s).table ∧
    (processARPPacket eths gateway s p).writes = (learn gateway p s).writes := by
  obtain ⟨hme, hop⟩ := Bool.and_eq_true_iff.mp h
  unfold processARPPacket
  rw [hme, if_neg (by decide)]
  by_cases hone : p.arOp = 1
  · rw [if_pos hone]
    exact ⟨rfl, rfl⟩
  · have htwo : p.arOp = 2 := by simpa [hone] using hop
    rw [if_neg hone, if_pos htwo]
    exact ⟨rfl, rfl⟩

theorem processARPPacket_other (h : ¬p.heard eths) : processARPPacket eths gateway s p = s := by
  unfold processARPPacket
  by_cases hme : eths.any (p.arTip == ·.ipAddr)
  · have hop : p.arOp ≠ 1 ∧ p.arOp ≠ 2 := by simpa [ArpPacket.heard, hme] using h
    rw [hme, if_neg (by decide), if_neg hop.1, if_neg hop.2]
  · rw [if_pos (by simpa using hme)]

theorem lookup_eq_none_iff : matchEntries dip es 0 none = none ↔
    (∀ e ∈ es, e.prefixLen = 1 → e.ip ≠ dip) ∧
    ∀ e ∈ es, e.prefixLen ≠ 1 → matching dip e → e.prefixLen ≤ 0 := by
  rw [← hostEntry_eq_none]
  cases hhost : hostEntry dip es with
  | some e => simp [matchEntries_host hhost]
  | none =>
    obtain ⟨hr, hle⟩ | ⟨e, he, hpos, hr⟩ := lookup_cases hhost
    · exact ⟨fun _ => ⟨rfl, hle⟩, fun _ => hr⟩
    · rw [hr]
      refine ⟨nofun, fun h => ?_⟩
      have := h.2 e he.mem.1 he.ne_one he.mem.2
      omega

theorem lookup_registered {ip : UInt32} {haddr : List UInt8} :
    matchEntries dip (es ++ [registered ip haddr]) 0 none = none ↔
      matchEntries dip es 0 none = none ∧ dip ≠ ip := by
  have hone : (registered ip haddr).prefixLen ≠ 1 := show (32 : Int) ≠ 1 by decide
  have hpos : ¬(registered ip haddr).prefixLen ≤ 0 := show ¬(32 : Int) ≤ 0 by decide
  have hall : dip &&& 0xffffffff = dip := and_neg_one
  have hm : matching dip (registered ip haddr) ↔ dip = ip := by
    simp [matching, registered, hall]
  rw [lookup_eq_none_iff, lookup_eq_none_iff]
  simp only [forall_mem_append, forall_mem_singleton, hm]
  tauto

/-- What is known of the table after the senders `ips` were heard: the entries `ms` were added
to it. -/
structure Learned (arp : ArpTable) (ips : List UInt32) (ms : List ArpEntry) (s : ArpState) :
    Prop where
  entry : s.table.entry = arp.entry ++ ms
  nodup : (ms.map ArpEntry.ip).Nodup
  mem : ∀ x, x ∈ ms.map ArpEntry.ip ↔ x ∈ ips ∧ matchEntries x arp.entry 0 none = none
  lookup : ∀ x, matchEntries x s.table.entry 0 none = none ↔
    matchEntries x arp.entry 0 none = none ∧ x ∉ ms.map ArpEntry.ip
  writes : s.writes = List.range' arp.entry.length ms.length

namespace Learned

variable {ips : List UInt32} {ms : List ArpEntry}

theorem start (arp : ArpTable) (requests : List UInt32) :
    Learned arp [] [] ⟨arp, requests, [], []⟩ :=
  ⟨(append_nil _).symm, nodup_nil, by simp, by simp, rfl⟩

theorem register (h : Learned arp ips ms s)
    (hnone : matchEntries p.arSip s.table.entry 0 none = none) :
    Learned arp (ips ++ [p.arSip]) (ms ++ [registered p.arSip p.arSha])
      (registerARPEntry gateway p.arSip p.arSha s) := by
  obtain ⟨harp, hnew⟩ := (h.lookup _).mp hnone
  have hmap : (ms ++ [registered p.arSip p.arSha]).map ArpEntry.ip =
      ms.map ArpEntry.ip ++ [p.arSip] := map_append
  refine ⟨?_, ?_, fun x => ?_, fun x => ?_, ?_⟩
  · change s.table.entry ++ [_] = _
    rw [h.entry, append_assoc]
  · rw [hmap, ← concat_eq_append]
    exact h.nodup.concat hnew
  · rw [hmap, mem_append, mem_append, h.mem, mem_singleton]
    constructor
    · rintro (⟨hx, hlookup⟩ | rfl)
      · exact ⟨.inl hx, hlookup⟩
      · exact ⟨.inr rfl, harp⟩
    · rintro ⟨hx | rfl, hlookup⟩
      · exact .inl ⟨hx, hlookup⟩
      · exact .inr rfl
  · change matchEntries x (s.table.entry ++ [registered p.arSip p.arSha]) 0 none = none ↔ _
    rw [lookup_registered, h.lookup, hmap, mem_append, mem_singleton]
    tauto
  · change s.writes ++ [s.table.entry.length] = _
    rw [h.writes, h.entry, length_append, length_append, length_singleton, range'_1_concat]

theorem learn (h : Learned arp ips ms s) (gateway : Option RouteTable) (p : ArpPacket) :
    ∃ ms, Learned arp (ips ++ [p.arSip]) ms (learn gateway p s) := by
  unfold Arp.learn
  rw [getDestinationHWaddr_host]
  by_cases hnone : matchEntries p.arSip s.table.entry 0 none = none
  · rw [if_pos (isNone_iff_eq_none.mpr hnone)]
    exact ⟨_, h.register hnone⟩
  · rw [if_neg (mt isNone_iff_eq_none.mp hnone)]
    refine ⟨ms, h.entry, h.nodup, fun x => ?_, h.lookup, h.writes⟩
    rw [h.mem, mem_append, mem_singleton]
    -- an unknown sender has been registered before
    have hknown := mt (h.lookup p.arSip).mpr hnone
    rw [h.mem] at hknown
    constructor
    · rintro ⟨hx, hlookup⟩
      exact ⟨.inl hx, hlookup⟩
    · rintro ⟨hx | rfl, hlookup⟩
      · exact ⟨hx, hlookup⟩
      · tauto

theorem congr {s' : ArpState} (h : Learned arp ips ms s) (htable : s'.table = s.table)
    (hwrites : s'.writes = s.writes) : Learned arp ips ms s' :=
  ⟨by rw [htable, h.entry], h.nodup, h.mem, by rw [htable]; exact h.lookup,
    by rw [hwrites, h.writes]⟩

theorem packets (h : Learned arp ips ms s) (eths : List EthTable) (gateway : Option RouteTable)
    (ps : List ArpPacket) :
    ∃ ms, Learned arp (ips ++ (ps.filter (·.heard eths)).map ArpPacket.arSip) ms
      (processARPPackets eths gateway s ps) := by
  induction ps generalizing s ips ms with
  | nil => exact ⟨ms, by simpa [processARPPackets] using h⟩
  | cons p ps ih =>
    by_cases hp : p.heard eths
    · obtain ⟨ms', h'⟩ := h.learn gateway p
      obtain ⟨htable, hwrites⟩ := processARPPacket_heard gateway s hp
      obtain ⟨ms'', h''⟩ := ih (h'.congr htable hwrites)
      rw [append_assoc, singleton_append] at h''
      rw [filter_cons_of_pos hp, map_cons]
      exact ⟨ms'', h''⟩
    · rw [filter_cons_of_neg hp]
      change ∃ ms, Learned _ _ ms (processARPPackets eths gateway (processARPPacket _ _ s p) ps)
      rw [processARPPacket_other hp]
      exact ih h

theorem length_eq (ps : List ArpPacket)
    (h : Learned arp ((ps.filter (·.heard eths)).map ArpPacket.arSip) ms s) :
    ms.length = (strangers eths arp ps).length := by
  have hperm : (ms.map ArpEntry.ip).Perm (strangers eths arp ps) := by
    refine (perm_ext_iff_of_nodup h.nodup (nodup_dedup _)).mpr fun x => ?_
    rw [h.mem, mem_dedup, mem_filter, isNone_iff_eq_none, getDestinationHWaddr_host]
  rw [← length_map ArpEntry.ip, hperm.length_eq]

end Learned

/-- The table stays within its 1024 entries exactly while the entries it starts with and the
strangers fit; no address is learned twice. -/
theorem arp_table_bounded_iff (eths : List EthTable) (gateway : Option RouteTable) (arp : ArpTable)
    (requests : List UInt32) (ps : List ArpPacket) :
    let s := processARPPackets eths gateway ⟨arp, requests, [], []⟩ ps
    ((s.table.entry.length ≤ 1024 ∧ ∀ i ∈ s.writes, i < 1024) ↔
      arp.entry.length + (strangers eths arp ps).length ≤ 1024) ∧
    ((s.table.entry.drop arp.entry.length).map ArpEntry.ip).Nodup := by
  intro s
  obtain ⟨ms, h⟩ := (Learned.start arp requests).packets eths gateway ps
  have hlen : s.table.entry.length = arp.entry.length + (strangers eths arp ps).length := by
    rw [h.entry, List.length_append, Learned.length_eq ps h]
  refine ⟨⟨fun hfit => hlen ▸ hfit.1, fun hfit => ⟨hlen ▸ hfit, fun i hi => ?_⟩⟩, ?_⟩
  · rw [h.writes, Learned.length_eq ps h] at hi
    have := (List.mem_range'_1.mp hi).2
    omega
  · rw [h.entry, List.drop_left]
    exact h.nodup

end Learning

def request (n : Nat) : ArpPacket := ⟨1, UInt32.ofNat n, [2, 0, 0, 0, 0, 1], 0x0100000a⟩

theorem strangers_requests {k : Nat} (hk : k ≤ 2 ^ 32) :
    (strangers [⟨"dpdk0", 0x0100000a, 0xffffff, 0⟩] ⟨[], none⟩
      ((range k).map request)).length = k := by
  have hheard : ((range k).map request).filter
      (·.heard [⟨"dpdk0", 0x0100000a, 0xffffff, 0⟩]) = (range k).map request := by
    simp [filter_eq_self, ArpPacket.heard, request]
  have hnodup : (((range k).map request).map ArpPacket.arSip).Nodup := by
    rw [List.map_map]
    refine List.Nodup.map_on (fun i hi j hj h => ?_) nodup_range
    have hi := mem_range.mp hi
    have hj := mem_range.mp hj
    have hnat := congrArg toNat h
    simp only [Function.comp, request, toNat_ofNat'] at hnat
    omega
  have hall : (((range k).map request).map ArpPacket.arSip).filter
      (fun ip => (getDestinationHWaddr ⟨[], none⟩ ip false).isNone) =
      ((range k).map request).map ArpPacket.arSip :=
    filter_eq_self.mpr fun _ _ => rfl
  rw [strangers, hheard, hall, hnodup.dedup]
  simp

theorem requests_registered {k : Nat} (hk : k ≤ 2 ^ 32) :
    let s := processARPPackets [⟨"dpdk0", 0x0100000a, 0xffffff, 0⟩] none ⟨⟨[], none⟩, [], [], []⟩
      ((range k).map request)
    s.table.entry.length = k ∧ s.writes = range' 0 k := by
  obtain ⟨ms, h⟩ := (Learned.start ⟨[], none⟩ []).packets [⟨"dpdk0", 0x0100000a, 0xffffff, 0⟩] none
    ((range k).map request)
  have hlen : ms.length = k := (Learned.length_eq _ h).trans (strangers_requests hk)
  dsimp only
  rw [h.entry, h.writes, hlen, nil_append]
  exact ⟨hlen, rfl⟩

/-- One sender more than there is room for. -/
theorem arp_table_overrun : ∃ ps : List ArpPacket, ps.length = 1025 ∧
    let s := processARPPackets [⟨"dpdk0", 0x0100000a, 0xffffff, 0⟩] none ⟨⟨[], none⟩, [], [], []⟩ ps
    s.table.entry.length = 1025 ∧ 1024 ∈ s.writes := by
  refine ⟨(List.range 1025).map request, by simp, ?_⟩
  obtain ⟨hlen, hwrites⟩ := requests_registered (show 1025 ≤ 2 ^ 32 by decide)
  exact ⟨hlen, hwrites ▸ List.mem_range'_1.mpr ⟨Nat.zero_le _, by simp⟩⟩

end Mtcp.Arp
