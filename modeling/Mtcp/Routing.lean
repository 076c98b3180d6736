import Mathlib.Data.List.MinMax
import Mathlib.Data.List.Perm.Basic

namespace Mtcp.Routing

open List Option

/-! The routing table as `config.c` makes it, and the lookup in `ip_out.c`. Addresses and masks
are in network byte order, on a little-endian host. -/

structure EthTable where
  devName : String
  ipAddr : UInt32
  netmask : UInt32
  ifindex : Int

structure RouteTable where
  daddr : UInt32
  mask : UInt32
  masked : UInt32
  prefixLen : Int
  nif : Int
  deriving DecidableEq

structure RouteConfig where
  rtable : List RouteTable
  gateway : Option RouteTable := none

/-- `MaskFromPrefix`; bit `7 - j` of byte `i` is bit `8 * i + (7 - j)` of the word. -/
def maskFromPrefix (p : Nat) : UInt32 :=
  (List.range (min (p / 8 + 1) 4)).foldl (fun mask i =>
    (List.range (min (p - i * 8) 8)).foldl (fun mask j =>
      mask ||| (1 <<< UInt32.ofNat (8 * i + (7 - j)))) mask) 0

/-- The loop that counts the shifts until nothing is left of a mask; a word has 32 bits. -/
def countShifts : Nat → UInt32 → Int → Int
  | 0, _, n => n
  | fuel + 1, c, n => if c >>> 1 = 0 then n else countShifts fuel (c >>> 1) (n + 1)

def ethRoute (eth : EthTable) : RouteTable where
  daddr := eth.ipAddr &&& eth.netmask
  mask := eth.netmask
  masked := eth.ipAddr &&& eth.netmask
  prefixLen := countShifts 32 eth.netmask 0 + 1
  nif := eth.ifindex

structure RouteLine where
  daddr : UInt32
  prefixLen : Int
  dev : String

def RouteLine.route (eths : List EthTable) (l : RouteLine) : RouteTable where
  daddr := l.daddr
  mask := maskFromPrefix l.prefixLen.toNat
  masked := l.daddr &&& maskFromPrefix l.prefixLen.toNat
  prefixLen := l.prefixLen
  nif := ((eths.find? fun eth => eth.devName == l.dev).map EthTable.ifindex).getD (-1)

/-- `EnrollRouteTableEntry`; `MAX_ROUTE_ENTRY` is 64. There is no result where it exits. -/
def enrollRouteTableEntry (eths : List EthTable) (l : RouteLine) (c : RouteConfig) :
    Option RouteConfig :=
  if c.rtable.length = 64 then none else
  if l.prefixLen > 32 ∨ l.prefixLen < 0 then none else
  let r := l.route eths
  some ⟨c.rtable ++ [r], if r.mask = 0 then some r else c.gateway⟩

/-- `SetRoutingTableFromFile`: no route may follow that of the gateway. -/
def setRoutingTableFromFile (eths : List EthTable) :
    List RouteLine → RouteConfig → Option RouteConfig
  | [], c => some c
  | l :: ls, c =>
    if c.gateway.isSome then none
    else (enrollRouteTableEntry eths l c).bind (setRoutingTableFromFile eths ls)

def setRoutingTable (eths : List EthTable) (ls : List RouteLine) : Option RouteConfig :=
  setRoutingTableFromFile eths ls ⟨eths.map ethRoute, none⟩

def RouteTable.matches (r : RouteTable) (daddr : UInt32) : Bool := daddr &&& r.mask == r.masked

/-- The loop of `GetOutputInterface`, which the first match ends: `prefix` is 0 and `nif` is -1
whenever a route is looked at. -/
def matchRoute (gateway : Option RouteTable) (daddr : UInt32) : List RouteTable → Int × Bool
  | [] => (-1, false)
  | r :: rs =>
    if r.matches daddr then
      if r.prefixLen > 0 then (r.nif, false)
      else match gateway with
        | some g => (g.nif, true)
        | none => (-1, false)
    else matchRoute gateway daddr rs

/-- `GetOutputInterface`: the interface and `is_external`, if the assertion holds. -/
def getOutputInterface (c : RouteConfig) (daddr : UInt32) : Option (Int × Bool) :=
  let r := matchRoute c.gateway daddr c.rtable
  if r.1 < 0 then none else some r

/-! Longest match, as it is meant. -/

def ones (mask : UInt32) : Nat := (List.range 32).countP fun i => mask.toNat.testBit i

def RouteConfig.Longest (c : RouteConfig) (daddr : UInt32) (r : RouteTable) : Prop :=
  r ∈ c.rtable ∧ r.matches daddr ∧
    ∀ r' ∈ c.rtable, r'.matches daddr → ones r'.mask ≤ ones r.mask

def RouteConfig.others (c : RouteConfig) : List RouteTable :=
  if c.gateway.isSome then c.rtable.dropLast else c.rtable

/-- The packet leaves by a longest match, and is external iff only the gateway is left. -/
def RouteConfig.Routes (c : RouteConfig) (daddr : UInt32) : Prop :=
  ∃ r nif ext, getOutputInterface c daddr = some (nif, ext) ∧ c.Longest daddr r ∧ r.nif = nif ∧
    (ext = true ↔ ∀ r' ∈ c.others, ¬r'.matches daddr)

def RouteConfig.OrderFree (c : RouteConfig) (daddr : UInt32) : Prop :=
  ∀ rs, rs.Perm c.others →
    getOutputInterface ⟨rs ++ c.gateway.toList, c.gateway⟩ daddr = getOutputInterface c daddr

/-- The routes that can decide: the matching ones but that of the gateway, or else that one. -/
def RouteConfig.deciding (c : RouteConfig) (daddr : UInt32) : List RouteTable :=
  if c.others.any (·.matches daddr) then c.others.filter (·.matches daddr) else c.gateway.toList

def RouteConfig.OneInterface (c : RouteConfig) (daddr : UInt32) : Prop :=
  ∃ nif, 0 ≤ nif ∧ ∀ r ∈ c.deciding daddr, r.nif = nif

/-! What the loader makes. -/

structure RouteConfig.Loaded (c : RouteConfig) (rs : List RouteTable) : Prop where
  rtable : c.rtable = rs ++ c.gateway.toList
  positive : ∀ r ∈ rs, 0 < r.prefixLen
  gateway : ∀ g ∈ c.gateway, g.mask = 0 ∧ g.masked = 0 ∧ g.prefixLen = 0

variable {c c' : RouteConfig} {rs : List RouteTable} {eths : List EthTable} {daddr : UInt32}

theorem le_countShifts (fuel : Nat) (m : UInt32) (n : Int) : n ≤ countShifts fuel m n := by
  induction fuel generalizing m n with
  | zero => exact Int.le_refl n
  | succ fuel ih =>
    unfold countShifts
    split
    · exact Int.le_refl n
    · have := ih (m >>> 1) (n + 1)
      omega

theorem maskFromPrefix_eq_zero {p : Nat} (hp : p ≤ 32) (h : maskFromPrefix p = 0) : p = 0 := by
  have hall : ∀ p : Fin 33, maskFromPrefix p = 0 → p = 0 := by decide +kernel
  exact congrArg Fin.val (hall ⟨p, by omega⟩ h)

theorem RouteConfig.Loaded.enroll {l : RouteLine} (h : c.Loaded rs) (hgw : c.gateway = none)
    (hc : enrollRouteTableEntry eths l c = some c') : ∃ rs, c'.Loaded rs := by
  unfold enrollRouteTableEntry at hc
  by_cases hfull : c.rtable.length = 64
  · simp [hfull] at hc
  rw [if_neg hfull] at hc
  by_cases hlen : l.prefixLen > 32 ∨ l.prefixLen < 0
  · simp [hlen] at hc
  rw [if_neg hlen] at hc
  injection hc with hc
  subst hc
  have hrs : c.rtable = rs := by simpa [hgw] using h.rtable
  by_cases hmask : (l.route eths).mask = 0
  · have hzero : l.prefixLen.toNat = 0 := maskFromPrefix_eq_zero (by omega) hmask
    refine ⟨rs, by simp [hmask, hrs], h.positive, fun g hg => ?_⟩
    obtain rfl : l.route eths = g := by simpa [hmask] using hg
    refine ⟨hmask, ?_, show l.prefixLen = 0 by omega⟩
    change l.daddr &&& (l.route eths).mask = 0
    rw [hmask, UInt32.and_zero]
  · refine ⟨rs ++ [l.route eths], by simp [hmask, hrs, hgw], fun r hr => ?_, by simp [hmask, hgw]⟩
    obtain hr | hr := mem_append.mp hr
    · exact h.positive r hr
    · obtain rfl := mem_singleton.mp hr
      have hne : l.prefixLen ≠ 0 := fun hzero => hmask (by
        change maskFromPrefix l.prefixLen.toNat = 0
        rw [hzero]
        rfl)
      change 0 < l.prefixLen
      omega

theorem RouteConfig.Loaded.fromFile {ls : List RouteLine} (h : c.Loaded rs)
    (hc : setRoutingTableFromFile eths ls c = some c') : ∃ rs, c'.Loaded rs := by
  induction ls generalizing c rs with
  | nil =>
    injection hc with hc
    exact ⟨rs, hc ▸ h⟩
  | cons l ls ih =>
    unfold setRoutingTableFromFile at hc
    by_cases hgw : c.gateway.isSome
    · simp [hgw] at hc
    rw [if_neg hgw] at hc
    obtain ⟨d, hd, hc⟩ := bind_eq_some_iff.mp hc
    obtain ⟨ds, hds⟩ := h.enroll (by simpa using hgw) hd
    exact ih hds hc

theorem loaded_setRoutingTable {ls : List RouteLine} (hc : setRoutingTable eths ls = some c) :
    ∃ rs, c.Loaded rs := by
  have hstart : RouteConfig.Loaded ⟨eths.map ethRoute, none⟩ (eths.map ethRoute) := by
    refine ⟨(append_nil _).symm, fun r hr => ?_, nofun⟩
    obtain ⟨eth, -, rfl⟩ := mem_map.mp hr
    have := le_countShifts 32 eth.netmask 0
    change 0 < countShifts 32 eth.netmask 0 + 1
    omega
  exact hstart.fromFile hc

theorem RouteConfig.Loaded.others_eq (h : c.Loaded rs) : c.others = rs := by
  unfold RouteConfig.others
  rw [h.rtable]
  cases c.gateway with
  | none | some => simp

theorem matchRoute_loaded {gateway : Option RouteTable} (hpos : ∀ r ∈ rs, 0 < r.prefixLen)
    (hgw : ∀ g ∈ gateway, g.mask = 0 ∧ g.masked = 0 ∧ g.prefixLen = 0) :
    matchRoute gateway daddr (rs ++ gateway.toList) =
      ((rs.find? (·.matches daddr)).map fun r => (r.nif, false)).getD
        ((gateway.map fun g => (g.nif, true)).getD (-1, false)) := by
  induction rs with
  | nil =>
    cases gateway with
    | none => rfl
    | some g =>
      obtain ⟨hmask, hmasked, hlen⟩ := hgw g rfl
      simp [matchRoute, RouteTable.matches, hmask, hmasked, hlen]
  | cons r rs ih =>
    have hr := hpos r (.head _)
    have htail := ih fun x hx => hpos x (.tail _ hx)
    rw [cons_append, find?_cons]
    by_cases hm : r.matches daddr
    · simp [matchRoute, hm, hr]
    · simp [matchRoute, hm, htail]

namespace RouteConfig.Loaded

theorem lookup_perm {rs' : List RouteTable} (h : c.Loaded rs) (hperm : rs'.Perm rs) :
    matchRoute c.gateway daddr (rs' ++ c.gateway.toList) =
      ((rs'.find? (·.matches daddr)).map fun r => (r.nif, false)).getD
        ((c.gateway.map fun g => (g.nif, true)).getD (-1, false)) :=
  matchRoute_loaded (fun r hr => h.positive r (hperm.subset hr)) h.gateway

theorem lookup_self (h : c.Loaded rs) :
    getOutputInterface ⟨rs ++ c.gateway.toList, c.gateway⟩ daddr = getOutputInterface c daddr := by
  unfold getOutputInterface
  rw [h.rtable]

theorem lookup_front {r : RouteTable} (h : c.Loaded rs) (hr : r ∈ rs) (hm : r.matches daddr) :
    getOutputInterface ⟨(r :: rs.erase r) ++ c.gateway.toList, c.gateway⟩ daddr =
      if r.nif < 0 then none else some (r.nif, false) := by
  unfold getOutputInterface
  rw [h.lookup_perm (perm_cons_erase hr).symm]
  simp [hm]

theorem deciding_or_zero {r : RouteTable} (h : c.Loaded rs) (hr : r ∈ c.rtable)
    (hm : r.matches daddr) : r ∈ c.deciding daddr ∨ ones r.mask = 0 := by
  unfold RouteConfig.deciding
  rw [h.others_eq]
  rw [h.rtable] at hr
  obtain hr | hr := mem_append.mp hr
  · left
    rw [if_pos (any_eq_true.mpr ⟨r, hr, hm⟩)]
    exact mem_filter.mpr ⟨hr, hm⟩
  · by_cases hany : rs.any (·.matches daddr)
    · right
      rw [(h.gateway r (mem_toList.mp hr)).1]
      decide
    · left
      rwa [if_neg hany]

theorem mem_of_deciding {r : RouteTable} (h : c.Loaded rs) (hr : r ∈ c.deciding daddr) :
    r ∈ c.rtable ∧ r.matches daddr := by
  unfold RouteConfig.deciding at hr
  rw [h.others_eq] at hr
  rw [h.rtable]
  split at hr
  · obtain ⟨hr, hm⟩ := mem_filter.mp hr
    exact ⟨mem_append_left _ hr, hm⟩
  · obtain ⟨hmask, hmasked, -⟩ := h.gateway r (mem_toList.mp hr)
    exact ⟨mem_append_right _ hr, by simp [RouteTable.matches, hmask, hmasked]⟩

theorem deciding_ne_nil (h : c.Loaded rs) (hmatch : ∃ r ∈ c.rtable, r.matches daddr) :
    c.deciding daddr ≠ [] := by
  obtain ⟨r, hr, hm⟩ := hmatch
  unfold RouteConfig.deciding
  rw [h.others_eq]
  rw [h.rtable] at hr
  by_cases hany : rs.any (·.matches daddr)
  · rw [if_pos hany]
    obtain ⟨x, hx, hxm⟩ := any_eq_true.mp hany
    exact ne_nil_of_mem (mem_filter.mpr ⟨hx, hxm⟩)
  · rw [if_neg hany]
    obtain hr | hr := mem_append.mp hr
    · exact absurd (any_eq_true.mpr ⟨r, hr, hm⟩) hany
    · exact ne_nil_of_mem hr

/-- Where the deciding routes agree, they are followed in every order. -/
theorem lookup_of_agree {rs' : List RouteTable} {nif : Int} (h : c.Loaded rs)
    (hmatch : ∃ r ∈ c.rtable, r.matches daddr) (hnif : 0 ≤ nif)
    (hall : ∀ r ∈ c.deciding daddr, r.nif = nif) (hperm : rs'.Perm rs) :
    getOutputInterface ⟨rs' ++ c.gateway.toList, c.gateway⟩ daddr =
      some (nif, !rs.any (·.matches daddr)) := by
  obtain ⟨d, hd⟩ := exists_mem_of_ne_nil _ (h.deciding_ne_nil hmatch)
  unfold getOutputInterface
  rw [h.lookup_perm hperm]
  unfold RouteConfig.deciding at hall hd
  rw [h.others_eq] at hall hd
  cases hfind : rs'.find? (·.matches daddr) with
  | some r =>
    have hm : r.matches daddr := by simpa using find?_some hfind
    have hr : r ∈ rs := hperm.subset (mem_of_find?_eq_some hfind)
    have hany : rs.any (·.matches daddr) := any_eq_true.mpr ⟨r, hr, hm⟩
    rw [if_pos hany] at hall
    simp [hall r (mem_filter.mpr ⟨hr, hm⟩), hany, hnif]
  | none =>
    have hany : rs.any (·.matches daddr) = false := by
      rw [← hperm.any_eq]
      simpa using hfind
    simp only [hany, Bool.false_eq_true, if_false, mem_toList] at hall hd
    simp [hany, show c.gateway = some d from hd, hall d hd, hnif]

end RouteConfig.Loaded

theorem getOutputInterface_nonneg {nif : Int} {ext : Bool}
    (h : getOutputInterface c daddr = some (nif, ext)) : 0 ≤ nif := by
  unfold getOutputInterface at h
  by_cases hneg : (matchRoute c.gateway daddr c.rtable).1 < 0
  · simp [hneg] at h
  · rw [if_neg hneg] at h
    injection h with h
    rw [h] at hneg
    exact Int.not_lt.mp hneg

theorem exists_greatest {α β : Type} [LinearOrder β] (f : α → β) {l : List α} (h : l ≠ []) :
    ∃ m ∈ l, ∀ x ∈ l, f x ≤ f m := by
  have hsome : l.argmax f ≠ none := mt argmax_eq_none.mp h
  obtain ⟨m, hm⟩ := ne_none_iff_exists'.mp hsome
  exact ⟨m, argmax_mem hm, fun x hx => le_of_mem_argmax (f := f) hx hm⟩

namespace RouteConfig

theorem oneInterface_of_routes (h : c.Loaded rs) (hroutes : c.Routes daddr)
    (hfree : c.OrderFree daddr) : c.OneInterface daddr := by
  obtain ⟨-, nif, ext, hout, -⟩ := hroutes
  refine ⟨nif, getOutputInterface_nonneg hout, fun r hr => ?_⟩
  unfold deciding at hr
  rw [h.others_eq] at hr
  by_cases hany : rs.any (·.matches daddr)
  · -- any of the matching routes may come first
    rw [if_pos hany] at hr
    obtain ⟨hr, hm⟩ := mem_filter.mp hr
    have hfront := hfree (r :: rs.erase r) (by
      rw [h.others_eq]
      exact (perm_cons_erase hr).symm)
    rw [h.lookup_front hr hm, hout] at hfront
    by_cases hneg : r.nif < 0
    · simp [hneg] at hfront
    · rw [if_neg hneg] at hfront
      injection hfront with hfront
      exact congrArg Prod.fst hfront
  · rw [if_neg hany, mem_toList] at hr
    have hfind : rs.find? (·.matches daddr) = none := by simpa using hany
    unfold getOutputInterface at hout
    rw [h.rtable, h.lookup_perm (List.Perm.refl rs), hfind, show c.gateway = some r from hr] at hout
    simp only [map_none, getD_none, map_some, getD_some] at hout
    by_cases hneg : r.nif < 0
    · simp [hneg] at hout
    · rw [if_neg hneg] at hout
      injection hout with hout
      exact congrArg Prod.fst hout

theorem orderFree_of_oneInterface (h : c.Loaded rs) (hmatch : ∃ r ∈ c.rtable, r.matches daddr)
    (hone : c.OneInterface daddr) : c.OrderFree daddr := by
  obtain ⟨nif, hnif, hall⟩ := hone
  intro rs' hperm
  rw [h.others_eq] at hperm
  rw [h.lookup_of_agree hmatch hnif hall hperm, ← h.lookup_self,
    h.lookup_of_agree hmatch hnif hall (List.Perm.refl rs)]

theorem exists_longest (h : c.Loaded rs) (hmatch : ∃ r ∈ c.rtable, r.matches daddr) :
    ∃ r ∈ c.deciding daddr, c.Longest daddr r := by
  obtain ⟨r, hr, hmax⟩ := exists_greatest (fun r => ones r.mask) (h.deciding_ne_nil hmatch)
  obtain ⟨hmem, hm⟩ := h.mem_of_deciding hr
  refine ⟨r, hr, hmem, hm, fun r' hr' hm' => ?_⟩
  obtain hd | hzero := h.deciding_or_zero hr' hm'
  · exact hmax r' hd
  · rw [hzero]
    exact Nat.zero_le _

theorem routes_of_oneInterface (h : c.Loaded rs) (hmatch : ∃ r ∈ c.rtable, r.matches daddr)
    (hone : c.OneInterface daddr) : c.Routes daddr := by
  obtain ⟨nif, hnif, hall⟩ := hone
  obtain ⟨r, hr, hlongest⟩ := exists_longest h hmatch
  have hout := h.lookup_of_agree hmatch hnif hall (List.Perm.refl rs)
  rw [h.lookup_self] at hout
  refine ⟨r, nif, _, hout, hlongest, hall r hr, ?_⟩
  rw [h.others_eq]
  simp

end RouteConfig

/-- Longest match, whatever the order of the routes: exactly where all routes that can decide
lead to one interface. -/
theorem routing_longest_iff {ls : List RouteLine} (hc : setRoutingTable eths ls = some c)
    (hmatch : ∃ r ∈ c.rtable, r.matches daddr) :
    c.Routes daddr ∧ c.OrderFree daddr ↔ c.OneInterface daddr := by
  obtain ⟨rs, h⟩ := loaded_setRoutingTable hc
  constructor
  · rintro ⟨hroutes, hfree⟩
    exact RouteConfig.oneInterface_of_routes h hroutes hfree
  · intro hone
    exact ⟨RouteConfig.routes_of_oneInterface h hmatch hone,
      RouteConfig.orderFree_of_oneInterface h hmatch hone⟩

theorem routing_one_interface :
    ∃ c, setRoutingTable [⟨"dpdk0", 0x0100000a, 0x000000ff, 0⟩]
      [⟨0x0001000a, 24, "dpdk0"⟩, ⟨0xfe00000a, 0, "dpdk0"⟩] = some c ∧
      c.Routes 0x0701000a ∧ c.OrderFree 0x0701000a := by
  have hc : setRoutingTable [⟨"dpdk0", 0x0100000a, 0x000000ff, 0⟩]
      [⟨0x0001000a, 24, "dpdk0"⟩, ⟨0xfe00000a, 0, "dpdk0"⟩] = some _ := rfl
  exact ⟨_, hc, (routing_longest_iff hc (by decide)).mpr ⟨0, by decide, by decide⟩⟩

def nestedEths : List EthTable :=
  [⟨"dpdk0", 0x0100000a, 0x000000ff, 0⟩, ⟨"dpdk1", 0x0101000a, 0x00ffffff, 1⟩]

/-- Packets to 10.0.1.7 leave by interface 0. -/
theorem routing_first_match : ∃ c, setRoutingTable nestedEths [] = some c ∧
    (∃ r ∈ c.rtable, r.matches 0x0701000a) ∧
    getOutputInterface c 0x0701000a = some (0, false) ∧ ¬c.Routes 0x0701000a := by
  refine ⟨⟨nestedEths.map ethRoute, none⟩, rfl, by decide, by decide, ?_⟩
  rintro ⟨r, nif, ext, hout, ⟨hr, -, hmax⟩, hnif, -⟩
  have hzero : nif = 0 := by
    injection hout with hout
    exact (congrArg Prod.fst hout).symm
  obtain rfl | rfl := List.mem_pair.mp hr
  · exact absurd (hmax _ (List.mem_cons_of_mem _ List.mem_cons_self) (by decide)) (by decide)
  · exact absurd (hnif.trans hzero) (by decide)

end Mtcp.Routing
