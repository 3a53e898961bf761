import NonosLinkLayer.Dhcps.Pool

namespace NonosLinkLayer.Dhcps
open ByteMemory

def nullMode : UInt8 := 0
def stationMode : UInt8 := 1

inductive DhcpStatus where
  | stopped
  | started
  deriving DecidableEq, Repr

-- `opmode` is what wifi_get_opmode returns, `status` what wifi_softap_dhcps_status
-- does, and `ip` the address that wifi_get_ip_info gives for the soft-AP.
def wifiSoftapSetDhcpsLease (lease : DhcpsLease) (opmode : UInt8) (status : DhcpStatus) (ip : UInt32)
    (please : Option DhcpsLease) : DhcpsLease × Bool :=
  if opmode = stationMode ∨ opmode = nullMode then (lease,false)
  else
    match please with
    | none => (lease,false)
    | some please =>
      if status = .started then (lease,false)
      else if please.enable then
        let softapIp := htonl ip
        let startIp := htonl please.startIp
        let endIp := htonl please.endIp
        if startIp ≤ softapIp ∧ softapIp ≤ endIp then (lease,false)
        else if startIp >>> 8 ≠ softapIp >>> 8 ∨ endIp >>> 8 ≠ softapIp >>> 8 then (lease,false)
        else if endIp - startIp > dhcpsMaxLease then (lease,false)
        else (⟨please.enable,please.startIp,please.endIp⟩,true)
      else ({lease with enable := please.enable},true)

structure Checked (lease : DhcpsLease) (ip : UInt32) : Prop where
  short : ntohl lease.endIp - ntohl lease.startIp ≤ dhcpsMaxLease
  startSegment : ntohl lease.startIp >>> 8 = ntohl ip >>> 8
  endSegment : ntohl lease.endIp >>> 8 = ntohl ip >>> 8
  apart : ¬(ntohl lease.startIp ≤ ntohl ip ∧ ntohl ip ≤ ntohl lease.endIp)

-- A range of addresses in the segment of the soft-AP, without its own address.
structure Validated (lease : DhcpsLease) (ip : UInt32) : Prop extends Checked lease ip where
  ordered : ntohl lease.startIp ≤ ntohl lease.endIp

section Validation
variable {lease please next : DhcpsLease} {ip h l : UInt32} {opmode : UInt8} {status : DhcpStatus}

theorem shiftRight_eight (v : UInt32) : (v >>> 8).toNat = v.toNat / 256 := by
  simp [UInt32.toNat_shiftRight,Nat.shiftRight_eq_div_pow]

-- In one segment the difference of an end in front of the start wraps around
-- to far more than any range has.
theorem Checked.validated (checked : Checked lease ip) : Validated lease ip := by
  refine ⟨checked,?_⟩
  have first := congrArg UInt32.toNat checked.startSegment
  have last := congrArg UInt32.toNat checked.endSegment
  have short := UInt32.le_iff_toNat_le.mp checked.short
  rw [shiftRight_eight,shiftRight_eight] at first last
  rw [UInt32.toNat_sub,show dhcpsMaxLease.toNat = 100 from rfl] at short
  have small := (ntohl lease.startIp).toNat_lt
  have bound := (ntohl lease.endIp).toNat_lt
  apply UInt32.le_iff_toNat_le.mpr
  omega

theorem low_toNat (h : UInt32) : (h &&& 0xFF).toNat = h.toNat % 256 := by
  rw [UInt32.toNat_and]
  exact Nat.and_two_pow_sub_one_eq_mod h.toNat 8

theorem segment_toNat (h : UInt32) (below : l.toNat < 256) :
    ((h &&& 0xFFFFFF00) ||| l).toNat = h.toNat / 256 * 256 + l.toNat := by
  have small := h.toNat_lt
  have high : h.toNat &&& 16777215 <<< 8 = 2^8 * (h.toNat / 256) := by
    rw [and_shiftLeft,Nat.and_two_pow_sub_one_eq_mod _ 24,Nat.shiftRight_eq_div_pow,Nat.shiftLeft_eq]
    omega
  rw [UInt32.toNat_or,UInt32.toNat_and,show (0xFFFFFF00 : UInt32).toNat = 16777215 <<< 8 from rfl,high,
    ←Nat.two_pow_add_eq_or_of_lt below]
  omega

theorem checked_segment (lower upper : UInt32) (h : UInt32) (same : ntohl ip = h) (below : upper.toNat < 256)
    (ordered : lower.toNat ≤ upper.toNat) (short : upper.toNat ≤ lower.toNat + 100)
    (apart : h.toNat % 256 < lower.toNat ∨ upper.toNat < h.toNat % 256) (enable : Bool) :
    Checked ⟨enable,htonl ((h &&& 0xFFFFFF00) ||| lower),htonl ((h &&& 0xFFFFFF00) ||| upper)⟩ ip := by
  have first := segment_toNat h (l:=lower) (by omega)
  have last := segment_toNat h below
  have small := h.toNat_lt
  constructor
  · rw [show dhcpsMaxLease = 100 from rfl]
    simp only [htonl,ntohl,swap32_swap32]
    apply UInt32.le_iff_toNat_le.mpr
    rw [UInt32.toNat_sub,first,last]
    simp only [UInt32.toNat_ofNat]
    omega
  · simp only [htonl,ntohl,swap32_swap32] at same ⊢
    apply UInt32.toNat_inj.mp
    rw [shiftRight_eight,shiftRight_eight,first,same]
    omega
  · simp only [htonl,ntohl,swap32_swap32] at same ⊢
    apply UInt32.toNat_inj.mp
    rw [shiftRight_eight,shiftRight_eight,last,same]
    omega
  · simp only [htonl,ntohl,swap32_swap32] at same ⊢
    rw [same,UInt32.le_iff_toNat_le,UInt32.le_iff_toNat_le,first,last]
    omega

-- What is put in place of a lease that fails the checks: the hundred addresses
-- behind the soft-AP's own, or in front of it.
theorem default_checked (ip : UInt32) (enable : Bool) :
    let localIp := if ntohl ip &&& 0xFF ≥ 0x80 then (ntohl ip &&& 0xFF) - dhcpsMaxLease else (ntohl ip &&& 0xFF) + 1
    Checked ⟨enable,htonl ((ntohl ip &&& 0xFFFFFF00) ||| localIp),
      htonl ((ntohl ip &&& 0xFFFFFF00) ||| (localIp + dhcpsMaxLease - 1))⟩ ip := by
  intro localIp
  have low := low_toNat (ntohl ip)
  have below := Nat.mod_lt (ntohl ip).toNat (show 256 > 0 by decide)
  have upper : (localIp + dhcpsMaxLease - 1).toNat = (localIp.toNat + 99) % 4294967296 := by
    rw [UInt32.toNat_sub,UInt32.toNat_add,show dhcpsMaxLease.toNat = 100 from rfl,show (1 : UInt32).toNat = 1 from rfl]
    omega
  have place : localIp.toNat = (ntohl ip).toNat % 256 + 1 ∧ (ntohl ip).toNat % 256 < 128 ∨
      localIp.toNat + 100 = (ntohl ip).toNat % 256 ∧ 128 ≤ (ntohl ip).toNat % 256 := by
    by_cases far : ntohl ip &&& 0xFF ≥ 0x80
    · right
      have least : 128 ≤ (ntohl ip &&& 0xFF).toNat := UInt32.le_iff_toNat_le.mp far
      rw [show localIp = (ntohl ip &&& 0xFF) - dhcpsMaxLease from if_pos far,UInt32.toNat_sub,
        show dhcpsMaxLease.toNat = 100 from rfl]
      omega
    · left
      have most : (ntohl ip &&& 0xFF).toNat < 128 := UInt32.lt_iff_toNat_lt.mp (UInt32.not_le.mp far)
      rw [show localIp = (ntohl ip &&& 0xFF) + 1 from if_neg far,UInt32.toNat_add,show (1 : UInt32).toNat = 1 from rfl]
      omega
  exact checked_segment localIp _ _ rfl (by omega) (by omega) (by omega) (by omega) enable

theorem kept_iff (lease : DhcpsLease) (ip : UInt32) :
    (lease.enable && !(decide (htonl lease.startIp ≤ htonl ip) && decide (htonl ip ≤ htonl lease.endIp)) &&
      !(htonl lease.startIp >>> 8 != htonl ip >>> 8 || htonl lease.endIp >>> 8 != htonl ip >>> 8 ||
        decide (htonl lease.endIp - htonl lease.startIp > dhcpsMaxLease))) = true ↔
    lease.enable = true ∧ Checked lease ip := by
  simp only [Bool.and_eq_true,Bool.not_eq_true',Bool.or_eq_false_iff,bne_eq_false_iff_eq,decide_eq_false_iff_not,
    ←Bool.decide_and]
  constructor
  · rintro ⟨⟨enabled,apart⟩,⟨first,last⟩,short⟩
    exact ⟨enabled,UInt32.not_lt.mp short,first,last,apart⟩
  · rintro ⟨enabled,checked⟩
    exact ⟨⟨enabled,checked.apart⟩,⟨checked.startSegment,checked.endSegment⟩,UInt32.not_lt.mpr checked.short⟩

theorem init_kept (checked : Checked lease ip) (enabled : lease.enable = true) :
    wifiSoftapInitDhcpsLease lease ip = lease :=
  if_pos ((kept_iff lease ip).mpr ⟨enabled,checked⟩)

theorem init_checked (lease : DhcpsLease) (ip : UInt32) : Checked (wifiSoftapInitDhcpsLease lease ip) ip := by
  unfold wifiSoftapInitDhcpsLease
  dsimp only
  split
  · rename_i kept
    exact ((kept_iff lease ip).mp kept).2
  · exact default_checked ip false

theorem set_checked (accepted : wifiSoftapSetDhcpsLease lease opmode status ip (some please) = (next,true)) :
    next.enable = please.enable ∧ (please.enable = true → next = please ∧ Checked please ip) := by
  unfold wifiSoftapSetDhcpsLease at accepted
  dsimp only at accepted
  split at accepted
  · cases accepted
  split at accepted
  · cases accepted
  split at accepted
  · split at accepted
    · cases accepted
    rename_i apart
    split at accepted
    · cases accepted
    rename_i segments
    split at accepted
    · cases accepted
    rename_i short
    obtain ⟨first,last⟩ := not_or.mp segments
    cases accepted
    exact ⟨rfl,fun _ => ⟨rfl,UInt32.not_lt.mp short,not_not.mp first,not_not.mp last,apart⟩⟩
  · rename_i disabled
    cases accepted
    exact ⟨rfl,fun enabled => absurd enabled disabled⟩

-- Whatever was stored before, the server starts with a range that is right for its
-- address, and with the one that was set if it was accepted for that address.
theorem lease_validated (stored : DhcpsLease) (ip : UInt32) :
    Validated (wifiSoftapInitDhcpsLease stored ip) ip ∧
    ∀ opmode status please next, wifiSoftapSetDhcpsLease stored opmode status ip (some please) = (next,true) →
      next.enable = please.enable ∧ (please.enable = true → next = please ∧ wifiSoftapInitDhcpsLease next ip = next) := by
  refine ⟨(init_checked stored ip).validated,?_⟩
  intro opmode status please next accepted
  obtain ⟨same,passed⟩ := set_checked accepted
  refine ⟨same,fun enabled => ?_⟩
  obtain ⟨here,checked⟩ := passed enabled
  rw [here]
  exact ⟨rfl,init_kept checked enabled⟩

-- 192.168.4.1 with the range from .2 to .102, which is as long as may be.
theorem longest_validated :
    let ip : UInt32 := 0x0104A8C0
    let please : DhcpsLease := ⟨true,0x0204A8C0,0x6604A8C0⟩
    Validated (wifiSoftapInitDhcpsLease ⟨false,0,0⟩ ip) ip ∧ wifiSoftapInitDhcpsLease please ip = please := by
  refine ⟨(lease_validated ⟨false,0,0⟩ _).1,?_⟩
  have accepted : wifiSoftapSetDhcpsLease ⟨false,0,0⟩ 2 .stopped 0x0104A8C0 (some ⟨true,0x0204A8C0,0x6604A8C0⟩) =
      (⟨true,0x0204A8C0,0x6604A8C0⟩,true) := by decide
  exact (((lease_validated ⟨false,0,0⟩ 0x0104A8C0).2 _ _ _ _ accepted).2 rfl).2

end Validation

end NonosLinkLayer.Dhcps
