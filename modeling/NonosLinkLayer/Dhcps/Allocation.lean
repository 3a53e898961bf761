import NonosLinkLayer.Dhcps.Backing

namespace NonosLinkLayer.Dhcps
open ByteMemory LeadingRun

-- No client has an address it did not have, and the nodes of the others are as they were.
structure Unallocated (before after : List DhcpsPool) (mac : Mac) : Prop where
  old : ∀ p ∈ after, (p.ip,p.mac) ∈ owners before
  others : ∀ p, p.mac ≠ mac → (p ∈ after ↔ p ∈ before)

-- The messages that allocate nothing. Where the client shows no address, the one
-- due is its own already; an address no node has is only right in a release,
-- which gives it back at once. Both do not matter for a new client that gets
-- nothing, being beyond end_ip.
structure Quiet (s : Server) (mac : Mac) (ciaddr : UInt32) (release : Prop) : Prop where
  displaces : ∀ p ∈ s.plist, ¬ Displaced s mac ciaddr p
  free : ciaddr = ipaddrAny →
    ∀ n, Leads nextIp DhcpsPool.ip (fun p => p.mac == mac) s.dhcpsLease.startIp s.plist n →
      (∃ p ∈ s.plist, p.mac = mac) ∨ nextIp^[n] s.dhcpsLease.startIp ≤ s.dhcpsLease.endIp →
      (nextIp^[n] s.dhcpsLease.startIp,mac) ∈ owners s.plist ∨ release ∧ nextIp^[n] s.dhcpsLease.startIp = ipaddrAny
  unused : Wish ciaddr → (∀ p ∈ s.plist, p.ip ≠ ciaddr) →
    (∃ p ∈ s.plist, p.mac = mac) ∨ ciaddr ≤ s.dhcpsLease.endIp → release

section Left
variable {s : Server} {mac : Mac} {addr got : UInt32} {l plist : List DhcpsPool} {p node : DhcpsPool} {release : Prop}

theorem leave_mem (single : (l.map DhcpsPool.mac).Nodup) :
    p ∈ leaveLoop mac addr true l ↔ p ∈ l ∧ ¬ (p.mac = mac ∧ p.ip = addr) := by
  induction l with
  | nil => simp [leaveLoop]
  | cons head rest ih =>
    obtain ⟨alone,single⟩ := List.nodup_cons.mp single
    rw [not_mem_macs] at alone
    unfold leaveLoop
    by_cases hit : head.mac = mac ∧ head.ip = addr
    · rw [if_pos hit,if_pos (.inr rfl),List.mem_cons]
      constructor
      · exact fun member => ⟨.inr member,fun same => alone p member (same.1.trans hit.1.symm)⟩
      · rintro ⟨same | member,other⟩
        · rw [same] at other
          exact absurd hit other
        · exact member
    · rw [if_neg hit,List.mem_cons,List.mem_cons,ih single]
      constructor
      · rintro (same | ⟨member,other⟩)
        · rw [same]
          exact ⟨.inl rfl,hit⟩
        · exact ⟨.inr member,other⟩
      · rintro ⟨same | member,other⟩
        · exact .inl same
        · exact .inr ⟨member,other⟩

def left (mac : Mac) (addr : UInt32) (plist : List DhcpsPool) (release : Prop) [Decidable release] : List DhcpsPool :=
  if release then leaveLoop mac addr true plist else plist

variable [Decidable release]

theorem left_mem (single : (plist.map DhcpsPool.mac).Nodup) :
    p ∈ left mac addr plist release ↔ p ∈ plist ∧ ¬ (release ∧ p.mac = mac ∧ p.ip = addr) := by
  unfold left
  by_cases release : release
  · rw [if_pos release,leave_mem single,and_iff_right release]
  · rw [if_neg release]
    exact (and_iff_left fun gone => release gone.1).symm

theorem kept_unallocated (single : Single s) : Unallocated s.plist (left mac addr s.plist release) mac where
  old _ member := List.mem_map_of_mem ((left_mem single).mp member).1
  others _ other := (left_mem single).trans (and_iff_left fun gone => other gone.2.1)

theorem Given.unallocated (given : Given s mac addr plist got node) (single : (plist.map DhcpsPool.mac).Nodup) :
    Unallocated s.plist (left mac addr plist release) mac ↔
      (∀ p ∈ s.plist, ¬ Displaced s mac addr p) ∧ ((got,mac) ∈ owners s.plist ∨ release ∧ got = addr) := by
  have remains : node ∈ left mac addr plist release ↔ ¬ (release ∧ got = addr) := by
    rw [left_mem single,and_iff_right ((given.members node).mpr (.inl rfl)),given.ip,and_iff_right given.mine]
  constructor
  · rintro ⟨old,others⟩
    constructor
    · intro p member displaced
      have inside := ((left_mem single).mp ((others p displaced.other).mpr member)).1
      rcases (given.members p).mp inside with same | ⟨_,_,still⟩
      · rw [same] at displaced
        exact displaced.other given.mine
      · exact still displaced
    · by_cases gone : release ∧ got = addr
      · exact .inr gone
      · have owner := old node (remains.mpr gone)
        rw [given.ip,given.mine] at owner
        exact .inl owner
  · rintro ⟨still,mine⟩
    constructor
    · intro p member
      rcases (given.members p).mp ((left_mem single).mp member).1 with same | ⟨inside,_⟩
      · rw [same] at member
        rw [same,given.ip,given.mine]
        exact mine.resolve_right (remains.mp member)
      · exact List.mem_map_of_mem inside
    · intro p other
      rw [left_mem single,and_iff_left fun gone => other gone.2.1,given.members]
      constructor
      · rintro (same | ⟨inside,_⟩)
        · rw [same] at other
          exact absurd given.mine other
        · exact inside
      · exact fun inside => .inr ⟨inside,other,still p inside⟩

end Left

section Quiet
variable {s : Server} {mac : Mac} {addr got : UInt32} {plist : List DhcpsPool} {node : DhcpsPool} {release : Prop}

theorem held_or_unused (s : Server) (addr : UInt32) :
    (∃ j q, Holder s addr j q) ∨ ∀ p ∈ s.plist, p.ip ≠ addr := by
  have latest := updateLoop_latest (Vector.replicate 6 0) addr [] s.plist (l:=⟨none,none,false,0⟩) (by simp [Latest])
  simp only [List.nil_append,List.length_nil] at latest
  generalize (updateLoop _ _ _ _ _).pipNode = node at latest
  cases node with
  | none => exact .inr latest
  | some j =>
    obtain ⟨q,there,held,last⟩ := latest
    exact .inl ⟨j,q,there,held,last⟩

theorem quiet_any : Quiet s mac ipaddrAny release ↔
    ((∃ p ∈ s.plist, p.mac = mac) ∨ freeIp s mac ≤ s.dhcpsLease.endIp →
      (freeIp s mac,mac) ∈ owners s.plist ∨ release ∧ freeIp s mac = ipaddrAny) := by
  have leads : (∀ n, Leads nextIp DhcpsPool.ip (fun p => p.mac == mac) s.dhcpsLease.startIp s.plist n →
      (∃ p ∈ s.plist, p.mac = mac) ∨ nextIp^[n] s.dhcpsLease.startIp ≤ s.dhcpsLease.endIp →
      (nextIp^[n] s.dhcpsLease.startIp,mac) ∈ owners s.plist ∨ release ∧ nextIp^[n] s.dhcpsLease.startIp = ipaddrAny) ↔ _ :=
    forall_leads (P:=fun addr => (∃ p ∈ s.plist, p.mac = mac) ∨ addr ≤ s.dhcpsLease.endIp →
      (addr,mac) ∈ owners s.plist ∨ release ∧ addr = ipaddrAny)
  constructor
  · exact fun quiet => leads.mp (quiet.free rfl)
  · exact fun free => ⟨fun _ _ displaced => displaced.wish.1 rfl,fun _ => leads.mpr free,fun wish => absurd rfl wish.1⟩

theorem quiet_held (wish : Wish addr) (holder : Holder s addr j q) :
    Quiet s mac addr release ↔ ∀ p ∈ s.plist, ¬ Displaced s mac addr p := by
  constructor
  · exact fun quiet => quiet.displaces
  · exact fun still => ⟨still,fun any => absurd any wish.1,fun _ unused => absurd holder.held (unused q holder.member)⟩

theorem quiet_unused (wish : Wish addr) (unused : ∀ p ∈ s.plist, p.ip ≠ addr) :
    Quiet s mac addr release ↔ ((∃ p ∈ s.plist, p.mac = mac) ∨ addr ≤ s.dhcpsLease.endIp → release) := by
  constructor
  · exact fun quiet => quiet.unused wish unused
  · exact fun fits => ⟨fun p _ => not_displaced (fun _ => unused) p,fun any => absurd any wish.1,fun _ _ => fits⟩

theorem Refused.quiet (refused : Refused s mac addr) : Quiet s mac addr release := by
  have free : ∀ {addr}, Unknown s mac → s.dhcpsLease.endIp < addr →
      ¬ ((∃ p ∈ s.plist, p.mac = mac) ∨ addr ≤ s.dhcpsLease.endIp) := by
    rintro addr unknown beyond (known | fits)
    · exact unknown.no_node known
    · exact UInt32.not_le.mpr beyond fits
  cases refused with
  | broadcast => exact ⟨fun _ _ displaced => displaced.wish.2 rfl,fun any => absurd any (by decide),fun wish => absurd rfl wish.2⟩
  | full unknown beyond => exact quiet_any.mpr fun due => absurd due (free unknown beyond)
  | taken wish holder other online =>
    exact (quiet_held wish holder).mpr fun p _ => (Refused.taken wish holder other online).not_displaced p
  | beyond wish unused unknown beyond => exact (quiet_unused wish unused).mpr fun fits => absurd fits (free unknown beyond)

theorem Given.quiet (given : Given s mac addr plist got node) :
    (∀ p ∈ s.plist, ¬ Displaced s mac addr p) ∧ ((got,mac) ∈ owners s.plist ∨ release ∧ got = addr) ↔
      Quiet s mac addr release := by
  by_cases any : addr = ipaddrAny
  · subst any
    have due : (∃ p ∈ s.plist, p.mac = mac) ∨ freeIp s mac ≤ s.dhcpsLease.endIp := by
      by_contra neither
      rw [not_or] at neither
      exact given.granted (.full (fun p member mine => neither.1 ⟨p,member,mine⟩) (UInt32.not_le.mp neither.2))
    rw [quiet_any,given.due rfl,imp_iff_right due]
    exact and_iff_right fun p _ displaced => displaced.wish.1 rfl
  have wish : Wish addr := ⟨any,fun broadcast => given.granted (broadcast ▸ .broadcast)⟩
  rw [given.asked any]
  rcases held_or_unused s addr with ⟨j,q,holder⟩ | unused
  · rw [quiet_held wish holder]
    refine and_iff_left_of_imp fun still => .inl ?_
    by_cases mine : q.mac = mac
    · rw [←mine,←holder.held]
      exact List.mem_map_of_mem holder.member
    · cases state : q.state with
      | online => exact absurd (.taken wish holder mine state) given.granted
      | offline => exact absurd ⟨wish,⟨j,holder⟩,mine,state⟩ (still q holder.member)
  · have due : (∃ p ∈ s.plist, p.mac = mac) ∨ addr ≤ s.dhcpsLease.endIp := by
      by_contra neither
      rw [not_or] at neither
      exact given.granted (.beyond wish unused (fun p member mine => neither.1 ⟨p,member,mine⟩) (UInt32.not_le.mp neither.2))
    have new : (addr,mac) ∉ owners s.plist := by
      intro owner
      obtain ⟨p,member,same⟩ := List.mem_map.mp owner
      exact unused p member (congrArg Prod.fst same)
    rw [quiet_unused wish unused,imp_iff_right due,or_iff_right new,and_iff_left rfl]
    exact and_iff_right fun p _ => not_displaced (fun _ => unused) p

theorem Updated.quiet [Decidable release] (single : Single s) (updated : Updated s mac addr plist got renew)
    (apart : (plist.map DhcpsPool.mac).Nodup) :
    Unallocated s.plist (left mac addr plist release) mac ↔ Quiet s mac addr release := by
  rcases updated.effect single with ⟨refused,same,_⟩ | ⟨node,given⟩
  · rw [same]
    exact iff_of_true (kept_unallocated single) refused.quiet
  · exact (given.unallocated apart).trans given.quiet

end Quiet

-- A message allocates nothing exactly if it is quiet, or has no cookie. It is not
-- looked at whether it is a discover, a request or anything else but a release.
theorem message_quiet (d : Daemon) (reached : Reached d.server) (m : Memory) (len : UInt16) :
    Unallocated d.server.plist (parseMsg d m len).1.server.plist (chaddr m) ↔
    read32 m optionsAt ≠ magicCookie ∨
    Quiet d.server (chaddr m) (ciaddr m) ((reading m len.toInt16).type = dhcpRelease) := by
  by_cases cookie : read32 m optionsAt = magicCookie
  · obtain ⟨plist,got,renew,updated,apart,ran⟩ := parseMsg_updated reached.single len cookie
    have after : (parseMsg d m len).1.server.plist =
        left (chaddr m) (ciaddr m) plist ((reading m len.toInt16).type = dhcpRelease) := by
      rw [ran]
      unfold left
      split_ifs <;> rfl
    rw [after,or_iff_right (not_not.mpr cookie)]
    exact updated.quiet reached.single apart
  · unfold parseMsg
    rw [if_neg cookie]
    exact iff_of_true ⟨fun p member => List.mem_map_of_mem member,fun p _ => Iff.rfl⟩ (.inl cookie)

def informMsg (mac : Mac) (ciaddr : UInt32) : Memory :=
  copyMsg (fun _ => 0) (datagram ciaddr mac [dhcpOptionMsgType,1,8,dhcpOptionEnd] (by decide))

def releaseMsg (mac : Mac) (ciaddr : UInt32) : Memory :=
  copyMsg (fun _ => 0) (datagram ciaddr mac [dhcpOptionMsgType,1,7,dhcpOptionEnd] (by decide))

def phoneLeased : Server := (wifiSoftapDhcpsClientUpdate accessPoint (some phone) none).1

theorem own_inform_quiet : Unallocated phoneLeased.plist
    (parseMsg ⟨phoneLeased,0⟩ (informMsg phone 0x0204a8c0) 4).1.server.plist (chaddr (informMsg phone 0x0204a8c0)) := by
  have shown : ciaddr (informMsg phone 0x0204a8c0) = 0x0204a8c0 := by decide +kernel
  have mine : chaddr (informMsg phone 0x0204a8c0) = phone := by decide +kernel
  have only : ∀ p ∈ phoneLeased.plist, p.mac = phone := by decide +kernel
  have wish : Wish 0x0204a8c0 := ⟨by decide,by decide⟩
  have one : phoneLeased.plist.length = 1 := by decide +kernel
  have holder : Holder phoneLeased 0x0204a8c0 0 ⟨0x0204a8c0,phone,120,.dynamic,.online⟩ := by
    refine ⟨by decide +kernel,rfl,fun k p behind there => ?_⟩
    rw [List.getElem?_eq_none (by omega)] at there
    cases there
  rw [message_quiet ⟨phoneLeased,0⟩ ((started_reached _ _ _).update _ _),shown,mine]
  exact .inr ((quiet_held wish holder).mpr fun p member displaced => displaced.other (only p member))

-- A client that asks for nothing but settings gets an address, and one that
-- releases none gets one too.
theorem inform_allocates : Reached accessPoint ∧
    ¬ Unallocated accessPoint.plist (parseMsg ⟨accessPoint,0⟩ (informMsg laptop 0) 4).1.server.plist laptop ∧
    ¬ Unallocated accessPoint.plist (parseMsg ⟨accessPoint,0⟩ (releaseMsg laptop 0) 4).1.server.plist laptop := by
  refine ⟨started_reached _ _ _,fun quiet => ?_,fun quiet => ?_⟩
  · have owner := quiet.old ⟨0x0204a8c0,laptop,120,.dynamic,.online⟩ (by decide +kernel)
    cases owner
  · have owner := quiet.old ⟨0x0204a8c0,laptop,120,.dynamic,.online⟩ (by decide +kernel)
    cases owner

end NonosLinkLayer.Dhcps
