import NonosLinkLayer.Dhcps.Messages
import NonosLinkLayer.Base.LeadingRun

namespace NonosLinkLayer.Dhcps
open ByteMemory LeadingRun

def Holds (s : Server) (mac : Mac) (addr : UInt32) : Prop :=
  ∃ p ∈ s.plist, p.mac = mac ∧ p.ip = addr ∧ p.state = .online

def Backed (s : Server) (mac : Mac) : Option (Answer × Memory) → Prop
  | some (kind,reply) => kind = .offer ∨ kind = .ack → yiaddr reply ≠ ipaddrAny ∧ Holds s mac (yiaddr reply)
  | none => True

-- The pool has an address for a client that shows `ciaddr`: where it shows none,
-- the one due where the list stops to hold start_ip, start_ip+1, and so on; where
-- it shows one, this one, of which the last node with it is the client's or
-- offline, or which no node has.
structure Grants (s : Server) (mac : Mac) (ciaddr : UInt32) : Prop where
  one : ciaddr ≠ ipaddrBroadcast
  free : ciaddr = ipaddrAny →
    ∀ n, Leads nextIp DhcpsPool.ip (fun p => p.mac == mac) s.dhcpsLease.startIp s.plist n →
      nextIp^[n] s.dhcpsLease.startIp ≠ ipaddrAny ∧
      ((∃ p ∈ s.plist, p.mac = mac) ∨ nextIp^[n] s.dhcpsLease.startIp ≤ s.dhcpsLease.endIp)
  held : Wish ciaddr → ∀ j q, Holder s ciaddr j q → q.mac = mac ∨ q.state = .offline
  unused : Wish ciaddr → (∀ p ∈ s.plist, p.ip ≠ ciaddr) → (∃ p ∈ s.plist, p.mac = mac) ∨ ciaddr ≤ s.dhcpsLease.endIp

-- What is answered with an offer or an acknowledgement whether or not there is an
-- address: a discover; a request for 0.0.0.0; and a request that names no
-- address, when the one before it was a renewal and its flag is still there.
def Promised (r : Reading) (renew : Bool) : Prop :=
  r.type = dhcpDiscover ∨ r.type ≠ dhcpDecline ∧ r.type ≠ dhcpRelease ∧
    (r.requested = some ipaddrAny ∨ r.requested = none ∧ r.type = dhcpRequest ∧ renew = true)

section Grants
variable {s : Server} {mac : Mac} {addr : UInt32}

theorem grants_any : Grants s mac ipaddrAny ↔
    freeIp s mac ≠ ipaddrAny ∧ ((∃ p ∈ s.plist, p.mac = mac) ∨ freeIp s mac ≤ s.dhcpsLease.endIp) := by
  have leads : (∀ n, Leads nextIp DhcpsPool.ip (fun p => p.mac == mac) s.dhcpsLease.startIp s.plist n →
      nextIp^[n] s.dhcpsLease.startIp ≠ ipaddrAny ∧
      ((∃ p ∈ s.plist, p.mac = mac) ∨ nextIp^[n] s.dhcpsLease.startIp ≤ s.dhcpsLease.endIp)) ↔ _ :=
    forall_leads (P:=fun addr => addr ≠ ipaddrAny ∧ ((∃ p ∈ s.plist, p.mac = mac) ∨ addr ≤ s.dhcpsLease.endIp))
  constructor
  · exact fun grants => leads.mp (grants.free rfl)
  · exact fun free => ⟨by decide,fun _ => leads.mpr free,fun wish => absurd rfl wish.1,fun wish => absurd rfl wish.1⟩

theorem grants_held (wish : Wish addr) (holder : Holder s addr j q) :
    Grants s mac addr ↔ q.mac = mac ∨ q.state = .offline := by
  constructor
  · exact fun grants => grants.held wish j q holder
  · refine fun free => ⟨wish.2,fun any => absurd any wish.1,fun _ k p other => ?_,fun _ unused => ?_⟩
    · obtain ⟨_,same⟩ := holder.unique other
      rw [←same]
      exact free
    · exact absurd holder.held (unused q holder.member)

theorem grants_unused (wish : Wish addr) (unused : ∀ p ∈ s.plist, p.ip ≠ addr) :
    Grants s mac addr ↔ (∃ p ∈ s.plist, p.mac = mac) ∨ addr ≤ s.dhcpsLease.endIp := by
  constructor
  · exact fun grants => grants.unused wish unused
  · refine fun fits => ⟨wish.2,fun any => absurd any wish.1,fun _ k p holder => ?_,fun _ _ => fits⟩
    exact absurd holder.held (unused p holder.member)

theorem Unknown.no_node (unknown : Unknown s mac) : ¬ ∃ p ∈ s.plist, p.mac = mac :=
  fun ⟨p,member,mine⟩ => unknown p member mine

theorem Updated.granted (updated : Updated s mac addr plist got renew) : got ≠ ipaddrAny ↔ Grants s mac addr := by
  cases updated with
  | broadcast => exact iff_of_false (fun given => given rfl) fun grants => grants.one rfl
  | full unknown beyond =>
    refine iff_of_false (fun given => given rfl) fun grants => ?_
    rcases (grants_any.mp grants).2 with known | fits
    · exact unknown.no_node known
    · exact UInt32.not_le.mpr beyond fits
  | @moved i p here mine =>
    rw [grants_any]
    exact (and_iff_left (.inl ⟨p,List.mem_of_getElem? here,mine⟩)).symm
  | opened unknown fits =>
    rw [grants_any]
    exact (and_iff_left (.inr fits)).symm
  | taken wish holder other online =>
    refine iff_of_false (fun given => given rfl) fun grants => ?_
    rcases (grants_held wish holder).mp grants with mine | offline
    · exact other mine
    · rw [online] at offline
      cases offline
  | beyond wish unused unknown beyond =>
    refine iff_of_false (fun given => given rfl) fun grants => ?_
    rcases (grants_unused wish unused).mp grants with known | fits
    · exact unknown.no_node known
    · exact UInt32.not_le.mpr beyond fits
  | renewed wish holder mine => exact iff_of_true wish.1 ((grants_held wish holder).mpr (.inl mine))
  | takenOver wish here mine holder other offline =>
    exact iff_of_true wish.1 ((grants_held wish holder).mpr (.inr offline))
  | inherited wish unknown holder offline => exact iff_of_true wish.1 ((grants_held wish holder).mpr (.inr offline))
  | @movedTo addr i p wish unused here mine =>
    exact iff_of_true wish.1 ((grants_unused wish unused).mpr (.inl ⟨p,List.mem_of_getElem? here,mine⟩))
  | openedAt wish unused unknown fits => exact iff_of_true wish.1 ((grants_unused wish unused).mpr (.inr fits))

-- Without an address only an update that looked at nothing leaves the flag set.
theorem Updated.stale (updated : Updated s mac addr plist got renew) (none : got = ipaddrAny) :
    renew = (decide (addr = ipaddrBroadcast) && s.renew) := by
  have search : (decide (ipaddrAny = ipaddrBroadcast) && s.renew) = false := rfl
  have asked : Wish addr → (decide (addr = ipaddrBroadcast) && s.renew) = false := fun wish => by simp [wish.2]
  cases updated with
  | broadcast => rfl
  | full => exact search.symm
  | moved => exact search.symm
  | opened => exact search.symm
  | taken wish => exact (asked wish).symm
  | beyond wish => exact (asked wish).symm
  | renewed wish => exact absurd none wish.1
  | takenOver wish => exact (asked wish).symm
  | inherited wish => exact (asked wish).symm
  | movedTo wish => exact (asked wish).symm
  | openedAt wish => exact (asked wish).symm

end Grants

section Reply
variable {d : Daemon} {m : Memory} {r : Reading}

theorem answer_promised : r.answer ipaddrAny renew = .offer ∨ r.answer ipaddrAny renew = .ack ↔ Promised r renew := by
  have apart : dhcpRequest ≠ dhcpDecline ∧ dhcpRequest ≠ dhcpRelease ∧ dhcpDecline ≠ dhcpDiscover ∧
      dhcpRelease ≠ dhcpDiscover ∧ dhcpRequest ≠ dhcpDiscover ∧ dhcpRelease ≠ dhcpDecline := by decide
  unfold Reading.answer Promised
  by_cases discover : r.type = dhcpDiscover
  · simp [discover]
  by_cases decline : r.type = dhcpDecline
  · simp [decline,apart]
  by_cases release : r.type = dhcpRelease
  · simp [release,apart]
  rw [if_neg discover,if_neg decline,if_neg release]
  cases r.requested with
  | some addr => by_cases any : addr = ipaddrAny <;> simp [discover,decline,release,any]
  | none => by_cases request : r.type = dhcpRequest <;> cases renew <;> simp [request,discover,decline,release,apart]

theorem backed_replied {reply : Option (Answer × Memory)} : Backed s mac reply ↔
    ∀ kind addr, replied reply = some (kind,addr) → kind = .offer ∨ kind = .ack → addr ≠ ipaddrAny ∧ Holds s mac addr := by
  cases reply with
  | none => exact iff_of_true trivial fun _ _ none => nomatch none
  | some r => exact ⟨fun backed _ _ same => by cases same; exact backed,fun all => all r.1 (yiaddr r.2) rfl⟩

-- A promised address is one the client got, unless there was none to get.
theorem promised_backed (updated : Updated s mac addr plist got renew) :
    (r.answer got renew = .offer ∨ r.answer got renew = .ack →
      got ≠ ipaddrAny ∧ ∃ p ∈ plist, p.mac = mac ∧ p.ip = got ∧ p.state = .online) ↔
    Grants s mac addr ∨ ¬ Promised r (decide (addr = ipaddrBroadcast) && s.renew) := by
  rw [←updated.granted]
  by_cases none : got = ipaddrAny
  · rw [←updated.stale none,←answer_promised,none]
    simp
  · exact iff_of_true (fun _ => ⟨none,updated.leased none⟩) (.inl none)

end Reply

theorem replies_backed (d : Daemon) (reached : Reached d.server) (settings : Settings) (heap : Memory) (p : Pbuf) :
    Backed (handleDhcp settings heap d p).1.server (chaddr (copyMsg heap p)) (handleDhcp settings heap d p).2 ↔
    read32 (copyMsg heap p) optionsAt ≠ magicCookie ∨
    Grants d.server (chaddr (copyMsg heap p)) (ciaddr (copyMsg heap p)) ∨
    ¬ Promised (reading (copyMsg heap p) p.optionsLen)
      (decide (ciaddr (copyMsg heap p) = ipaddrBroadcast) && d.server.renew) := by
  by_cases cookie : read32 (copyMsg heap p) optionsAt = magicCookie
  · obtain ⟨plist,got,renew,updated,after,replies⟩ := handleDhcp_replied d reached.single settings heap p cookie
    have backed := promised_backed (r:=reading (copyMsg heap p) p.optionsLen) updated
    rw [or_iff_right (not_not.mpr cookie),←backed,backed_replied,replies]
    by_cases silent : (reading (copyMsg heap p) p.optionsLen).answer got renew = .idle ∨
        (reading (copyMsg heap p) p.optionsLen).answer got renew = .release
    · rw [if_pos silent]
      refine iff_of_true (fun _ _ none => nomatch none) ?_
      rcases silent with idle | release
      · rw [idle]
        rintro (offer | ack) <;> contradiction
      · rw [release]
        rintro (offer | ack) <;> contradiction
    · rw [if_neg silent,after fun release => silent (.inr (answer_release.mpr release))]
      exact ⟨fun all => all _ _ rfl,fun holds _ _ same => by cases same; exact holds⟩
  · rw [handleDhcp_silent settings heap d p cookie]
    exact iff_of_true trivial (.inl cookie)

def exhausted : Server := (wifiSoftapDhcpsClientUpdate (started ⟨true,0x3204a8c0,0x3204a8c0⟩ 0x0104a8c0 120) (some phone) none).1

def renewed : Server :=
  let s := (wifiSoftapDhcpsClientUpdate accessPoint (some phone) none).1
  (wifiSoftapDhcpsClientUpdate s (some phone) (some 0x0204a8c0)).1

def blindRequest : Pbuf := datagram ipaddrBroadcast laptop [dhcpOptionMsgType,1,3,dhcpOptionEnd] (by decide)

theorem discover_backed : Backed (handleDhcp accessPointSettings (fun _ => 0) ⟨accessPoint,0⟩ (discover laptop)).1.server
    (chaddr (copyMsg (fun _ => 0) (discover laptop)))
    (handleDhcp accessPointSettings (fun _ => 0) ⟨accessPoint,0⟩ (discover laptop)).2 := by
  have none : ciaddr (copyMsg (fun _ => 0) (discover laptop)) = ipaddrAny := by decide +kernel
  have free : Grants accessPoint (chaddr (copyMsg (fun _ => 0) (discover laptop))) ipaddrAny :=
    grants_any.mpr ⟨by decide +kernel,.inr (by decide +kernel)⟩
  rw [←none] at free
  rw [replies_backed ⟨accessPoint,0⟩ (started_reached _ _ _) accessPointSettings (fun _ => 0) (discover laptop)]
  exact .inr (.inl free)

theorem unbacked (sent : replied reply = some (kind,ipaddrAny)) (promise : kind = .offer ∨ kind = .ack) :
    ¬ Backed s mac reply :=
  fun backed => (backed_replied.mp backed kind ipaddrAny sent promise).1 rfl

-- The laptop is offered 0.0.0.0 when the pool is exhausted, and it is acknowledged
-- when it shows the broadcast address after a renewal of the phone.
theorem promised_without_lease :
    (Reached exhausted ∧ ¬ Backed (handleDhcp accessPointSettings (fun _ => 0) ⟨exhausted,0⟩ (discover laptop)).1.server
      laptop (handleDhcp accessPointSettings (fun _ => 0) ⟨exhausted,0⟩ (discover laptop)).2) ∧
    (Reached renewed ∧ ¬ Backed (handleDhcp accessPointSettings (fun _ => 0) ⟨renewed,0x0204a8c0⟩ blindRequest).1.server
      laptop (handleDhcp accessPointSettings (fun _ => 0) ⟨renewed,0x0204a8c0⟩ blindRequest).2) := by
  have offered : replied (handleDhcp accessPointSettings (fun _ => 0) ⟨exhausted,0⟩ (discover laptop)).2 =
      some (.offer,ipaddrAny) := by decide +kernel
  have acknowledged : replied (handleDhcp accessPointSettings (fun _ => 0) ⟨renewed,0x0204a8c0⟩ blindRequest).2 =
      some (.ack,ipaddrAny) := by decide +kernel
  refine ⟨⟨?_,unbacked offered (.inl rfl)⟩,?_,unbacked acknowledged (.inr rfl)⟩
  · exact (started_reached _ _ _).update _ _
  · exact ((started_reached _ _ _).update _ _).update _ _

end NonosLinkLayer.Dhcps
