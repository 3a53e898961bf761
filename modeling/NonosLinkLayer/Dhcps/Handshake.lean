import NonosLinkLayer.Dhcps.Allocation

namespace NonosLinkLayer.Dhcps
open ByteMemory LeadingRun

inductive Arrival where
  | message (heap : Memory) (p : Pbuf)
  | leave (bssid : Option Mac) (ip : Option UInt32) (force : Bool)

def arrive (settings : Settings) (d : Daemon) : Arrival → Daemon
  | .message heap p => (handleDhcp settings heap d p).1
  | .leave bssid ip force => {d with server := wifiSoftapDhcpsClientLeave d.server bssid ip force}

def Arrival.Foreign (mac : Mac) : Arrival → Prop
  | .message heap p => chaddr (copyMsg heap p) ≠ mac
  | .leave bssid _ _ => bssid ≠ some mac

structure Requests (m : Memory) (r : Reading) (a : UInt32) : Prop where
  cookie : read32 m optionsAt = magicCookie
  request : r.type ≠ dhcpDiscover ∧ r.type ≠ dhcpDecline ∧ r.type ≠ dhcpRelease
  requested : r.requested = some a

-- The address is due to the client: where the list stops to hold start_ip,
-- start_ip+1, and so on, or comes to the node of the client, it is the next. To a
-- new client 0.0.0.0 is due when the next is above end_ip.
def Due (s : Server) (mac : Mac) (a : UInt32) : Prop :=
  ∀ n, Leads nextIp DhcpsPool.ip (fun p => p.mac == mac) s.dhcpsLease.startIp s.plist n →
    nextIp^[n] s.dhcpsLease.startIp = a ∨
    a = ipaddrAny ∧ Unknown s mac ∧ s.dhcpsLease.endIp < nextIp^[n] s.dhcpsLease.startIp

section Foreign
variable {s : Server} {d : Daemon} {mac : Mac} {addr a : UInt32} {l plist : List DhcpsPool} {p : DhcpsPool}

theorem leave_others (other : p.mac ≠ mac) : p ∈ leaveLoop mac addr force l ↔ p ∈ l := by
  induction l with
  | nil => rfl
  | cons head rest ih =>
    unfold leaveLoop
    by_cases hit : head.mac = mac ∧ head.ip = addr
    · have apart : ∀ {q : DhcpsPool}, q.mac = head.mac → p ≠ q := fun same eq => other (by rw [eq,same,hit.1])
      rw [if_pos hit,List.mem_cons,or_iff_right (@apart head rfl)]
      split_ifs
      · rfl
      · exact List.mem_cons.trans (or_iff_right (apart rfl))
    · rw [if_neg hit,List.mem_cons,List.mem_cons,ih]

theorem Updated.keeps (single : Single s) (updated : Updated s mac addr plist got renew) (member : p ∈ s.plist)
    (other : p.mac ≠ mac) (online : p.state = .online) : p ∈ plist := by
  rcases updated.effect single with ⟨_,same,_⟩ | ⟨node,given⟩
  · rw [same]
    exact member
  · refine (given.members p).mpr (.inr ⟨member,other,fun displaced => ?_⟩)
    rw [displaced.offline] at online
    cases online

theorem Reached.leave (reached : Reached s) (bssid : Option Mac) (ip : Option UInt32) (force : Bool) :
    Reached (wifiSoftapDhcpsClientLeave s bssid ip force) := by
  have ran : perform s (.leave bssid ip force) = some (wifiSoftapDhcpsClientLeave s bssid ip force) := rfl
  exact .step reached ran

theorem Reached.parsed (reached : Reached d.server) (m : Memory) (len : UInt16) : Reached (parseMsg d m len).1.server := by
  have shown := reached.update (some (chaddr m)) (some (ciaddr m))
  unfold parseMsg
  split_ifs
  · dsimp only
    split_ifs
    · exact shown.leave (some (chaddr m)) (some (ciaddr m)) true
    · exact shown
  · exact reached

theorem Reached.arrive (reached : Reached d.server) (settings : Settings) (x : Arrival) :
    Reached (arrive settings d x).server := by
  cases x with
  | message heap p => exact reached.parsed _ _
  | leave bssid ip force => exact reached.leave bssid ip force

theorem arrive_keeps (reached : Reached d.server) (settings : Settings) (x : Arrival) (foreign : x.Foreign mac)
    (member : p ∈ d.server.plist) (mine : p.mac = mac) (online : p.state = .online) :
    p ∈ (arrive settings d x).server.plist := by
  subst mine
  cases x with
  | message heap packet =>
    have other : p.mac ≠ chaddr (copyMsg heap packet) := foreign.symm
    unfold Dhcps.arrive handleDhcp
    dsimp only
    by_cases cookie : read32 (copyMsg heap packet) optionsAt = magicCookie
    · obtain ⟨plist,got,renew,updated,_,ran⟩ :=
        parseMsg_updated reached.single (packet.totLen.toInt16 - 240).toUInt16 cookie
      have kept := updated.keeps reached.single member other online
      rw [ran]
      split_ifs
      · exact (leave_others other).mpr kept
      · exact kept
    · unfold parseMsg
      rw [if_neg cookie]
      exact member
  | leave bssid ip force =>
    unfold Dhcps.arrive wifiSoftapDhcpsClientLeave
    cases bssid with
    | none => exact member
    | some bssid =>
      cases ip with
      | none => exact member
      | some ip => exact (leave_others fun same => foreign (congrArg some same.symm)).mpr member

theorem Reached.arrivals (reached : Reached d.server) (settings : Settings) (arrivals : List Arrival) :
    Reached (arrivals.foldl (Dhcps.arrive settings) d).server := by
  induction arrivals generalizing d with
  | nil => exact reached
  | cons x rest ih => exact ih (reached.arrive settings x)

theorem arrivals_keep (reached : Reached d.server) (settings : Settings) (arrivals : List Arrival)
    (foreign : ∀ x ∈ arrivals, x.Foreign mac) (holds : Holds d.server mac a) :
    Holds (arrivals.foldl (arrive settings) d).server mac a := by
  induction arrivals generalizing d with
  | nil => exact holds
  | cons x rest ih =>
    obtain ⟨p,member,mine,ip,online⟩ := holds
    have kept := arrive_keeps reached settings x (foreign x (List.mem_cons_self ..)) member mine online
    exact ih (reached.arrive settings x) (fun y later => foreign y (List.mem_cons_of_mem _ later)) ⟨p,kept,mine,ip,online⟩

end Foreign

section Exchange
variable {s : Server} {d : Daemon} {mac : Mac} {addr a : UInt32} {plist : List DhcpsPool} {r : Reading} {settings : Settings}
  {heap : Memory} {p : Pbuf}

theorem due_free : Due s mac a ↔ freeIp s mac = a ∨ a = ipaddrAny ∧ Unknown s mac ∧ s.dhcpsLease.endIp < freeIp s mac :=
  forall_leads (P:=fun free => free = a ∨ a = ipaddrAny ∧ Unknown s mac ∧ s.dhcpsLease.endIp < free)

theorem Updated.searched (updated : Updated s mac addr plist got renew) (any : addr = ipaddrAny) : renew = false ∧
    (got = ipaddrAny ∧ Unknown s mac ∧ s.dhcpsLease.endIp < freeIp s mac ∨
      got = freeIp s mac ∧ ¬ (Unknown s mac ∧ s.dhcpsLease.endIp < freeIp s mac)) := by
  cases updated with
  | broadcast => exact absurd any (by decide)
  | full unknown beyond => exact ⟨rfl,.inl ⟨rfl,unknown,beyond⟩⟩
  | moved here mine => exact ⟨rfl,.inr ⟨rfl,fun new => new.1 _ (List.mem_of_getElem? here) mine⟩⟩
  | opened unknown fits => exact ⟨rfl,.inr ⟨rfl,fun new => UInt32.not_lt.mpr fits new.2⟩⟩
  | taken wish => exact absurd any wish.1
  | beyond wish => exact absurd any wish.1
  | renewed wish => exact absurd any wish.1
  | takenOver wish => exact absurd any wish.1
  | inherited wish => exact absurd any wish.1
  | movedTo wish => exact absurd any wish.1
  | openedAt wish => exact absurd any wish.1

theorem Updated.due (updated : Updated s mac addr plist got renew) (any : addr = ipaddrAny)
    (known : a ≠ ipaddrAny → Holds s mac a) : got = a ↔ Due s mac a := by
  rw [due_free]
  rcases (updated.searched any).2 with ⟨none,new⟩ | ⟨free,old⟩
  · rw [none]
    constructor
    · exact fun same => .inr ⟨same.symm,new⟩
    · intro _
      by_contra other
      obtain ⟨q,member,mine,_⟩ := known (Ne.symm other)
      exact new.1 q member mine
  · rw [free]
    exact (or_iff_left fun new => old new.2).symm

theorem answer_ack : r.answer a false = .ack ↔
    (r.type ≠ dhcpDiscover ∧ r.type ≠ dhcpDecline ∧ r.type ≠ dhcpRelease) ∧ r.requested = some a := by
  unfold Reading.answer
  by_cases discover : r.type = dhcpDiscover
  · simp [discover]
  by_cases decline : r.type = dhcpDecline
  · rw [if_neg discover,if_pos decline]
    simp [decline]
  by_cases release : r.type = dhcpRelease
  · rw [if_neg discover,if_neg decline,if_pos release]
    simp [release]
  rw [if_neg discover,if_neg decline,if_neg release,and_iff_right ⟨discover,decline,release⟩]
  cases r.requested with
  | some addr => by_cases same : addr = a <;> simp [same]
  | none => by_cases request : r.type = dhcpRequest <;> simp [request]

theorem offer_holds (reached : Reached d.server) (offered : replied (handleDhcp settings heap d p).2 = some (.offer,a))
    (given : a ≠ ipaddrAny) : Holds (handleDhcp settings heap d p).1.server (chaddr (copyMsg heap p)) a := by
  by_cases cookie : read32 (copyMsg heap p) optionsAt = magicCookie
  · obtain ⟨plist,got,renew,updated,after,replies⟩ := handleDhcp_replied d reached.single settings heap p cookie
    rw [offered] at replies
    split_ifs at replies with silent
    obtain ⟨_,same⟩ := Prod.mk.inj (Option.some.inj replies)
    rw [same] at given ⊢
    rw [after fun release => silent (.inr (answer_release.mpr release))]
    exact updated.leased given
  · rw [handleDhcp_silent settings heap d p cookie] at offered
    cases offered

-- A request that shows no address is acknowledged for the address exactly if it
-- requests it and it is due.
theorem request_acknowledged (reached : Reached d.server) (none : ciaddr (copyMsg heap p) = ipaddrAny)
    (known : a ≠ ipaddrAny → Holds d.server (chaddr (copyMsg heap p)) a) :
    replied (handleDhcp settings heap d p).2 = some (.ack,a) ↔
      Requests (copyMsg heap p) (reading (copyMsg heap p) p.optionsLen) a ∧ Due d.server (chaddr (copyMsg heap p)) a := by
  by_cases cookie : read32 (copyMsg heap p) optionsAt = magicCookie
  · obtain ⟨plist,got,renew,updated,_,replies⟩ := handleDhcp_replied d reached.single settings heap p cookie
    rw [replies,(updated.searched none).1,←updated.due none known]
    constructor
    · intro sent
      split_ifs at sent
      obtain ⟨acked,same⟩ := Prod.mk.inj (Option.some.inj sent)
      rw [same] at acked
      obtain ⟨request,requested⟩ := answer_ack.mp acked
      exact ⟨⟨cookie,request,requested⟩,same⟩
    · rintro ⟨⟨_,request,requested⟩,same⟩
      have acked := answer_ack.mpr ⟨request,requested⟩
      rw [same,acked]
      rfl
  · rw [handleDhcp_silent settings heap d p cookie]
    exact iff_of_false (fun sent => nomatch sent) fun requests => cookie requests.1.cookie

end Exchange

-- A client is offered an address, others come and leave, and it requests the
-- address. It still holds it, and it is acknowledged exactly if it requests it in
-- options that are read so, and if the search for it ends at this address again.
theorem offer_acknowledged (d : Daemon) (reached : Reached d.server) (settings : Settings) (heap : Memory) (p : Pbuf)
    (a : UInt32) (offered : replied (handleDhcp settings heap d p).2 = some (.offer,a)) (arrivals : List Arrival)
    (foreign : ∀ x ∈ arrivals, x.Foreign (chaddr (copyMsg heap p))) (heap' : Memory) (p' : Pbuf)
    (same : chaddr (copyMsg heap' p') = chaddr (copyMsg heap p)) (none : ciaddr (copyMsg heap' p') = ipaddrAny) :
    (a ≠ ipaddrAny →
      Holds (arrivals.foldl (arrive settings) (handleDhcp settings heap d p).1).server (chaddr (copyMsg heap p)) a) ∧
    (replied (handleDhcp settings heap' (arrivals.foldl (arrive settings) (handleDhcp settings heap d p).1) p').2 =
        some (.ack,a) ↔
      Requests (copyMsg heap' p') (reading (copyMsg heap' p') p'.optionsLen) a ∧
      Due (arrivals.foldl (arrive settings) (handleDhcp settings heap d p).1).server (chaddr (copyMsg heap p)) a) := by
  have after : Reached (handleDhcp settings heap d p).1.server := reached.arrive settings (.message heap p)
  have kept : a ≠ ipaddrAny →
      Holds (arrivals.foldl (arrive settings) (handleDhcp settings heap d p).1).server (chaddr (copyMsg heap p)) a :=
    fun given => arrivals_keep after settings arrivals foreign (offer_holds reached offered given)
  refine ⟨kept,?_⟩
  rw [←same] at kept ⊢
  exact request_acknowledged (after.arrivals settings arrivals) none kept

def phoneFirst : Daemon := ⟨phoneLeased,0x0204a8c0⟩

def requestOf (mac : Mac) (a : UInt32) : Pbuf :=
  datagram 0 mac ([dhcpOptionMsgType,1,3,dhcpOptionReqIpaddr,4] ++ bytes32 a ++ [dhcpOptionEnd])
    (by simp only [bytes32,List.length_append,List.length_cons,List.length_nil]; decide)

-- While the camera asks too, and is offered the next address, the laptop keeps its offer.
theorem laptop_acknowledged :
    replied (handleDhcp accessPointSettings (fun _ => 0)
      ([Arrival.message (fun _ => 0) (discover camera)].foldl (arrive accessPointSettings)
        (handleDhcp accessPointSettings (fun _ => 0) phoneFirst (discover laptop)).1) (requestOf laptop 0x0304a8c0)).2 =
      some (.ack,0x0304a8c0) := by
  have offered : replied (handleDhcp accessPointSettings (fun _ => 0) phoneFirst (discover laptop)).2 =
      some (.offer,0x0304a8c0) := by decide +kernel
  have first : chaddr (copyMsg (fun _ => 0) (discover laptop)) = laptop := by decide +kernel
  have second : chaddr (copyMsg (fun _ => 0) (discover camera)) = camera := by decide +kernel
  have foreign : ∀ x ∈ [Arrival.message (fun _ => 0) (discover camera)],
      x.Foreign (chaddr (copyMsg (fun _ => 0) (discover laptop))) := by
    intro x member
    cases List.mem_singleton.mp member
    unfold Arrival.Foreign
    dsimp only
    rw [first,second]
    decide
  have same : chaddr (copyMsg (fun _ => 0) (requestOf laptop 0x0304a8c0)) = laptop := by decide +kernel
  have none : ciaddr (copyMsg (fun _ => 0) (requestOf laptop 0x0304a8c0)) = ipaddrAny := by decide +kernel
  have reached : Reached phoneFirst.server := (started_reached _ _ _).update _ _
  have requests : Requests (copyMsg (fun _ => 0) (requestOf laptop 0x0304a8c0))
      (reading (copyMsg (fun _ => 0) (requestOf laptop 0x0304a8c0)) (requestOf laptop 0x0304a8c0).optionsLen) 0x0304a8c0 :=
    ⟨by decide +kernel,by decide +kernel,by decide +kernel⟩
  have due : Due ([Arrival.message (fun _ => 0) (discover camera)].foldl (arrive accessPointSettings)
      (handleDhcp accessPointSettings (fun _ => 0) phoneFirst (discover laptop)).1).server laptop 0x0304a8c0 :=
    due_free.mpr (.inl (by decide +kernel))
  have stands := (offer_acknowledged phoneFirst reached accessPointSettings (fun _ => 0) (discover laptop) 0x0304a8c0 offered
    [.message (fun _ => 0) (discover camera)] foreign (fun _ => 0) (requestOf laptop 0x0304a8c0) (same.trans first.symm)
    none).2
  rw [first] at stands
  exact stands.mpr ⟨requests,due⟩

-- The phone leaves between the two messages of the laptop, so that the search
-- ends at the address of the phone, and the request for the other is refused.
theorem laptop_refused : Reached phoneFirst.server ∧
    replied (handleDhcp accessPointSettings (fun _ => 0) phoneFirst (discover laptop)).2 = some (.offer,0x0304a8c0) ∧
    (∀ x ∈ [Arrival.leave (some phone) (some 0x0204a8c0) true], x.Foreign laptop) ∧
    replied (handleDhcp accessPointSettings (fun _ => 0)
      ([Arrival.leave (some phone) (some 0x0204a8c0) true].foldl (arrive accessPointSettings)
        (handleDhcp accessPointSettings (fun _ => 0) phoneFirst (discover laptop)).1) (requestOf laptop 0x0304a8c0)).2 =
      some (.nak,0x0204a8c0) := by
  have offered : replied (handleDhcp accessPointSettings (fun _ => 0) phoneFirst (discover laptop)).2 =
      some (.offer,0x0304a8c0) := by decide +kernel
  have between : [Arrival.leave (some phone) (some 0x0204a8c0) true].foldl (arrive accessPointSettings)
      (handleDhcp accessPointSettings (fun _ => 0) phoneFirst (discover laptop)).1 =
      ⟨⟨phoneLeased.dhcpsLease,[⟨0x0304a8c0,laptop,120,.dynamic,.online⟩],false,120⟩,0x0304a8c0⟩ := by decide +kernel
  refine ⟨(started_reached _ _ _).update _ _,offered,?_,?_⟩
  · intro x member
    cases List.mem_singleton.mp member
    unfold Arrival.Foreign
    decide
  · rw [between]
    decide +kernel

end NonosLinkLayer.Dhcps
