import NonosLinkLayer.Napt.Represents
import NonosLinkLayer.Napt.Translate

namespace NonosLinkLayer.Napt

-- The two ends a packet names. An ICMP echo has its identifier on both.
def sender (p : Packet) : UInt16 := if iphProto p = ipProtoIcmp then iechoId p else portSrc p
def receiver (p : Packet) : UInt16 := if iphProto p = ipProtoIcmp then iechoId p else portDest p

def Transport (p : Packet) : Prop := iphProto p = ipProtoTcp ∨ iphProto p = ipProtoUdp

def Inbound (p : Packet) : Prop := iphProto p = ipProtoIcmp ∧ iechoType p = icmpEr ∨ Transport p
def Outbound (p : Packet) : Prop := iphProto p = ipProtoIcmp ∧ iechoType p = icmpEcho ∨ Transport p

def Opening (p : Packet) : Prop :=
  iphProto p = ipProtoIcmp ∧ iechoType p = icmpEcho ∨
  iphProto p = ipProtoTcp ∧ tcphFlags p &&& (tcpSyn ||| tcpAck) = tcpSyn ∧ ByteMemory.swap16 (portSrc p) ≥ 1024 ∨
  iphProto p = ipProtoUdp ∧ ByteMemory.swap16 (portSrc p) ≥ 1024

instance (p : Packet) : Decidable (Transport p) := inferInstanceAs (Decidable (_ ∨ _))
instance (p : Packet) : Decidable (Inbound p) := inferInstanceAs (Decidable (_ ∨ _))
instance (p : Packet) : Decidable (Outbound p) := inferInstanceAs (Decidable (_ ∨ _))
instance (p : Packet) : Decidable (Opening p) := inferInstanceAs (Decidable (_ ∨ _))

theorem Opening.outbound (opening : Opening p) : Outbound p := by
  rcases opening with icmp | tcp | udp
  · exact .inl icmp
  · exact .inr (.inl tcp.1)
  · exact .inr (.inr udp.1)

-- The inside end of the session an inbound packet belongs to, and of the one an
-- outbound packet belongs to.
def inKey (p : Packet) : Session → Bool := lookedUp (iphProto p) (iphSrc p) (sender p) (receiver p) true
def outKey (p : Packet) : Session → Bool := lookedUp (iphProto p) (iphSrc p) (sender p) 0 false

def toInside (p : Packet) (port : UInt16) (addr : UInt32) : Packet :=
  if iphProto p = ipProtoIcmp then ipNaptModifyAddr p 16 addr
  else if iphProto p = ipProtoTcp then rewriteTcp p true port addr
  else rewriteUdp p true port addr

def toOutside (p : Packet) (port : UInt16) (addr : UInt32) : Packet :=
  if iphProto p = ipProtoIcmp then ipNaptModifyAddr p 12 addr
  else if iphProto p = ipProtoTcp then rewriteTcp p false port addr
  else rewriteUdp p false port addr

-- What an accepted packet leaves in the entry of its session. An inbound one
-- is looked at after its rewriting.
def noteInbound (p rewritten : Packet) (t : Session) : Session :=
  if iphProto p = ipProtoTcp then recordInbound (tcphFlags rewritten) t else t
def noteOutbound (p : Packet) (t : Session) : Session :=
  if iphProto p = ipProtoTcp then recordOutbound (tcphFlags p) t else t

inductive Received (d : NaptData) (a : Sessions) (now : UInt32) (p : Packet) : Sessions → Packet → Prop where
  | ignored (other : ¬ Inbound p) : Received d a now p a p
  | mapped (transport : Transport p) (found : ipPortmapFind d (iphProto p) (portDest p) = some (k,m)) :
      Received d a now p a (toInside p m.dport m.daddr)
  | unknown (inbound : Inbound p) (unmapped : Transport p → ipPortmapFind d (iphProto p) (portDest p) = none)
      (missing : (a.find now (inKey p)).2 = none) :
      Received d a now p (a.find now (inKey p)).1 p
  | session (inbound : Inbound p) (unmapped : Transport p → ipPortmapFind d (iphProto p) (portDest p) = none)
      (found : (a.find now (inKey p)).2 = some (i,e)) :
      Received d a now p ((a.find now (inKey p)).1.put i (noteInbound p (toInside p e.sport e.src)))
        (toInside p e.sport e.src)

inductive ForwardedAs (d : NaptData) (a : Sessions) (now : UInt32) (inp outp : Netif) (p : Packet) :
    Sessions → Packet → Err → Prop where
  | off (off : inp.napt = false) : ForwardedAs d a now inp outp p a p .ok
  | ignored (on : inp.napt = true) (other : ¬ Outbound p) : ForwardedAs d a now inp outp p a p .ok
  | mapped (on : inp.napt = true) (transport : Transport p)
      (found : ipPortmapFindDest d (iphProto p) (portSrc p) (iphSrc p) = some (k,m)) :
      ForwardedAs d a now inp outp p a (toOutside p m.mport m.maddr) .ok
  | registered (on : inp.napt = true) (opening : Opening p)
      (unmapped : Transport p → ipPortmapFindDest d (iphProto p) (portSrc p) (iphSrc p) = none)
      (added : Added a now (iphProto p) (iphSrc p) (sender p) (iphDest p) (receiver p) a' mport) :
      ForwardedAs d a now inp outp p a' (toOutside p mport outp.ipAddr) .ok
  | continued (on : inp.napt = true) (transport : Transport p) (midway : ¬ Opening p)
      (unmapped : ipPortmapFindDest d (iphProto p) (portSrc p) (iphSrc p) = none)
      (found : (a.find now (outKey p)).2 = some (i,e)) (same : e.dest = iphDest p ∧ e.dport = portDest p) :
      ForwardedAs d a now inp outp p ((a.find now (outKey p)).1.put i (noteOutbound p))
        (toOutside p e.mport outp.ipAddr) .ok
  | refused (on : inp.napt = true) (transport : Transport p) (midway : ¬ Opening p)
      (unmapped : ipPortmapFindDest d (iphProto p) (portSrc p) (iphSrc p) = none)
      (foreign : ∀ i e, (a.find now (outKey p)).2 = some (i,e) → ¬ (e.dest = iphDest p ∧ e.dport = portDest p)) :
      ForwardedAs d a now inp outp p (a.find now (outKey p)).1 p .rte

theorem put_id (a : Sessions) (i : Nat) : a.put i (fun t => t) = a := by
  unfold Sessions.put
  have same : ∀ x ∈ a.active, (if x.1 = i then (i,x.2) else x) = id x := by
    intro x _
    split_ifs with at_
    · rw [←at_]; rfl
    · rfl
  rw [List.map_congr_left same,List.map_id]

theorem record_represents (rep : Represents d a) (i : Nat) {f : Session → Session}
    (proto : ∀ t, (f t).proto = t.proto) : Represents (d.record i f) (a.put i f) :=
  rep.modify_active i (fun _ => rfl) (fun _ => rfl) (fun _ => rfl) proto

theorem recordInbound_proto (flags : UInt8) (t : Session) : (recordInbound flags t).proto = t.proto := by
  rw [recordInbound_eq]

theorem recordOutbound_proto (flags : UInt8) (t : Session) : (recordOutbound flags t).proto = t.proto := by
  rw [recordOutbound_eq]

theorem found_entry {a : Sessions} (rep : Represents d (a.find now wanted).1) (found : (a.find now wanted).2 = some (i,e)) :
    (d.table i).toSession = {e with last := now} := by
  obtain ⟨_,_,_,before,after,split⟩ := Sessions.find_some found
  exact rep.stored (i,_) (by rw [split]; simp)

theorem icmp_no_transport (icmp : iphProto p = ipProtoIcmp) : ¬ Transport p := by
  unfold Transport
  rw [icmp]
  decide

theorem sender_transport (transport : Transport p) : sender p = portSrc p := by
  unfold sender
  rw [if_neg fun icmp => icmp_no_transport icmp transport]

theorem receiver_transport (transport : Transport p) : receiver p = portDest p := by
  unfold receiver
  rw [if_neg fun icmp => icmp_no_transport icmp transport]

theorem record_id (d : NaptData) (i : Nat) : d.record i (fun t => t) = d := by
  unfold NaptData.record NaptData.modify
  simp

theorem noteInbound_none (other : iphProto p ≠ ipProtoTcp) : noteInbound p p' = fun t => t := by
  funext t
  unfold noteInbound
  rw [if_neg other]

theorem noteOutbound_none (other : iphProto p ≠ ipProtoTcp) : noteOutbound p = fun t => t := by
  funext t
  unfold noteOutbound
  rw [if_neg other]

theorem noteInbound_tcp (tcp : iphProto p = ipProtoTcp) : noteInbound p p' = recordInbound (tcphFlags p') := by
  funext t
  unfold noteInbound
  rw [if_pos tcp]

theorem noteOutbound_tcp (tcp : iphProto p = ipProtoTcp) : noteOutbound p = recordOutbound (tcphFlags p) := by
  funext t
  unfold noteOutbound
  rw [if_pos tcp]

theorem toInside_icmp (icmp : iphProto p = ipProtoIcmp) : toInside p port addr = ipNaptModifyAddr p 16 addr := by
  unfold toInside
  rw [if_pos icmp]

theorem toInside_tcp (tcp : iphProto p = ipProtoTcp) : toInside p port addr = rewriteTcp p true port addr := by
  unfold toInside
  rw [if_neg (by rw [tcp]; decide),if_pos tcp]

theorem toInside_udp (udp : iphProto p = ipProtoUdp) : toInside p port addr = rewriteUdp p true port addr := by
  unfold toInside
  rw [if_neg (by rw [udp]; decide),if_neg (by rw [udp]; decide)]

theorem toOutside_icmp (icmp : iphProto p = ipProtoIcmp) : toOutside p port addr = ipNaptModifyAddr p 12 addr := by
  unfold toOutside
  rw [if_pos icmp]

theorem toOutside_tcp (tcp : iphProto p = ipProtoTcp) : toOutside p port addr = rewriteTcp p false port addr := by
  unfold toOutside
  rw [if_neg (by rw [tcp]; decide),if_pos tcp]

theorem toOutside_udp (udp : iphProto p = ipProtoUdp) : toOutside p port addr = rewriteUdp p false port addr := by
  unfold toOutside
  rw [if_neg (by rw [udp]; decide),if_neg (by rw [udp]; decide)]

section Ends
variable {p : Packet} {port : UInt16} {addr : UInt32}

theorem toInside_transport (transport : Transport p) (port : UInt16) (addr : UInt32) :
    ∃ chksum, 4 ≤ chksum ∧ toInside p port addr = rewrite chksum p true port addr := by
  cases transport with
  | inl tcp => exact ⟨16,by omega,by rw [toInside_tcp tcp,rewriteTcp_eq]⟩
  | inr udp => exact ⟨6,by omega,by rw [toInside_udp udp,rewriteUdp_eq]⟩

theorem toOutside_transport (transport : Transport p) (port : UInt16) (addr : UInt32) :
    ∃ chksum, 4 ≤ chksum ∧ toOutside p port addr = rewrite chksum p false port addr := by
  cases transport with
  | inl tcp => exact ⟨16,by omega,by rw [toOutside_tcp tcp,rewriteTcp_eq]⟩
  | inr udp => exact ⟨6,by omega,by rw [toOutside_udp udp,rewriteUdp_eq]⟩

theorem toInside_dest (inbound : Inbound p) : iphDest (toInside p port addr) = addr := by
  cases inbound with
  | inl icmp =>
    rw [toInside_icmp icmp.1]
    exact ipNaptModifyAddr_written
  | inr transport =>
    obtain ⟨chksum,_,same⟩ := toInside_transport transport port addr
    rw [same]
    exact rewrite_address

theorem toInside_portDest (transport : Transport p) (whole : 20 ≤ Napt.transport p) :
    portDest (toInside p port addr) = port := by
  obtain ⟨chksum,far,same⟩ := toInside_transport transport port addr
  rw [same]
  unfold portDest
  rw [rewrite_transport whole]
  exact rewrite_port whole far

theorem toInside_flags (tcp : iphProto p = ipProtoTcp) (whole : 20 ≤ Napt.transport p) :
    tcphFlags (toInside p port addr) = tcphFlags p := by
  rw [toInside_tcp tcp]
  exact rewriteTcp_flags whole

theorem toInside_proto (inbound : Inbound p) (whole : 20 ≤ Napt.transport p) :
    iphProto (toInside p port addr) = iphProto p := by
  cases inbound with
  | inl icmp =>
    rw [toInside_icmp icmp.1]
    exact ipNaptModifyAddr_frame (by omega) (by omega)
  | inr transport =>
    obtain ⟨chksum,_,same⟩ := toInside_transport transport port addr
    rw [same]
    exact rewrite_proto whole

theorem toInside_icmp_receiver (icmp : iphProto p = ipProtoIcmp) (whole : 20 ≤ Napt.transport p) :
    receiver (toInside p port addr) = iechoId p := by
  have proto : iphProto (toInside p port addr) = ipProtoIcmp := by
    rw [toInside_icmp icmp,←icmp]
    exact ipNaptModifyAddr_frame (by omega) (by omega)
  unfold receiver
  rw [if_pos proto,toInside_icmp icmp]
  exact ipNaptModifyAddr_iecho whole ⟨by omega,by omega⟩

theorem toInside_transport_receiver (transport : Transport p) (whole : 20 ≤ Napt.transport p) :
    receiver (toInside p port addr) = port := by
  have still : Transport (toInside p port addr) := by
    unfold Transport
    rw [toInside_proto (.inr transport) whole]
    exact transport
  rw [receiver_transport still]
  exact toInside_portDest transport whole

theorem toOutside_src (outbound : Outbound p) : iphSrc (toOutside p port addr) = addr := by
  cases outbound with
  | inl icmp =>
    rw [toOutside_icmp icmp.1]
    exact ipNaptModifyAddr_written
  | inr transport =>
    obtain ⟨chksum,_,same⟩ := toOutside_transport transport port addr
    rw [same]
    exact rewrite_address

theorem toOutside_portSrc (transport : Transport p) (whole : 20 ≤ Napt.transport p) :
    portSrc (toOutside p port addr) = port := by
  obtain ⟨chksum,far,same⟩ := toOutside_transport transport port addr
  rw [same]
  unfold portSrc
  rw [rewrite_transport whole]
  exact rewrite_port whole far

theorem toOutside_receiver (transport : Transport p) (whole : 20 ≤ Napt.transport p) :
    iphDest (toOutside p port addr) = iphDest p ∧ portDest (toOutside p port addr) = portDest p := by
  obtain ⟨chksum,far,same⟩ := toOutside_transport transport port addr
  rw [same]
  refine ⟨rewrite_otherAddress whole,?_⟩
  unfold portDest
  rw [rewrite_transport whole]
  exact rewrite_otherPort whole far

theorem toOutside_proto (outbound : Outbound p) (whole : 20 ≤ Napt.transport p) :
    iphProto (toOutside p port addr) = iphProto p := by
  cases outbound with
  | inl icmp =>
    rw [toOutside_icmp icmp.1]
    exact ipNaptModifyAddr_frame (by omega) (by omega)
  | inr transport =>
    obtain ⟨chksum,_,same⟩ := toOutside_transport transport port addr
    rw [same]
    exact rewrite_proto whole

theorem toOutside_icmp_sender (icmp : iphProto p = ipProtoIcmp) (whole : 20 ≤ Napt.transport p) :
    sender (toOutside p port addr) = iechoId p := by
  have proto : iphProto (toOutside p port addr) = ipProtoIcmp := by
    rw [toOutside_icmp icmp,←icmp]
    exact ipNaptModifyAddr_frame (by omega) (by omega)
  unfold sender
  rw [if_pos proto,toOutside_icmp icmp]
  exact ipNaptModifyAddr_iecho whole ⟨by omega,by omega⟩

theorem toOutside_transport_sender (transport : Transport p) (whole : 20 ≤ Napt.transport p) :
    sender (toOutside p port addr) = port := by
  have still : Transport (toOutside p port addr) := by
    unfold Transport
    rw [toOutside_proto (.inr transport) whole]
    exact transport
  rw [sender_transport still]
  exact toOutside_portSrc transport whole

end Ends

section Recv
variable {d : NaptData} {a : Sessions} {p : Packet}

theorem recv_echo (rep : Represents d a) (now : UInt32) (icmp : iphProto p = ipProtoIcmp) (reply : iechoType p = icmpEr) :
    ∃ d' a' p', ipNaptRecv d now p = .ok (d',p') ∧ Received d a now p a' p' ∧ Represents d' a' ∧ Fixed d d' := by
  have no := icmp_no_transport icmp
  have inbound : Inbound p := .inl ⟨icmp,reply⟩
  have key : lookedUp ipProtoIcmp (iphSrc p) (iechoId p) (iechoId p) true = inKey p := by
    simp [inKey,sender,receiver,icmp]
  obtain ⟨d1,ran,rep1,fixed⟩ := find_refines rep now ipProtoIcmp (iphSrc p) (iechoId p) (iechoId p) true
  rw [key] at ran rep1
  unfold ipNaptRecv
  rw [if_pos icmp,if_pos reply]
  cases found : (a.find now (inKey p)).2 with
  | none =>
    refine ⟨d1,_,p,?_,.unknown inbound (fun yes => absurd yes no) found,rep1,fixed⟩
    simp only [ran,found,bind,Except.bind,Option.map,pure,Except.pure]
  | some x =>
    obtain ⟨i,e⟩ := x
    have held := found_entry rep1 found
    have unnoted : noteInbound p (toInside p e.sport e.src) = _ := noteInbound_none (by rw [icmp]; decide)
    refine ⟨d1,_,_,?_,.session inbound (fun yes => absurd yes no) found,?_,fixed⟩
    · simp only [ran,found,bind,Except.bind,Option.map,pure,Except.pure,held,toInside_icmp icmp]
    · rw [unnoted,put_id]
      exact rep1

-- The branches for TCP and UDP are one, but for the place of the checksum and for
-- what is noted of a session.
theorem recv_transport (d : NaptData) (now : UInt32) (transport : Transport p) : ipNaptRecv d now p =
    match ipPortmapFind d (iphProto p) (portDest p) with
    | some (_,m) => .ok (d,toInside p m.dport m.daddr)
    | none => do
      let (d,t) ← ipNaptFind d now (iphProto p) (iphSrc p) (portSrc p) (portDest p) true
      match t with
      | none => return (d,p)
      | some t =>
        let rewritten := toInside p (d.table t).sport (d.table t).src
        return (d.record t (noteInbound p rewritten),rewritten) := by
  unfold ipNaptRecv
  rcases transport with tcp | udp
  · have notIcmp : iphProto p ≠ ipProtoIcmp := by rw [tcp]; decide
    rw [if_neg notIcmp,if_pos tcp]
    rw [tcp]
    cases ipPortmapFind d ipProtoTcp (portDest p) with
    | some found => exact congrArg (fun p => Except.ok (d,p)) (toInside_tcp tcp).symm
    | none =>
      cases ipNaptFind d now ipProtoTcp (iphSrc p) (portSrc p) (portDest p) true with
      | error fault => rfl
      | ok found =>
        obtain ⟨d',_ | t⟩ := found
        · rfl
        · simp only [bind,Except.bind,toInside_tcp tcp,noteInbound_tcp tcp]
  · have notIcmp : iphProto p ≠ ipProtoIcmp := by rw [udp]; decide
    have notTcp : iphProto p ≠ ipProtoTcp := by rw [udp]; decide
    rw [if_neg notIcmp,if_neg notTcp,if_pos udp]
    rw [udp]
    cases ipPortmapFind d ipProtoUdp (portDest p) with
    | some found => exact congrArg (fun p => Except.ok (d,p)) (toInside_udp udp).symm
    | none =>
      cases ipNaptFind d now ipProtoUdp (iphSrc p) (portSrc p) (portDest p) true with
      | error fault => rfl
      | ok found =>
        obtain ⟨d',_ | t⟩ := found
        · rfl
        · simp only [bind,Except.bind,toInside_udp udp,noteInbound_none notTcp,record_id]

theorem recv_ignored (d : NaptData) (now : UInt32) (other : ¬ Inbound p) : ipNaptRecv d now p = .ok (d,p) := by
  obtain ⟨echo,transport⟩ := not_or.mp other
  obtain ⟨tcp,udp⟩ := not_or.mp transport
  unfold ipNaptRecv
  rw [if_neg tcp,if_neg udp]
  split_ifs with icmp reply
  · exact absurd ⟨icmp,reply⟩ echo
  · rfl
  · rfl

theorem noteInbound_proto (p p' : Packet) (t : Session) : (noteInbound p p' t).proto = t.proto := by
  unfold noteInbound
  split_ifs
  · exact recordInbound_proto _ t
  · rfl

theorem noteOutbound_proto (p : Packet) (t : Session) : (noteOutbound p t).proto = t.proto := by
  unfold noteOutbound
  split_ifs
  · exact recordOutbound_proto _ t
  · rfl

theorem recv_named (rep : Represents d a) (now : UInt32) (transport : Transport p) :
    ∃ d' a' p', ipNaptRecv d now p = .ok (d',p') ∧ Received d a now p a' p' ∧ Represents d' a' ∧ Fixed d d' := by
  rw [recv_transport d now transport]
  cases mapped : ipPortmapFind d (iphProto p) (portDest p) with
  | some x =>
    obtain ⟨k,m⟩ := x
    exact ⟨d,a,_,rfl,.mapped transport mapped,rep,Fixed.refl d⟩
  | none =>
    have key : lookedUp (iphProto p) (iphSrc p) (portSrc p) (portDest p) true = inKey p := by
      unfold inKey
      rw [sender_transport transport,receiver_transport transport]
    obtain ⟨d1,ran,rep1,fixed⟩ := find_refines rep now (iphProto p) (iphSrc p) (portSrc p) (portDest p) true
    rw [key] at ran rep1
    simp only [ran,bind,Except.bind,Option.map,pure,Except.pure]
    cases found : (a.find now (inKey p)).2 with
    | none => exact ⟨d1,_,p,rfl,.unknown (.inr transport) (fun _ => mapped) found,rep1,fixed⟩
    | some x =>
      obtain ⟨i,e⟩ := x
      have held := found_entry rep1 found
      simp only [held]
      exact ⟨d1.record i (noteInbound p (toInside p e.sport e.src)),_,_,rfl,.session (.inr transport) (fun _ => mapped) found,
        record_represents rep1 i (noteInbound_proto p _),fixed⟩

theorem recv_refines (rep : Represents d a) (now : UInt32) (p : Packet) :
    ∃ d' a' p', ipNaptRecv d now p = .ok (d',p') ∧ Received d a now p a' p' ∧ Represents d' a' ∧ Fixed d d' := by
  by_cases transport : Transport p
  · exact recv_named rep now transport
  by_cases echo : iphProto p = ipProtoIcmp ∧ iechoType p = icmpEr
  · exact recv_echo rep now echo.1 echo.2
  have other : ¬ Inbound p := not_or.mpr ⟨echo,transport⟩
  exact ⟨d,a,p,recv_ignored d now other,.ignored other,rep,Fixed.refl d⟩

end Recv

section Forward
variable {d : NaptData} {a : Sessions} {inp : Netif} {p : Packet}

-- ip_napt_forward finds its way when no port search is cut short. Only a packet
-- without an entry needs one.
def ForwardRefines (d : NaptData) (a : Sessions) (now : UInt32) (inp outp : Netif) (p : Packet)
    (result : Except Fault Forwarded) : Prop :=
  result = .error .draws ∧ (a.find now (outKey p)).2 = none ∨
  ∃ r a', result = .ok r ∧ ForwardedAs d a now inp outp p a' r.packet r.err ∧ Represents r.data a' ∧ Fixed d r.data

theorem forward_midway (rep : Represents d a) (now : UInt32) (outp : Netif) (on : inp.napt = true)
    (transport : Transport p) (midway : ¬ Opening p)
    (unmapped : ipPortmapFindDest d (iphProto p) (portSrc p) (iphSrc p) = none) :
    ForwardRefines d a now inp outp p (do
      let (d,t) ← ipNaptFind d now (iphProto p) (iphSrc p) (portSrc p) 0 false
      match t with
      | none => return ⟨d,p,.rte,true⟩
      | some t =>
        if (d.table t).dest ≠ iphDest p ∨ (d.table t).dport ≠ portDest p then return ⟨d,p,.rte,true⟩
        else return ⟨d.record t (noteOutbound p),toOutside p (d.table t).mport outp.ipAddr,.ok,false⟩) := by
  right
  have notIcmp : iphProto p ≠ ipProtoIcmp := fun icmp => icmp_no_transport icmp transport
  have key : lookedUp (iphProto p) (iphSrc p) (portSrc p) 0 false = outKey p := by
    simp [outKey,sender,notIcmp]
  obtain ⟨d1,ran,rep1,fixed⟩ := find_refines rep now (iphProto p) (iphSrc p) (portSrc p) 0 false
  rw [key] at ran rep1
  simp only [ran,bind,Except.bind,Option.map,pure,Except.pure]
  cases found : (a.find now (outKey p)).2 with
  | none =>
    refine ⟨⟨d1,p,.rte,true⟩,_,rfl,.refused on transport midway unmapped ?_,rep1,fixed⟩
    intro i e other
    rw [found] at other
    cases other
  | some x =>
    obtain ⟨i,e⟩ := x
    have held := found_entry rep1 found
    simp only [held]
    by_cases foreign : e.dest ≠ iphDest p ∨ e.dport ≠ portDest p
    · rw [if_pos foreign]
      refine ⟨⟨d1,p,.rte,true⟩,_,rfl,.refused on transport midway unmapped ?_,rep1,fixed⟩
      intro j e' other same
      rw [found] at other
      cases other
      cases foreign with
      | inl dest => exact dest same.1
      | inr dport => exact dport same.2
    · rw [if_neg foreign]
      have same : e.dest = iphDest p ∧ e.dport = portDest p := by
        constructor
        · exact not_not.mp fun no => foreign (.inl no)
        · exact not_not.mp fun no => foreign (.inr no)
      exact ⟨⟨d1.record i (noteOutbound p),_,.ok,false⟩,_,rfl,.continued on transport midway unmapped found same,
        record_represents rep1 i (noteOutbound_proto p),fixed⟩

-- A packet that opens one is registered, and rewritten whatever came of that.
theorem forward_opening (rep : Represents d a) (now : UInt32) (pcbs : LocalPcbs) (draws : List Draw) (outp : Netif)
    (on : inp.napt = true) (opening : Opening p)
    (unmapped : Transport p → ipPortmapFindDest d (iphProto p) (portSrc p) (iphSrc p) = none) :
    ForwardRefines d a now inp outp p (do
      let (d,mport) ← ipNaptAdd d now pcbs draws (iphProto p) (iphSrc p) (sender p) (iphDest p) (receiver p)
      return ⟨d,toOutside p mport outp.ipAddr,.ok,false⟩) := by
  cases add_refines rep now pcbs draws (iphProto p) (iphSrc p) (sender p) (iphDest p) (receiver p) with
  | inl stuck =>
    exact .inl ⟨by simp only [stuck.1,bind,Except.bind],stuck.2⟩
  | inr ended =>
    obtain ⟨d',a',mport,ran,added,rep',fixed⟩ := ended
    right
    simp only [ran,bind,Except.bind,pure,Except.pure]
    exact ⟨⟨d',_,.ok,false⟩,a',rfl,.registered on opening unmapped added,rep',fixed⟩

theorem forward_echo (rep : Represents d a) (now : UInt32) (pcbs : LocalPcbs) (draws : List Draw) (outp : Netif)
    (on : inp.napt = true) (icmp : iphProto p = ipProtoIcmp) (echo : iechoType p = icmpEcho) :
    ForwardRefines d a now inp outp p (ipNaptForward d now pcbs draws inp outp p) := by
  have no := icmp_no_transport icmp
  have opened := forward_opening rep now pcbs draws outp on (.inl ⟨icmp,echo⟩) (fun yes => absurd yes no)
  simp only [sender,receiver,icmp,if_true,toOutside_icmp icmp] at opened
  unfold ipNaptForward
  rw [if_neg (by simp [on]),if_pos icmp,if_pos echo]
  exact opened

theorem opening_transport (transport : Transport p) : Opening p ↔
    (iphProto p = ipProtoTcp → tcphFlags p &&& (tcpSyn ||| tcpAck) = tcpSyn) ∧ ByteMemory.swap16 (portSrc p) ≥ 1024 := by
  unfold Opening
  rcases transport with tcp | udp
  · simp [tcp,tcp_icmp,udp_tcp.symm]
  · simp [udp,udp_icmp,udp_tcp]

theorem forward_transport (d : NaptData) (now : UInt32) (pcbs : LocalPcbs) (draws : List Draw) (outp : Netif)
    (on : inp.napt = true) (transport : Transport p) : ipNaptForward d now pcbs draws inp outp p =
    match ipPortmapFindDest d (iphProto p) (portSrc p) (iphSrc p) with
    | some (_,m) => .ok ⟨d,toOutside p m.mport m.maddr,.ok,false⟩
    | none =>
      if Opening p then do
        let (d,mport) ← ipNaptAdd d now pcbs draws (iphProto p) (iphSrc p) (sender p) (iphDest p) (receiver p)
        return ⟨d,toOutside p mport outp.ipAddr,.ok,false⟩
      else do
        let (d,t) ← ipNaptFind d now (iphProto p) (iphSrc p) (portSrc p) 0 false
        match t with
        | none => return ⟨d,p,.rte,true⟩
        | some t =>
          if (d.table t).dest ≠ iphDest p ∨ (d.table t).dport ≠ portDest p then return ⟨d,p,.rte,true⟩
          else return ⟨d.record t (noteOutbound p),toOutside p (d.table t).mport outp.ipAddr,.ok,false⟩ := by
  have opening := opening_transport transport
  unfold ipNaptForward
  rw [if_neg (by simp [on]),sender_transport transport,receiver_transport transport]
  rcases transport with tcp | udp
  · have notIcmp : iphProto p ≠ ipProtoIcmp := by rw [tcp]; decide
    rw [if_neg notIcmp,if_pos tcp]
    simp only [opening,tcp,forall_const]
    cases ipPortmapFindDest d ipProtoTcp (portSrc p) (iphSrc p) with
    | some found =>
      obtain ⟨i,m⟩ := found
      exact congrArg (fun p => Except.ok (Forwarded.mk d p .ok false)) (toOutside_tcp tcp).symm
    | none =>
      dsimp only
      split
      · cases ipNaptAdd d now pcbs draws ipProtoTcp (iphSrc p) (portSrc p) (iphDest p) (portDest p) with
        | error fault => rfl
        | ok added => simp only [bind,Except.bind,toOutside_tcp tcp]
      · cases ipNaptFind d now ipProtoTcp (iphSrc p) (portSrc p) 0 false with
        | error fault => rfl
        | ok found =>
          obtain ⟨d',_ | t⟩ := found
          · rfl
          · simp only [bind,Except.bind,toOutside_tcp tcp,noteOutbound_tcp tcp]
  · have notIcmp : iphProto p ≠ ipProtoIcmp := by rw [udp]; decide
    have notTcp : iphProto p ≠ ipProtoTcp := by rw [udp]; decide
    rw [if_neg notIcmp,if_neg notTcp,if_pos udp]
    simp only [opening,udp,udp_tcp,false_implies,true_and]
    cases ipPortmapFindDest d ipProtoUdp (portSrc p) (iphSrc p) with
    | some found =>
      obtain ⟨i,m⟩ := found
      exact congrArg (fun p => Except.ok (Forwarded.mk d p .ok false)) (toOutside_udp udp).symm
    | none =>
      dsimp only
      split
      · cases ipNaptAdd d now pcbs draws ipProtoUdp (iphSrc p) (portSrc p) (iphDest p) (portDest p) with
        | error fault => rfl
        | ok added => simp only [bind,Except.bind,toOutside_udp udp]
      · cases ipNaptFind d now ipProtoUdp (iphSrc p) (portSrc p) 0 false with
        | error fault => rfl
        | ok found =>
          obtain ⟨d',_ | t⟩ := found
          · rfl
          · simp only [bind,Except.bind,toOutside_udp udp,noteOutbound_none notTcp,record_id]

theorem forward_ignored (d : NaptData) (now : UInt32) (pcbs : LocalPcbs) (draws : List Draw) (outp : Netif)
    (idle : inp.napt = false ∨ ¬ Outbound p) : ipNaptForward d now pcbs draws inp outp p = .ok ⟨d,p,.ok,false⟩ := by
  unfold ipNaptForward
  rcases idle with off | other
  · rw [if_pos (by simp [off])]
  · obtain ⟨echo,transport⟩ := not_or.mp other
    obtain ⟨tcp,udp⟩ := not_or.mp transport
    rw [if_neg tcp,if_neg udp]
    split_ifs with off icmp request
    · rfl
    · exact absurd ⟨icmp,request⟩ echo
    · rfl
    · rfl

theorem forward_named (rep : Represents d a) (now : UInt32) (pcbs : LocalPcbs) (draws : List Draw) (outp : Netif)
    (on : inp.napt = true) (transport : Transport p) :
    ForwardRefines d a now inp outp p (ipNaptForward d now pcbs draws inp outp p) := by
  rw [forward_transport d now pcbs draws outp on transport]
  cases mapped : ipPortmapFindDest d (iphProto p) (portSrc p) (iphSrc p) with
  | some x =>
    obtain ⟨k,m⟩ := x
    exact .inr ⟨⟨d,_,.ok,false⟩,a,rfl,.mapped on transport mapped,rep,Fixed.refl d⟩
  | none =>
    dsimp only
    split_ifs with opening
    · exact forward_opening rep now pcbs draws outp on opening fun _ => mapped
    · exact forward_midway rep now outp on transport opening mapped

theorem forward_refines (rep : Represents d a) (now : UInt32) (pcbs : LocalPcbs) (draws : List Draw)
    (inp outp : Netif) (p : Packet) :
    ForwardRefines d a now inp outp p (ipNaptForward d now pcbs draws inp outp p) := by
  by_cases on : inp.napt = true
  · by_cases transport : Transport p
    · exact forward_named rep now pcbs draws outp on transport
    by_cases echo : iphProto p = ipProtoIcmp ∧ iechoType p = icmpEcho
    · exact forward_echo rep now pcbs draws outp on echo.1 echo.2
    have other : ¬ Outbound p := not_or.mpr ⟨echo,transport⟩
    exact .inr ⟨⟨d,p,.ok,false⟩,a,forward_ignored d now pcbs draws outp (.inr other),.ignored on other,rep,Fixed.refl d⟩
  · have off : inp.napt = false := by simpa using on
    exact .inr ⟨⟨d,p,.ok,false⟩,a,forward_ignored d now pcbs draws outp (.inl off),.off off,rep,Fixed.refl d⟩

end Forward
end NonosLinkLayer.Napt
