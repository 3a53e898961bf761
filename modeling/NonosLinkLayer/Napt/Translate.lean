import NonosLinkLayer.Napt.Table
import NonosLinkLayer.Napt.Packet
import NonosLinkLayer.Base.Transitions

namespace NonosLinkLayer.Napt

structure Netif where
  napt : Bool
  ipAddr : UInt32

-- The flags of a TCP packet from outside, and of one from inside, as the entry
-- of its connection records them.
def recordInbound (flags : UInt8) (t : Session) : Session :=
  let t := if flags &&& (tcpSyn ||| tcpAck) = tcpSyn ||| tcpAck then {t with synack := true} else t
  let t := if flags &&& tcpFin ≠ 0 then {t with fin1 := true} else t
  let t := if t.fin2 ∧ flags &&& tcpAck ≠ 0 then {t with finack2 := true} else t
  if flags &&& tcpRst ≠ 0 then {t with rst := true} else t

def recordOutbound (flags : UInt8) (t : Session) : Session :=
  let t := if flags &&& tcpFin ≠ 0 then {t with fin2 := true} else t
  let t := if t.fin1 ∧ flags &&& tcpAck ≠ 0 then {t with finack1 := true} else t
  if flags &&& tcpRst ≠ 0 then {t with rst := true} else t

theorem recordInbound_eq (flags : UInt8) (t : Session) : recordInbound flags t =
    {t with
      synack := t.synack || decide (flags &&& (tcpSyn ||| tcpAck) = tcpSyn ||| tcpAck)
      fin1 := t.fin1 || decide (flags &&& tcpFin ≠ 0)
      finack2 := t.finack2 || (t.fin2 && decide (flags &&& tcpAck ≠ 0))
      rst := t.rst || decide (flags &&& tcpRst ≠ 0)} := by
  obtain ⟨last,src,dest,sport,dport,mport,proto,fin1,fin2,finack1,finack2,synack,rst⟩ := t
  unfold recordInbound
  by_cases syn : flags &&& (tcpSyn ||| tcpAck) = tcpSyn ||| tcpAck <;> by_cases fin : flags &&& tcpFin ≠ 0 <;>
    by_cases ack : flags &&& tcpAck ≠ 0 <;> by_cases reset : flags &&& tcpRst ≠ 0 <;> cases fin2 <;>
    simp [syn,fin,ack,reset]

theorem recordOutbound_eq (flags : UInt8) (t : Session) : recordOutbound flags t =
    {t with
      fin2 := t.fin2 || decide (flags &&& tcpFin ≠ 0)
      finack1 := t.finack1 || (t.fin1 && decide (flags &&& tcpAck ≠ 0))
      rst := t.rst || decide (flags &&& tcpRst ≠ 0)} := by
  obtain ⟨last,src,dest,sport,dport,mport,proto,fin1,fin2,finack1,finack2,synack,rst⟩ := t
  unfold recordOutbound
  by_cases fin : flags &&& tcpFin ≠ 0 <;> by_cases ack : flags &&& tcpAck ≠ 0 <;>
    by_cases reset : flags &&& tcpRst ≠ 0 <;> cases fin1 <;> simp [fin,ack,reset]

def NaptData.record (d : NaptData) (i : Nat) (f : Session → Session) : NaptData :=
  d.modify i fun t => {t with toSession := f t.toSession}

def ipNaptRecv (d : NaptData) (now : UInt32) (p : Packet) : Except Fault (NaptData × Packet) :=
  if iphProto p = ipProtoIcmp then
    if iechoType p = icmpEr then do
      let (d,t) ← ipNaptFind d now ipProtoIcmp (iphSrc p) (iechoId p) (iechoId p) true
      match t with
      | none => return (d,p)
      | some t => return (d,ipNaptModifyAddr p 16 (d.table t).src)
    else .ok (d,p)
  else if iphProto p = ipProtoTcp then
    match ipPortmapFind d ipProtoTcp (portDest p) with
    | some (_,m) => .ok (d,rewriteTcp p true m.dport m.daddr)
    | none => do
      let (d,t) ← ipNaptFind d now ipProtoTcp (iphSrc p) (portSrc p) (portDest p) true
      match t with
      | none => return (d,p)
      | some t =>
        let e := d.table t
        let p := rewriteTcp p true e.sport e.src
        let d := d.record t (recordInbound (tcphFlags p))
        return (d,p)
  else if iphProto p = ipProtoUdp then
    match ipPortmapFind d ipProtoUdp (portDest p) with
    | some (_,m) => .ok (d,rewriteUdp p true m.dport m.daddr)
    | none => do
      let (d,t) ← ipNaptFind d now ipProtoUdp (iphSrc p) (portSrc p) (portDest p) true
      match t with
      | none => return (d,p)
      | some t => return (d,rewriteUdp p true (d.table t).sport (d.table t).src)
  else .ok (d,p)

structure Forwarded where
  data : NaptData
  packet : Packet
  err : Err
  unreach : Bool

def ipNaptForward (d : NaptData) (now : UInt32) (pcbs : LocalPcbs) (draws : List Draw) (inp outp : Netif)
    (p : Packet) : Except Fault Forwarded :=
  if !inp.napt then .ok ⟨d,p,.ok,false⟩
  else if iphProto p = ipProtoIcmp then
    if iechoType p = icmpEcho then do
      let (d,_) ← ipNaptAdd d now pcbs draws ipProtoIcmp (iphSrc p) (iechoId p) (iphDest p) (iechoId p)
      return ⟨d,ipNaptModifyAddr p 12 outp.ipAddr,.ok,false⟩
    else .ok ⟨d,p,.ok,false⟩
  else if iphProto p = ipProtoTcp then
    match ipPortmapFindDest d ipProtoTcp (portSrc p) (iphSrc p) with
    | some (_,m) => .ok ⟨d,rewriteTcp p false m.mport m.maddr,.ok,false⟩
    | none =>
      if tcphFlags p &&& (tcpSyn ||| tcpAck) = tcpSyn ∧ ByteMemory.swap16 (portSrc p) ≥ 1024 then do
        let (d,mport) ← ipNaptAdd d now pcbs draws ipProtoTcp (iphSrc p) (portSrc p) (iphDest p) (portDest p)
        return ⟨d,rewriteTcp p false mport outp.ipAddr,.ok,false⟩
      else do
        let (d,t) ← ipNaptFind d now ipProtoTcp (iphSrc p) (portSrc p) 0 false
        match t with
        | none => return ⟨d,p,.rte,true⟩
        | some t =>
          let e := d.table t
          if e.dest ≠ iphDest p ∨ e.dport ≠ portDest p then return ⟨d,p,.rte,true⟩
          else
            let d := d.record t (recordOutbound (tcphFlags p))
            return ⟨d,rewriteTcp p false e.mport outp.ipAddr,.ok,false⟩
  else if iphProto p = ipProtoUdp then
    match ipPortmapFindDest d ipProtoUdp (portSrc p) (iphSrc p) with
    | some (_,m) => .ok ⟨d,rewriteUdp p false m.mport m.maddr,.ok,false⟩
    | none =>
      if ByteMemory.swap16 (portSrc p) ≥ 1024 then do
        let (d,mport) ← ipNaptAdd d now pcbs draws ipProtoUdp (iphSrc p) (portSrc p) (iphDest p) (portDest p)
        return ⟨d,rewriteUdp p false mport outp.ipAddr,.ok,false⟩
      else do
        let (d,t) ← ipNaptFind d now ipProtoUdp (iphSrc p) (portSrc p) 0 false
        match t with
        | none => return ⟨d,p,.rte,true⟩
        | some t =>
          let e := d.table t
          if e.dest ≠ iphDest p ∨ e.dport ≠ portDest p then return ⟨d,p,.rte,true⟩
          else return ⟨d,rewriteUdp p false e.mport outp.ipAddr,.ok,false⟩
  else .ok ⟨d,p,.ok,false⟩

end NonosLinkLayer.Napt
