import NonosLinkLayer.Napt.Rules

namespace NonosLinkLayer.Napt

-- The port and the address the tables hold for an inbound packet: the target of
-- its mapping, or the inside end of its session.
def recvTarget (d : NaptData) (now : UInt32) (p : Packet) : Except Fault (Option (UInt16 × UInt32)) :=
  if ¬ Inbound p then .ok none
  else match (if Transport p then ipPortmapFind d (iphProto p) (portDest p) else none) with
  | some (_,m) => .ok (some (m.dport,m.daddr))
  | none => do
    let (d,t) ← ipNaptFind d now (iphProto p) (iphSrc p) (sender p) (receiver p) true
    return t.map fun t => ((d.table t).sport,(d.table t).src)

def forwardSource (d : NaptData) (now : UInt32) (pcbs : LocalPcbs) (draws : List Draw) (inp outp : Netif)
    (p : Packet) : Except Fault (Option (UInt16 × UInt32)) :=
  if inp.napt = false ∨ ¬ Outbound p then .ok none
  else match (if Transport p then ipPortmapFindDest d (iphProto p) (portSrc p) (iphSrc p) else none) with
  | some (_,m) => .ok (some (m.mport,m.maddr))
  | none =>
    if Opening p then do
      let (_,mport) ← ipNaptAdd d now pcbs draws (iphProto p) (iphSrc p) (sender p) (iphDest p) (receiver p)
      return some (mport,outp.ipAddr)
    else do
      let (d,t) ← ipNaptFind d now (iphProto p) (iphSrc p) (portSrc p) 0 false
      match t with
      | none => return none
      | some t =>
        if (d.table t).dest ≠ iphDest p ∨ (d.table t).dport ≠ portDest p then return none
        else return some ((d.table t).mport,outp.ipAddr)

def inward (p : Packet) (target : Option (UInt16 × UInt32)) : Packet :=
  target.elim p fun x => toInside p x.1 x.2
def outward (p : Packet) (source : Option (UInt16 × UInt32)) : Packet :=
  source.elim p fun x => toOutside p x.1 x.2

section Targets
variable {d : NaptData} {now : UInt32} {p : Packet}

theorem except_map_bind {x : Except ε α} {f : α → Except ε β} {g : β → γ} :
    Except.map g (x >>= f) = x >>= fun a => Except.map g (f a) := by
  cases x <;> rfl

theorem icmp_ends (icmp : iphProto p = ipProtoIcmp) : sender p = iechoId p ∧ receiver p = iechoId p := by
  simp [sender,receiver,icmp]

theorem recvTarget_transport (d : NaptData) (now : UInt32) (transport : Transport p) : recvTarget d now p =
    match ipPortmapFind d (iphProto p) (portDest p) with
    | some (_,m) => .ok (some (m.dport,m.daddr))
    | none => do
      let (d,t) ← ipNaptFind d now (iphProto p) (iphSrc p) (portSrc p) (portDest p) true
      return t.map fun t => ((d.table t).sport,(d.table t).src) := by
  unfold recvTarget
  rw [if_neg (not_not.mpr (.inr transport)),if_pos transport,sender_transport transport,receiver_transport transport]

theorem forwardSource_transport (d : NaptData) (now : UInt32) (pcbs : LocalPcbs) (draws : List Draw) {inp : Netif}
    (outp : Netif) (on : inp.napt = true) (transport : Transport p) : forwardSource d now pcbs draws inp outp p =
    match ipPortmapFindDest d (iphProto p) (portSrc p) (iphSrc p) with
    | some (_,m) => .ok (some (m.mport,m.maddr))
    | none =>
      if Opening p then do
        let (_,mport) ← ipNaptAdd d now pcbs draws (iphProto p) (iphSrc p) (sender p) (iphDest p) (receiver p)
        return some (mport,outp.ipAddr)
      else do
        let (d,t) ← ipNaptFind d now (iphProto p) (iphSrc p) (portSrc p) 0 false
        match t with
        | none => return none
        | some t =>
          if (d.table t).dest ≠ iphDest p ∨ (d.table t).dport ≠ portDest p then return none
          else return some ((d.table t).mport,outp.ipAddr) := by
  unfold forwardSource
  rw [if_neg (not_or.mpr ⟨by simp [on],not_not.mpr (.inr transport)⟩),if_pos transport]

theorem recv_inward (d : NaptData) (now : UInt32) (p : Packet) :
    (ipNaptRecv d now p).map Prod.snd = (recvTarget d now p).map (inward p) := by
  by_cases transport : Transport p
  · rw [recv_transport d now transport,recvTarget_transport d now transport]
    cases ipPortmapFind d (iphProto p) (portDest p) with
    | some m => rfl
    | none =>
      dsimp only
      rw [except_map_bind,except_map_bind]
      congr 1
      funext x
      obtain ⟨d',t⟩ := x
      cases t <;> rfl
  by_cases echo : iphProto p = ipProtoIcmp ∧ iechoType p = icmpEr
  · have inbound : Inbound p := .inl echo
    obtain ⟨icmp,reply⟩ := echo
    obtain ⟨source,sink⟩ := icmp_ends icmp
    unfold ipNaptRecv recvTarget
    rw [if_pos icmp,if_pos reply,if_neg (not_not.mpr inbound),if_neg transport,source,sink,icmp]
    dsimp only
    rw [except_map_bind,except_map_bind]
    congr 1
    funext x
    obtain ⟨d',t⟩ := x
    cases t with
    | none => rfl
    | some t => simp [inward,toInside_icmp icmp,pure,Except.pure,Except.map]
  have other : ¬ Inbound p := not_or.mpr ⟨echo,transport⟩
  rw [recv_ignored d now other]
  unfold recvTarget
  rw [if_pos other]
  rfl

theorem forward_outward (d : NaptData) (now : UInt32) (pcbs : LocalPcbs) (draws : List Draw) (inp outp : Netif)
    (p : Packet) : (ipNaptForward d now pcbs draws inp outp p).map Forwarded.packet =
      (forwardSource d now pcbs draws inp outp p).map (outward p) := by
  by_cases idle : inp.napt = false ∨ ¬ Outbound p
  · rw [forward_ignored d now pcbs draws outp idle]
    unfold forwardSource
    rw [if_pos idle]
    rfl
  obtain ⟨live,outbound⟩ := not_or.mp idle
  have on : inp.napt = true := by simpa using live
  by_cases transport : Transport p
  · rw [forward_transport d now pcbs draws outp on transport,forwardSource_transport d now pcbs draws outp on transport]
    cases ipPortmapFindDest d (iphProto p) (portSrc p) (iphSrc p) with
    | some m => rfl
    | none =>
      dsimp only
      split_ifs
      · rw [except_map_bind,except_map_bind]
        rfl
      · rw [except_map_bind,except_map_bind]
        congr 1
        funext x
        obtain ⟨d',t⟩ := x
        cases t with
        | none => rfl
        | some t =>
          dsimp only
          split_ifs <;> rfl
  obtain ⟨icmp,echo⟩ := (not_not.mp outbound).resolve_right transport
  have opening : Opening p := .inl ⟨icmp,echo⟩
  obtain ⟨source,sink⟩ := icmp_ends icmp
  unfold ipNaptForward forwardSource
  rw [if_neg (by simp [on]),if_pos icmp,if_pos echo,if_neg idle,if_neg transport]
  dsimp only
  rw [if_pos opening,source,sink,icmp,except_map_bind,except_map_bind]
  simp [outward,toOutside_icmp icmp,pure,Except.pure,Except.map]

end Targets

end NonosLinkLayer.Napt
