import NonosLinkLayer.Napt.Targets

namespace NonosLinkLayer.Napt
open ByteMemory

-- The code of Translate with every access to the packet checked against `p->len`.
def checksumadjustWithin (len : Nat) (p : Packet) (chksum optr count : Nat) (nptr : List (UInt8 × UInt8)) :
    Except Trap Packet := do
  let old ← within len (optr + 2 * count) (pairsAt p optr count)
  within len (chksum + 2) (checksumadjust p chksum old nptr)

def modifyPortWithin (len chksum : Nat) (p : Packet) (hdr : Nat) (dest : Bool) (newval : UInt16) : Except Trap Packet := do
  let field := if dest then hdr + 2 else hdr
  let p ← checksumadjustWithin len p (hdr + chksum) field 1 (pairs (bytes16 newval))
  within len (field + 2) (write p field (bytes16 newval))

def modifyAddrInWithin (len chksum : Nat) (p : Packet) (hdr field : Nat) (newval : UInt32) : Except Trap Packet :=
  checksumadjustWithin len p (hdr + chksum) field 2 (pairs (bytes32 newval))

def ipNaptModifyAddrWithin (len : Nat) (p : Packet) (field : Nat) (newval : UInt32) : Except Trap Packet := do
  let p ← checksumadjustWithin len p 10 field 2 (pairs (bytes32 newval))
  within len (field + 4) (write p field (bytes32 newval))

def rewriteWithin (len chksum : Nat) (p : Packet) (dest : Bool) (port : UInt16) (addr : UInt32) : Except Trap Packet := do
  let hdr := transport p
  let field := if dest then 16 else 12
  let old ← within len (if dest then hdr + 4 else hdr + 2) (if dest then portDest p else portSrc p)
  let p ← if port ≠ old then modifyPortWithin len chksum p hdr dest port else pure p
  let p ← modifyAddrInWithin len chksum p hdr field addr
  ipNaptModifyAddrWithin len p field addr

def ipNaptRecvWithin (len : Nat) (d : NaptData) (now : UInt32) (p : Packet) : Except Trap (NaptData × Packet) := do
  let hdr ← within len 1 (transport p)
  let proto ← within len 10 (iphProto p)
  if proto = ipProtoIcmp then
    let type ← within len (hdr + 1) (iechoType p)
    if type = icmpEr then
      let src ← within len 16 (iphSrc p)
      let id ← within len (hdr + 6) (iechoId p)
      let (d,t) ← lift (ipNaptFind d now ipProtoIcmp src id id true)
      match t with
      | none => return (d,p)
      | some t => return (d,←ipNaptModifyAddrWithin len p 16 (d.table t).src)
    else return (d,p)
  else if proto = ipProtoTcp then
    let dest ← within len (hdr + 4) (portDest p)
    match ipPortmapFind d ipProtoTcp dest with
    | some (_,m) => return (d,←rewriteWithin len 16 p true m.dport m.daddr)
    | none =>
      let src ← within len 16 (iphSrc p)
      let port ← within len (hdr + 2) (portSrc p)
      let (d,t) ← lift (ipNaptFind d now ipProtoTcp src port dest true)
      match t with
      | none => return (d,p)
      | some t =>
        let e := d.table t
        let p ← rewriteWithin len 16 p true e.sport e.src
        let flags ← within len (hdr + 14) (tcphFlags p)
        return (d.record t (recordInbound flags),p)
  else if proto = ipProtoUdp then
    let dest ← within len (hdr + 4) (portDest p)
    match ipPortmapFind d ipProtoUdp dest with
    | some (_,m) => return (d,←rewriteWithin len 6 p true m.dport m.daddr)
    | none =>
      let src ← within len 16 (iphSrc p)
      let port ← within len (hdr + 2) (portSrc p)
      let (d,t) ← lift (ipNaptFind d now ipProtoUdp src port dest true)
      match t with
      | none => return (d,p)
      | some t => return (d,←rewriteWithin len 6 p true (d.table t).sport (d.table t).src)
  else return (d,p)

def ipNaptForwardWithin (len : Nat) (d : NaptData) (now : UInt32) (pcbs : LocalPcbs) (draws : List Draw)
    (inp outp : Netif) (p : Packet) : Except Trap Forwarded := do
  if !inp.napt then return ⟨d,p,.ok,false⟩
  let hdr ← within len 1 (transport p)
  let proto ← within len 10 (iphProto p)
  if proto = ipProtoIcmp then
    let type ← within len (hdr + 1) (iechoType p)
    if type = icmpEcho then
      let src ← within len 16 (iphSrc p)
      let id ← within len (hdr + 6) (iechoId p)
      let dest ← within len 20 (iphDest p)
      let (d,_) ← lift (ipNaptAdd d now pcbs draws ipProtoIcmp src id dest id)
      return ⟨d,←ipNaptModifyAddrWithin len p 12 outp.ipAddr,.ok,false⟩
    else return ⟨d,p,.ok,false⟩
  else if proto = ipProtoTcp then
    let port ← within len (hdr + 2) (portSrc p)
    let src ← within len 16 (iphSrc p)
    match ipPortmapFindDest d ipProtoTcp port src with
    | some (_,m) => return ⟨d,←rewriteWithin len 16 p false m.mport m.maddr,.ok,false⟩
    | none =>
      let flags ← within len (hdr + 14) (tcphFlags p)
      if flags &&& (tcpSyn ||| tcpAck) = tcpSyn ∧ swap16 port ≥ 1024 then
        let dest ← within len 20 (iphDest p)
        let dport ← within len (hdr + 4) (portDest p)
        let (d,mport) ← lift (ipNaptAdd d now pcbs draws ipProtoTcp src port dest dport)
        return ⟨d,←rewriteWithin len 16 p false mport outp.ipAddr,.ok,false⟩
      else
        let (d,t) ← lift (ipNaptFind d now ipProtoTcp src port 0 false)
        match t with
        | none => return ⟨d,p,.rte,true⟩
        | some t =>
          let e := d.table t
          let dest ← within len 20 (iphDest p)
          if e.dest ≠ dest then return ⟨d,p,.rte,true⟩
          else
            let dport ← within len (hdr + 4) (portDest p)
            if e.dport ≠ dport then return ⟨d,p,.rte,true⟩
            else
              let d := d.record t (recordOutbound flags)
              return ⟨d,←rewriteWithin len 16 p false e.mport outp.ipAddr,.ok,false⟩
  else if proto = ipProtoUdp then
    let port ← within len (hdr + 2) (portSrc p)
    let src ← within len 16 (iphSrc p)
    match ipPortmapFindDest d ipProtoUdp port src with
    | some (_,m) => return ⟨d,←rewriteWithin len 6 p false m.mport m.maddr,.ok,false⟩
    | none =>
      if swap16 port ≥ 1024 then
        let dest ← within len 20 (iphDest p)
        let dport ← within len (hdr + 4) (portDest p)
        let (d,mport) ← lift (ipNaptAdd d now pcbs draws ipProtoUdp src port dest dport)
        return ⟨d,←rewriteWithin len 6 p false mport outp.ipAddr,.ok,false⟩
      else
        let (d,t) ← lift (ipNaptFind d now ipProtoUdp src port 0 false)
        match t with
        | none => return ⟨d,p,.rte,true⟩
        | some t =>
          let e := d.table t
          let dest ← within len 20 (iphDest p)
          if e.dest ≠ dest then return ⟨d,p,.rte,true⟩
          else
            let dport ← within len (hdr + 4) (portDest p)
            if e.dport ≠ dport then return ⟨d,p,.rte,true⟩
            else return ⟨d,←rewriteWithin len 6 p false e.mport outp.ipAddr,.ok,false⟩
  else return ⟨d,p,.ok,false⟩

-- How many bytes of the transport header a packet makes ip_napt_recv look at.
def recvReach (d : NaptData) (now : UInt32) (p : Packet) : Nat :=
  if iphProto p = ipProtoIcmp then if iechoType p = icmpEr then 6 else 1
  else if Transport p then
    match recvTarget d now p with
    | .ok (some _) => if iphProto p = ipProtoTcp then 18 else 8
    | _ => 4
  else 0

def sameDest (d : NaptData) (now : UInt32) (p : Packet) : Bool :=
  match ipNaptFind d now (iphProto p) (iphSrc p) (portSrc p) 0 false with
  | .ok (d,some t) => (d.table t).dest == iphDest p
  | _ => false

-- And for ip_napt_forward, which asks for the destination port of a UDP packet
-- only when the address is the right one.
def forwardReach (d : NaptData) (now : UInt32) (pcbs : LocalPcbs) (draws : List Draw) (inp outp : Netif)
    (p : Packet) : Nat :=
  if inp.napt = false then 0
  else if iphProto p = ipProtoIcmp then if iechoType p = icmpEcho then 6 else 1
  else if Transport p then
    match forwardSource d now pcbs draws inp outp p with
    | .ok (some _) => if iphProto p = ipProtoTcp then 18 else 8
    | _ => if iphProto p = ipProtoTcp then 14 else if Opening p ∨ sameDest d now p then 4 else 2
  else 0

def reaching (len last : Nat) (x : Except Trap α) : Except Trap α := if last ≤ len then x else .error .beyond

section Within
variable {len last chksum hdr : Nat} {p : Packet} {dest : Bool} {port : UInt16} {addr : UInt32}

theorem reaching_ok {x : Except Trap α} (fits : last ≤ len) : reaching len last x = x := if_pos fits

theorem reaching_beyond {x : Except Trap α} (short : len < last) : reaching len last x = .error .beyond := if_neg (by omega)

theorem checksumadjustWithin_eq {nptr : List (UInt8 × UInt8)} (inner : optr + 2 * count ≤ len) :
    checksumadjustWithin len p chksum optr count nptr =
      within len (chksum + 2) (checksumadjust p chksum (pairsAt p optr count) nptr) := by
  unfold checksumadjustWithin
  rw [within_ok inner,ok_then]

theorem modifyPortWithin_eq (inner : (if dest then hdr + 2 else hdr) + 2 ≤ len) :
    modifyPortWithin len chksum p hdr dest port = within len (hdr + chksum + 2) (modifyPort chksum p hdr dest port) := by
  unfold modifyPortWithin
  dsimp only
  rw [checksumadjustWithin_eq (by omega)]
  by_cases enough : hdr + chksum + 2 ≤ len
  · rw [within_ok enough,within_ok enough,ok_then,within_ok inner]
    rfl
  · rw [within_beyond (by omega),within_beyond (by omega),trap_then]

theorem modifyAddrInWithin_eq (inner : field + 4 ≤ len) : modifyAddrInWithin len chksum p hdr field addr =
    within len (hdr + chksum + 2) (modifyAddrIn chksum p hdr field addr) := by
  unfold modifyAddrInWithin
  rw [checksumadjustWithin_eq (by omega)]
  rfl

theorem ipNaptModifyAddrWithin_eq (inner : field + 4 ≤ len) (header : 12 ≤ len) :
    ipNaptModifyAddrWithin len p field addr = .ok (ipNaptModifyAddr p field addr) := by
  unfold ipNaptModifyAddrWithin
  rw [checksumadjustWithin_eq (by omega),within_ok header,ok_then,within_ok inner]
  rfl

-- Once the whole header is there, the checksum is the last thing a rewriting needs.
theorem rewriteWithin_eq (whole : 20 ≤ transport p) (fits : transport p ≤ len) (far : 4 ≤ chksum) :
    rewriteWithin len chksum p dest port addr =
      within len (transport p + chksum + 2) (rewrite chksum p dest port addr) := by
  have field : (if dest then 16 else 12) + 4 ≤ len := by split_ifs <;> omega
  unfold rewriteWithin rewrite
  dsimp only
  by_cases named : (if dest then transport p + 4 else transport p + 2) ≤ len
  · rw [within_ok named,ok_then]
    by_cases other : port ≠ if dest then portDest p else portSrc p
    · rw [if_pos other,if_pos other]
      rw [modifyPortWithin_eq (by split_ifs at named ⊢ <;> omega)]
      by_cases enough : transport p + chksum + 2 ≤ len
      · rw [within_ok enough,within_ok enough,ok_then,modifyAddrInWithin_eq field,within_ok enough,ok_then,
          ipNaptModifyAddrWithin_eq field (by omega)]
      · rw [within_beyond (by omega),within_beyond (by omega),trap_then]
    · rw [if_neg other,if_neg other]
      change (Except.ok p >>= _) = _
      rw [ok_then,modifyAddrInWithin_eq field]
      by_cases enough : transport p + chksum + 2 ≤ len
      · rw [within_ok enough,within_ok enough,ok_then,ipNaptModifyAddrWithin_eq field (by omega)]
      · rw [within_beyond (by omega),within_beyond (by omega),trap_then]
  · rw [within_beyond (by omega),within_beyond (by split_ifs at named <;> omega),trap_then]

theorem rewriteWithin_then (whole : 20 ≤ transport p) (fits : transport p ≤ len) (far : 4 ≤ chksum)
    (f : Packet → Except Trap β) : (rewriteWithin len chksum p dest port addr >>= f) =
      reaching len (transport p + (chksum + 2)) (f (rewrite chksum p dest port addr)) := by
  rw [rewriteWithin_eq whole fits far]
  by_cases enough : transport p + chksum + 2 ≤ len
  · rw [within_ok enough,reaching_ok (by omega),ok_then]
  · rw [within_beyond (by omega),reaching_beyond (by omega),trap_then]

structure Placed (len chksum : Nat) (p : Packet) : Prop where
  whole : 20 ≤ transport p
  fits : transport p ≤ len
  transported : Transport p
  far : 4 ≤ chksum
  ends : (if iphProto p = ipProtoTcp then 18 else 8) = chksum + 2
  inside : ∀ port addr, rewrite chksum p true port addr = toInside p port addr
  outside : ∀ port addr, rewrite chksum p false port addr = toOutside p port addr

theorem placed_tcp (whole : 20 ≤ transport p) (fits : transport p ≤ len) (tcp : iphProto p = ipProtoTcp) : Placed len 16 p :=
  ⟨whole,fits,.inl tcp,by decide,if_pos tcp,fun port addr => by rw [toInside_tcp tcp,rewriteTcp_eq],
    fun port addr => by rw [toOutside_tcp tcp,rewriteTcp_eq]⟩

theorem placed_udp (whole : 20 ≤ transport p) (fits : transport p ≤ len) (udp : iphProto p = ipProtoUdp) : Placed len 6 p :=
  ⟨whole,fits,.inr udp,by decide,if_neg (by rw [udp]; exact udp_tcp),fun port addr => by rw [toInside_udp udp,rewriteUdp_eq],
    fun port addr => by rw [toOutside_udp udp,rewriteUdp_eq]⟩

section Recv
variable (d : NaptData) (now : UInt32)

theorem recvReach_transport (transport : Transport p) : recvReach d now p =
    match recvTarget d now p with
    | .ok (some _) => if iphProto p = ipProtoTcp then 18 else 8
    | _ => 4 := by
  unfold recvReach
  rw [if_neg fun icmp => icmp_no_transport icmp transport,if_pos transport]

theorem recvWithin_icmp (whole : 20 ≤ transport p) (fits : transport p ≤ len) (icmp : iphProto p = ipProtoIcmp) :
    ipNaptRecvWithin len d now p = reaching len (transport p + recvReach d now p) (lift (ipNaptRecv d now p)) := by
  unfold ipNaptRecvWithin ipNaptRecv recvReach
  rw [within_ok (by omega),ok_then,within_ok (by omega),ok_then,if_pos icmp,if_pos icmp,if_pos icmp]
  by_cases type : transport p + 1 ≤ len
  · rw [within_ok type,ok_then]
    by_cases reply : iechoType p = icmpEr
    · rw [if_pos reply,if_pos reply,if_pos reply,within_ok (by omega),ok_then]
      by_cases id : transport p + 6 ≤ len
      · rw [within_ok id,reaching_ok id,ok_then,lift_bind]
        congr 1
        funext x
        obtain ⟨d',t⟩ := x
        cases t with
        | none => rfl
        | some t =>
          dsimp only
          rw [ipNaptModifyAddrWithin_eq (by omega) (by omega),ok_then]
          rfl
      · rw [within_beyond (by omega),reaching_beyond (by omega),trap_then]
    · rw [if_neg reply,if_neg reply,if_neg reply,reaching_ok type]
      rfl
  · rw [within_beyond (by omega),trap_then,reaching_beyond (by split_ifs <;> omega)]

theorem recvReach_named (transport : Transport p) : 4 ≤ recvReach d now p := by
  rw [recvReach_transport d now transport]
  split
  · split_ifs <;> decide
  · exact Nat.le_refl _

-- Once the ports are read both protocols do the same: where the packet is rewritten it
-- needs its checksum, and otherwise nothing more. `after` follows the rewriting.
theorem recvWithin_ports (placed : Placed len chksum p) (named : transport p + 4 ≤ len)
    (after : NaptData → Nat → Packet → Except Trap (NaptData × Packet))
    (done : transport p + (chksum + 2) ≤ len → ∀ d t q, after d t q = .ok (d.record t (noteInbound p q),q)) :
    (match ipPortmapFind d (iphProto p) (portDest p) with
    | some (_,m) => do
      let q ← rewriteWithin len chksum p true m.dport m.daddr
      return (d,q)
    | none => do
      let (d,t) ← lift (ipNaptFind d now (iphProto p) (iphSrc p) (portSrc p) (portDest p) true)
      match t with
      | none => return (d,p)
      | some t => do
        let q ← rewriteWithin len chksum p true (d.table t).sport (d.table t).src
        after d t q) = reaching len (transport p + recvReach d now p) (lift (ipNaptRecv d now p)) := by
  obtain ⟨whole,fits,transported,far,ends,same,_⟩ := placed
  rw [recvReach_transport d now transported,recvTarget_transport d now transported,recv_transport d now transported,ends]
  cases ipPortmapFind d (iphProto p) (portDest p) with
  | some x =>
    dsimp only
    rw [rewriteWithin_then whole fits far,same]
    rfl
  | none =>
    dsimp only
    cases ipNaptFind d now (iphProto p) (iphSrc p) (portSrc p) (portDest p) true with
    | error fault =>
      rw [trap_then,trap_then,reaching_ok named]
      rfl
    | ok x =>
      obtain ⟨d',t⟩ := x
      rw [lift_ok,ok_then,ok_then,ok_then]
      cases t with
      | none => exact (reaching_ok named).symm
      | some t =>
        dsimp only [Option.map_some,pure,Except.pure]
        rw [rewriteWithin_then whole fits far,same]
        by_cases enough : transport p + (chksum + 2) ≤ len
        · rw [reaching_ok enough,reaching_ok enough,done enough]
          rfl
        · have short : len < transport p + (chksum + 2) := by omega
          rw [reaching_beyond short,reaching_beyond short]

theorem recvWithin_tcp (whole : 20 ≤ transport p) (fits : transport p ≤ len) (tcp : iphProto p = ipProtoTcp) :
    ipNaptRecvWithin len d now p = reaching len (transport p + recvReach d now p) (lift (ipNaptRecv d now p)) := by
  have least := recvReach_named d now (.inl tcp)
  unfold ipNaptRecvWithin
  rw [within_ok (by omega),ok_then,within_ok (by omega),ok_then,if_neg (by rw [tcp]; exact tcp_icmp),if_pos tcp]
  by_cases named : transport p + 4 ≤ len
  · have ports := recvWithin_ports d now (placed_tcp whole fits tcp) named
      (fun d t q => do
        let flags ← within len (transport p + 14) (tcphFlags q)
        return (d.record t (recordInbound flags),q))
      (fun enough d t q => by rw [within_ok (by omega),noteInbound_tcp tcp]; rfl)
    rw [within_ok named,ok_then,within_ok (by omega),ok_then,within_ok (by omega),ok_then]
    rw [tcp] at ports
    exact ports
  · rw [within_beyond (by omega),trap_then,reaching_beyond (by omega)]

theorem recvWithin_udp (whole : 20 ≤ transport p) (fits : transport p ≤ len) (udp : iphProto p = ipProtoUdp) :
    ipNaptRecvWithin len d now p = reaching len (transport p + recvReach d now p) (lift (ipNaptRecv d now p)) := by
  have least := recvReach_named d now (.inr udp)
  have notTcp : iphProto p ≠ ipProtoTcp := by rw [udp]; exact udp_tcp
  unfold ipNaptRecvWithin
  rw [within_ok (by omega),ok_then,within_ok (by omega),ok_then,if_neg (by rw [udp]; exact udp_icmp),if_neg notTcp,if_pos udp]
  by_cases named : transport p + 4 ≤ len
  · have ports := recvWithin_ports d now (placed_udp whole fits udp) named (fun d t q => .ok (d,q))
      (fun enough d t q => by rw [noteInbound_none notTcp,record_id])
    rw [within_ok named,ok_then,within_ok (by omega),ok_then,within_ok (by omega),ok_then]
    rw [udp] at ports
    exact ports
  · rw [within_beyond (by omega),trap_then,reaching_beyond (by omega)]

theorem recvWithin_eq (whole : 20 ≤ transport p) (fits : transport p ≤ len) :
    ipNaptRecvWithin len d now p = reaching len (transport p + recvReach d now p) (lift (ipNaptRecv d now p)) := by
  by_cases icmp : iphProto p = ipProtoIcmp
  · exact recvWithin_icmp d now whole fits icmp
  by_cases tcp : iphProto p = ipProtoTcp
  · exact recvWithin_tcp d now whole fits tcp
  by_cases udp : iphProto p = ipProtoUdp
  · exact recvWithin_udp d now whole fits udp
  have other : ¬ Transport p := not_or.mpr ⟨tcp,udp⟩
  unfold ipNaptRecvWithin ipNaptRecv recvReach
  rw [within_ok (by omega),ok_then,within_ok (by omega),ok_then]
  simp only [icmp,tcp,udp,other,if_false]
  rw [reaching_ok (by omega)]
  rfl

end Recv

section Forward
variable (d : NaptData) (now : UInt32) (pcbs : LocalPcbs) (draws : List Draw) {inp : Netif} (outp : Netif)

def forwardNear (d : NaptData) (now : UInt32) (p : Packet) : Nat :=
  if iphProto p = ipProtoTcp then 14 else if Opening p ∨ sameDest d now p then 4 else 2

theorem forwardReach_transport (on : inp.napt = true) (transport : Transport p) :
    forwardReach d now pcbs draws inp outp p =
      match forwardSource d now pcbs draws inp outp p with
      | .ok (some _) => if iphProto p = ipProtoTcp then 18 else 8
      | _ => forwardNear d now p := by
  unfold forwardReach
  rw [if_neg (by simp [on]),if_neg fun icmp => icmp_no_transport icmp transport,if_pos transport]
  rfl

-- Every TCP packet has its flags looked at; a UDP packet has at least its source
-- port, and both ports when it opens a session or is on the way to the one it has.
theorem forwardReach_least (on : inp.napt = true) (transport : Transport p) :
    2 ≤ forwardReach d now pcbs draws inp outp p ∧
    (iphProto p = ipProtoTcp → 14 ≤ forwardReach d now pcbs draws inp outp p) ∧
    (Opening p ∨ sameDest d now p = true → 4 ≤ forwardReach d now pcbs draws inp outp p) := by
  rw [forwardReach_transport d now pcbs draws outp on transport]
  unfold forwardNear
  by_cases tcp : iphProto p = ipProtoTcp
  · rw [if_pos tcp,if_pos tcp]
    split <;> simp
  · rw [if_neg tcp,if_neg tcp]
    refine ⟨?_,fun yes => absurd yes tcp,fun looks => ?_⟩
    · split
      · decide
      · split_ifs <;> decide
    · rw [if_pos looks]
      split <;> decide

theorem forwardNear_fits (midway : ¬ Opening p) (named : transport p + 2 ≤ len)
    (flagged : iphProto p = ipProtoTcp → transport p + 14 ≤ len)
    (met : sameDest d now p = true → transport p + 4 ≤ len) : transport p + forwardNear d now p ≤ len := by
  unfold forwardNear
  split_ifs with tcp looks
  · exact flagged tcp
  · exact met (looks.resolve_left midway)
  · exact named

theorem forwardWithin_mapped (placed : Placed len chksum p) (on : inp.napt = true)
    (found : ipPortmapFindDest d (iphProto p) (portSrc p) (iphSrc p) = some (k,m)) :
    (do
      let q ← rewriteWithin len chksum p false m.mport m.maddr
      return ⟨d,q,.ok,false⟩) =
      reaching len (transport p + forwardReach d now pcbs draws inp outp p) (lift (ipNaptForward d now pcbs draws inp outp p)) := by
  obtain ⟨whole,fits,transported,far,ends,_,same⟩ := placed
  rw [forwardReach_transport d now pcbs draws outp on transported,forwardSource_transport d now pcbs draws outp on transported,
    forward_transport d now pcbs draws outp on transported,ends,found]
  dsimp only
  rw [rewriteWithin_then whole fits far,same]
  rfl

theorem forwardWithin_opened (placed : Placed len chksum p) (on : inp.napt = true)
    (unmapped : ipPortmapFindDest d (iphProto p) (portSrc p) (iphSrc p) = none)
    (opening : Opening p) (enough : transport p + forwardNear d now p ≤ len) :
    (do
      let (d,mport) ← lift (ipNaptAdd d now pcbs draws (iphProto p) (iphSrc p) (portSrc p) (iphDest p) (portDest p))
      let q ← rewriteWithin len chksum p false mport outp.ipAddr
      return ⟨d,q,.ok,false⟩) =
      reaching len (transport p + forwardReach d now pcbs draws inp outp p) (lift (ipNaptForward d now pcbs draws inp outp p)) := by
  obtain ⟨whole,fits,transported,far,ends,_,same⟩ := placed
  rw [forwardReach_transport d now pcbs draws outp on transported,forwardSource_transport d now pcbs draws outp on transported,
    forward_transport d now pcbs draws outp on transported,ends,unmapped]
  dsimp only
  rw [if_pos opening,if_pos opening,sender_transport transported,receiver_transport transported]
  cases ipNaptAdd d now pcbs draws (iphProto p) (iphSrc p) (portSrc p) (iphDest p) (portDest p) with
  | error fault => exact (reaching_ok enough).symm
  | ok x =>
    rw [lift_ok,ok_then,ok_then,ok_then]
    dsimp only [pure,Except.pure]
    rw [rewriteWithin_then whole fits far,same]
    rfl

-- A packet on the way: the destination port is only looked at when the address is the one of its session.
theorem forwardWithin_midway (placed : Placed len chksum p) (on : inp.napt = true)
    (unmapped : ipPortmapFindDest d (iphProto p) (portSrc p) (iphSrc p) = none)
    (midway : ¬ Opening p) (named : transport p + 2 ≤ len) (flagged : iphProto p = ipProtoTcp → transport p + 14 ≤ len) :
    (do
      let (d,t) ← lift (ipNaptFind d now (iphProto p) (iphSrc p) (portSrc p) 0 false)
      match t with
      | none => return ⟨d,p,.rte,true⟩
      | some t => do
        let dest ← within len 20 (iphDest p)
        if (d.table t).dest ≠ dest then return ⟨d,p,.rte,true⟩
        else do
          let dport ← within len (transport p + 4) (portDest p)
          if (d.table t).dport ≠ dport then return ⟨d,p,.rte,true⟩
          else do
            let q ← rewriteWithin len chksum p false (d.table t).mport outp.ipAddr
            return ⟨d.record t (noteOutbound p),q,.ok,false⟩) =
      reaching len (transport p + forwardReach d now pcbs draws inp outp p) (lift (ipNaptForward d now pcbs draws inp outp p)) := by
  obtain ⟨whole,fits,transported,far,ends,_,same⟩ := placed
  have least := (forwardReach_least d now pcbs draws outp on transported).2.2
  have near := forwardNear_fits d now midway named flagged
  have looked : sameDest d now p = match ipNaptFind d now (iphProto p) (iphSrc p) (portSrc p) 0 false with
    | .ok (d,some t) => (d.table t).dest == iphDest p
    | _ => false := rfl
  rw [forwardReach_transport d now pcbs draws outp on transported,forwardSource_transport d now pcbs draws outp on transported] at least ⊢
  rw [forward_transport d now pcbs draws outp on transported]
  rw [ends,unmapped] at least ⊢
  dsimp only at least ⊢
  rw [if_neg midway] at least ⊢
  rw [if_neg midway]
  cases found : ipNaptFind d now (iphProto p) (iphSrc p) (portSrc p) 0 false with
  | error fault =>
    rw [found] at looked
    exact (reaching_ok (near fun met => by rw [looked] at met; cases met)).symm
  | ok x =>
    obtain ⟨d',t⟩ := x
    rw [found] at looked least
    rw [lift_ok,ok_then,ok_then,ok_then]
    rw [ok_then] at least
    cases t with
    | none => exact (reaching_ok (near fun met => by rw [looked] at met; cases met)).symm
    | some t =>
      dsimp only at looked least ⊢
      rw [within_ok (by omega),ok_then]
      by_cases other : (d'.table t).dest ≠ iphDest p
      · rw [if_pos other,if_pos (.inl other),if_pos (.inl other)]
        exact (reaching_ok (near fun met => absurd (beq_iff_eq.mp (looked.symm.trans met)) other)).symm
      have met : sameDest d now p = true := by
        rw [looked]
        exact beq_iff_eq.mpr (not_not.mp other)
      rw [if_neg other]
      by_cases both : transport p + 4 ≤ len
      · rw [within_ok both,ok_then]
        by_cases foreign : (d'.table t).dport ≠ portDest p
        · rw [if_pos foreign,if_pos (.inr foreign),if_pos (.inr foreign)]
          exact (reaching_ok (near fun _ => both)).symm
        · have own : ¬ ((d'.table t).dest ≠ iphDest p ∨ (d'.table t).dport ≠ portDest p) := not_or.mpr ⟨other,foreign⟩
          rw [if_neg foreign,if_neg own,if_neg own]
          dsimp only [pure,Except.pure]
          rw [rewriteWithin_then whole fits far,same]
          rfl
      · have beyond := least (.inr met)
        rw [within_beyond (by omega),trap_then,reaching_beyond (by omega)]

theorem forwardWithin_tcp (whole : 20 ≤ transport p) (fits : transport p ≤ len) (on : inp.napt = true)
    (tcp : iphProto p = ipProtoTcp) : ipNaptForwardWithin len d now pcbs draws inp outp p =
      reaching len (transport p + forwardReach d now pcbs draws inp outp p) (lift (ipNaptForward d now pcbs draws inp outp p)) := by
  have placed := placed_tcp whole fits tcp
  obtain ⟨low,flags,_⟩ := forwardReach_least d now pcbs draws outp on placed.transported
  have mapped := fun k m => forwardWithin_mapped d now pcbs draws outp (k:=k) (m:=m) placed on
  have opened := forwardWithin_opened d now pcbs draws outp placed on
  have midway := forwardWithin_midway d now pcbs draws outp placed on
  have opens := opening_transport placed.transported
  have near : forwardNear d now p = 14 := if_pos tcp
  rw [noteOutbound_tcp tcp] at midway
  rw [near] at opened
  simp only [tcp,forall_const] at mapped opened midway opens
  unfold ipNaptForwardWithin
  rw [if_neg (by simp [on])]
  change (within len 1 (transport p) >>= _) = _
  rw [within_ok (by omega),ok_then,within_ok (by omega),ok_then,if_neg (by rw [tcp]; exact tcp_icmp),if_pos tcp]
  by_cases named : transport p + 2 ≤ len
  · rw [within_ok named,ok_then,within_ok (by omega),ok_then]
    cases found : ipPortmapFindDest d ipProtoTcp (portSrc p) (iphSrc p) with
    | some x => exact mapped x.1 x.2 found
    | none =>
      dsimp only
      by_cases flagged : transport p + 14 ≤ len
      · rw [within_ok flagged,ok_then]
        by_cases opening : Opening p
        · rw [if_pos (opens.mp opening),within_ok (by omega),ok_then,within_ok (by omega),ok_then]
          exact opened found opening flagged
        · rw [if_neg (opens.not.mp opening)]
          exact midway found opening named flagged
      · have short := flags tcp
        rw [within_beyond (by omega),trap_then,reaching_beyond (by omega)]
  · rw [within_beyond (by omega),trap_then,reaching_beyond (by omega)]

theorem forwardWithin_udp (whole : 20 ≤ transport p) (fits : transport p ≤ len) (on : inp.napt = true)
    (udp : iphProto p = ipProtoUdp) : ipNaptForwardWithin len d now pcbs draws inp outp p =
      reaching len (transport p + forwardReach d now pcbs draws inp outp p) (lift (ipNaptForward d now pcbs draws inp outp p)) := by
  have placed := placed_udp whole fits udp
  have notTcp : iphProto p ≠ ipProtoTcp := by rw [udp]; exact udp_tcp
  obtain ⟨low,_,ports⟩ := forwardReach_least d now pcbs draws outp on placed.transported
  have mapped := fun k m => forwardWithin_mapped d now pcbs draws outp (k:=k) (m:=m) placed on
  have opened := forwardWithin_opened d now pcbs draws outp placed on
  have midway := forwardWithin_midway d now pcbs draws outp placed on
  have opens := opening_transport placed.transported
  have near : Opening p → forwardNear d now p = 4 := fun opening => by
    unfold forwardNear
    rw [if_neg notTcp,if_pos (.inl opening)]
  rw [noteOutbound_none notTcp] at midway
  simp only [udp,udp_tcp,record_id,false_implies,true_and,forall_const] at mapped opened midway opens
  unfold ipNaptForwardWithin
  rw [if_neg (by simp [on])]
  change (within len 1 (transport p) >>= _) = _
  rw [within_ok (by omega),ok_then,within_ok (by omega),ok_then,if_neg (by rw [udp]; exact udp_icmp),if_neg notTcp,if_pos udp]
  by_cases named : transport p + 2 ≤ len
  · rw [within_ok named,ok_then,within_ok (by omega),ok_then]
    cases found : ipPortmapFindDest d ipProtoUdp (portSrc p) (iphSrc p) with
    | some x => exact mapped x.1 x.2 found
    | none =>
      dsimp only
      by_cases opening : Opening p
      · rw [if_pos (opens.mp opening),within_ok (by omega),ok_then]
        by_cases both : transport p + 4 ≤ len
        · rw [within_ok both,ok_then]
          exact opened found opening (by rw [near opening]; exact both)
        · have short := ports (.inl opening)
          rw [within_beyond (by omega),trap_then,reaching_beyond (by omega)]
      · rw [if_neg (opens.not.mp opening)]
        exact midway found opening named
  · rw [within_beyond (by omega),trap_then,reaching_beyond (by omega)]

theorem forwardWithin_icmp (whole : 20 ≤ transport p) (fits : transport p ≤ len) (on : inp.napt = true)
    (icmp : iphProto p = ipProtoIcmp) : ipNaptForwardWithin len d now pcbs draws inp outp p =
      reaching len (transport p + forwardReach d now pcbs draws inp outp p) (lift (ipNaptForward d now pcbs draws inp outp p)) := by
  have live : ¬ (!inp.napt) = true := by simp [on]
  have lively : ¬ inp.napt = false := by simp [on]
  unfold ipNaptForwardWithin ipNaptForward forwardReach
  rw [if_neg live,if_neg live,if_neg lively]
  change (within len 1 (transport p) >>= _) = _
  rw [within_ok (by omega),ok_then,within_ok (by omega),ok_then,if_pos icmp,if_pos icmp,if_pos icmp]
  by_cases type : transport p + 1 ≤ len
  · rw [within_ok type,ok_then]
    by_cases echo : iechoType p = icmpEcho
    · rw [if_pos echo,if_pos echo,if_pos echo,within_ok (by omega),ok_then]
      by_cases id : transport p + 6 ≤ len
      · rw [within_ok id,reaching_ok id,ok_then,within_ok (by omega),ok_then,lift_bind]
        congr 1
        funext x
        dsimp only
        rw [ipNaptModifyAddrWithin_eq (by omega) (by omega),ok_then]
        rfl
      · rw [within_beyond (by omega),reaching_beyond (by omega),trap_then]
    · rw [if_neg echo,if_neg echo,if_neg echo,reaching_ok type]
      rfl
  · rw [within_beyond (by omega),trap_then,reaching_beyond (by split_ifs <;> omega)]

theorem forwardWithin_eq (inp : Netif) (whole : 20 ≤ transport p) (fits : transport p ≤ len) :
    ipNaptForwardWithin len d now pcbs draws inp outp p =
      reaching len (transport p + forwardReach d now pcbs draws inp outp p) (lift (ipNaptForward d now pcbs draws inp outp p)) := by
  by_cases on : inp.napt = true
  · by_cases icmp : iphProto p = ipProtoIcmp
    · exact forwardWithin_icmp d now pcbs draws outp whole fits on icmp
    by_cases tcp : iphProto p = ipProtoTcp
    · exact forwardWithin_tcp d now pcbs draws outp whole fits on tcp
    by_cases udp : iphProto p = ipProtoUdp
    · exact forwardWithin_udp d now pcbs draws outp whole fits on udp
    have other : ¬ Transport p := not_or.mpr ⟨tcp,udp⟩
    have live : ¬ (!inp.napt) = true := by simp [on]
    have lively : ¬ inp.napt = false := by simp [on]
    unfold ipNaptForwardWithin ipNaptForward forwardReach
    rw [if_neg live,if_neg live,if_neg lively]
    change (within len 1 (transport p) >>= _) = _
    rw [within_ok (by omega),ok_then,within_ok (by omega),ok_then]
    simp only [icmp,tcp,udp,other,if_false]
    rw [reaching_ok (by omega)]
    rfl
  · have off : (!inp.napt) = true := by simpa using on
    have dead : inp.napt = false := by simpa using on
    unfold ipNaptForwardWithin ipNaptForward forwardReach
    rw [if_pos off,if_pos off,if_pos dead,reaching_ok (by omega)]
    rfl

end Forward

end Within

end NonosLinkLayer.Napt
