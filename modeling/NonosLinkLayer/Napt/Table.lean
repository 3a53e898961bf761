import NonosLinkLayer.Napt.Portmap

namespace NonosLinkLayer.Napt
open ByteMemory

def NaptData.count (d : NaptData) (proto : UInt8) (delta : Int) : NaptData :=
  let d := if proto = ipProtoTcp then {d with nrActiveTcp := d.nrActiveTcp + delta} else d
  let d := if proto = ipProtoUdp then {d with nrActiveUdp := d.nrActiveUdp + delta} else d
  if proto = ipProtoIcmp then {d with nrActiveIcmp := d.nrActiveIcmp + delta} else d

def ipNaptInsert (d : NaptData) (ti : Nat) : Except Fault NaptData :=
  if ti ≠ d.free then .error .assertion
  else
    let d := {d with free := (d.table ti).next}
    let d := d.modify ti fun t => {t with prev := noIdx}
    let d := d.modify ti fun t => {t with next := d.list}
    let d := if d.list ≠ noIdx then d.modify d.list fun t => {t with prev := ti} else d
    let d := {d with list := ti}
    let d := if d.listLast = noIdx then {d with listLast := ti} else d
    .ok (d.count (d.table ti).proto 1)

def ipNaptFree (d : NaptData) (ti : Nat) : NaptData :=
  let d := if ti = d.list then {d with list := (d.table ti).next} else d
  let d := if ti = d.listLast then {d with listLast := (d.table ti).prev} else d
  let d := if (d.table ti).next ≠ noIdx then
    d.modify (d.table ti).next fun t => {t with prev := (d.table ti).prev} else d
  let d := if (d.table ti).prev ≠ noIdx then
    d.modify (d.table ti).prev fun t => {t with next := (d.table ti).next} else d
  let d := d.modify ti fun t => {t with prev := noIdx}
  let d := d.modify ti fun t => {t with next := d.free}
  let d := {d with free := ti}
  d.count (d.table ti).proto (-1)

-- A loop over the chain of entries in use takes at most as many turns as the
-- table has entries; more turns mean that it does not end.
def findPortLoop (d : NaptData) (proto : UInt8) (port : UInt16) : Nat → Nat → Except Fault Bool
  | turns,i =>
    if i = noIdx then .ok false
    else match turns with
      | 0 => .error .endless
      | turns+1 =>
        let t := d.table i
        if t.proto = proto ∧ t.mport = port then .ok true
        else findPortLoop d proto port turns t.next

def ipNaptFindPort (d : NaptData) (proto : UInt8) (port : UInt16) : Except Fault Bool :=
  findPortLoop d proto port d.naptMax d.list

structure LocalPcbs where
  tcpListen : List UInt16
  udp : List UInt16

def tcpListening (d : NaptData) (pcbs : LocalPcbs) (port : UInt16) : Bool :=
  pcbs.tcpListen.contains port || (ipPortmapFind d ipProtoTcp port).isSome

def udpListening (d : NaptData) (pcbs : LocalPcbs) (port : UInt16) : Bool :=
  pcbs.udp.contains port || (ipPortmapFind d ipProtoUdp port).isSome

-- PP_HTONS is a macro that uses its argument twice, so one turn of the search
-- draws two random numbers: the first gives the low byte of the port in host
-- order, the second the high byte.
structure Draw where
  low : UInt32
  high : UInt32

def drawnPort (draw : Draw) : UInt16 :=
  let span : UInt32 := ipNaptPortRangeEnd.toUInt32 - ipNaptPortRangeStart.toUInt32 + 1
  let low := ipNaptPortRangeStart.toUInt32 + draw.low % span
  let high := ipNaptPortRangeStart.toUInt32 + draw.high % span
  ((low &&& 0xff) <<< 8 ||| (high &&& 0xff00) >>> 8).toUInt16

def newPortLoop (d : NaptData) (pcbs : LocalPcbs) (proto : UInt8) : List Draw → Except Fault UInt16
  | [] => .error .draws
  | draw :: draws => do
    let port := drawnPort draw
    if ←ipNaptFindPort d proto port then newPortLoop d pcbs proto draws
    else if proto = ipProtoTcp ∧ tcpListening d pcbs port then newPortLoop d pcbs proto draws
    else if proto = ipProtoUdp ∧ udpListening d pcbs port then newPortLoop d pcbs proto draws
    else return port

-- A port already in the range is kept when no entry has it and nothing listens
-- on it; the check for listeners is the one for TCP, whatever the protocol.
def ipNaptNewPort (d : NaptData) (pcbs : LocalPcbs) (proto : UInt8) (port : UInt16) (draws : List Draw) :
    Except Fault UInt16 := do
  if ipNaptPortRangeStart ≤ swap16 port ∧ swap16 port ≤ ipNaptPortRangeEnd then
    let used ← ipNaptFindPort d proto port
    if !used && !tcpListening d pcbs port then return port
    else newPortLoop d pcbs proto draws
  else newPortLoop d pcbs proto draws

-- The three tests at the top of the loop of ip_napt_find. `now - last` is
-- unsigned 32-bit arithmetic.
def expired (now : UInt32) (t : Session) : Bool :=
  (t.proto == ipProtoTcp &&
    ((((t.finack1 && t.finack2) || !t.synack) && decide (now - t.last > ipNaptTimeoutMsTcpDiscon)) ||
      decide (now - t.last > ipNaptTimeoutMsTcp))) ||
  (t.proto == ipProtoUdp && decide (now - t.last > ipNaptTimeoutMsUdp)) ||
  (t.proto == ipProtoIcmp && decide (now - t.last > ipNaptTimeoutMsIcmp))

-- The two ways to look an entry up: `dest = false` by its inside end,
-- `dest = true` by its outside end and the mapped port.
def lookedUp (proto : UInt8) (addr : UInt32) (port mport : UInt16) (dest : Bool) (t : Session) : Bool :=
  if dest then t.proto == proto && t.dest == addr && t.dport == port && t.mport == mport
  else t.proto == proto && t.src == addr && t.sport == port

def findLoop (now : UInt32) (wanted : Session → Bool) : Nat → NaptData → Nat → Except Fault (NaptData × Option Nat)
  | turns,d,i =>
    if i = noIdx then .ok (d,none)
    else match turns with
      | 0 => .error .endless
      | turns+1 =>
        let t := d.table i
        let next := t.next
        if expired now t.toSession then findLoop now wanted turns (ipNaptFree d i) next
        else if wanted t.toSession then .ok (d.modify i fun t => {t with last := now},some i)
        else findLoop now wanted turns d next

def ipNaptFind (d : NaptData) (now : UInt32) (proto : UInt8) (addr : UInt32) (port mport : UInt16)
    (dest : Bool) : Except Fault (NaptData × Option Nat) :=
  findLoop now (lookedUp proto addr port mport dest) d.naptMax d d.list

def ipNaptAdd (d : NaptData) (now : UInt32) (pcbs : LocalPcbs) (draws : List Draw) (proto : UInt8)
    (src : UInt32) (sport : UInt16) (dest : UInt32) (dport : UInt16) : Except Fault (NaptData × UInt16) := do
  let (d,t) ← ipNaptFind d now proto src sport 0 false
  match t with
  | some t =>
    let d := d.modify t fun t => {t with last := now,dest := dest,dport := dport}
    -- move this entry to the top of list
    let d := ipNaptFree d t
    let d ← ipNaptInsert d t
    return (d,(d.table t).mport)
  | none =>
    if d.free = noIdx then return (d,0)
    else
      let t := d.free
      let mport ← if proto = ipProtoTcp then ipNaptNewPort d pcbs ipProtoTcp sport draws else pure sport
      let mport ← if proto = ipProtoUdp then ipNaptNewPort d pcbs ipProtoUdp sport draws else pure mport
      let d := d.modify t fun t => {t with
        last := now,src := src,dest := dest,sport := sport,dport := dport,mport := mport,proto := proto
        fin1 := false,fin2 := false,finack1 := false,finack2 := false,synack := false,rst := false}
      let d ← ipNaptInsert d t
      return (d,mport)

end NonosLinkLayer.Napt
