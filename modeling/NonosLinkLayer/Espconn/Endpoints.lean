import NonosLinkLayer.Connections.Net
import NonosLinkLayer.Espconn.Udp

namespace NonosLinkLayer.Endpoints
open HeapList
open NonosLinkLayer.Connections (espconnIsconn)
open NonosLinkLayer.Espconn (Datagram EspconnState Netif SendOpt UdpMsg UdpStack espconnArg espconnMem espconnOk)
open NonosLinkLayer.Espconn.UdpMsg (espconnUdpSent espconnUdpSendto)

structure UdpConn where
  localPort : Int
  localIp : UInt32
  remotePort : Int
  remoteIp : UInt32
  state : EspconnState
  linkCnt : UInt8
  recvCallback : Bool
  sentCallback : Bool

inductive Conn where
  | udp (c : UdpConn)
  | tcp

-- An espconn_msg of UDP. Of one of TCP, which is in the same list, only the espconn.
structure UdpNode where
  pespconn : Ptr
  pcb : Ptr
  remoteIp : UInt32
  remotePort : Int
  ptrbuf : List UInt8
  cntr : UInt16
  err : Int

inductive Msg where
  | udp (m : UdpNode)
  | tcp (pespconn : Ptr)

def Msg.pespconn : Msg → Ptr
  | .udp m => m.pespconn
  | .tcp e => e

structure UdpPcb where
  remoteIp : UInt32
  remotePort : UInt16
  recvArg : Ptr

structure Wifi where
  opmode : UInt8
  sta : UInt32
  ap : UInt32
  apNetmask : UInt32

def ip4AddrNetcmp (addr1 addr2 mask : UInt32) : Bool := addr1 &&& mask == addr2 &&& mask

def Wifi.localIp (w : Wifi) (addr : UInt32) : UInt32 :=
  if w.opmode ≠ 1 then
    if ip4AddrNetcmp addr w.ap w.apNetmask = false then w.sta else w.ap
  else w.sta

structure RemotInfo where
  state : EspconnState
  remotePort : Int
  remoteIp : UInt32

-- `inside` is of the callbacks that have not returned: for each the copy of the
-- datagram it was given, if it is a recv_callback.
structure State where
  msgs : Heap Msg
  plinkActive : Ptr
  conns : Ptr → Option Conn
  pcbs : Ptr → Option UdpPcb
  netifDefault : Option Netif
  inside : List (Option (List UInt8))

-- What the application sees of a call: a result, what is sent and whether
-- sent_callback is called, what is written to premot, and what recv_callback is given.
inductive Outcome where
  | nothing
  | result (code : Int)
  | sent (code : Int) (datagrams : List Datagram) (called : Bool)
  | info (code : Int) (premot : List (Nat × RemotInfo))
  | received (pespconn : Ptr) (pdata : List UInt8) (length : UInt16)

-- The calls of the application and lwIP, also out of callbacks, what the application
-- writes to its espconn, and what TCP does to the list. `given` and `zalloc` say
-- whether there is memory for a block and for what os_zalloc is asked for.
inductive Call where
  | create (e : Ptr) (given zalloc : Bool)
  | delete (e : Ptr)
  | send (opt : SendOpt) (e : Ptr) (psent : Option (List UInt8)) (stack : UdpStack)
  | info (e : Ptr)
  | datagram (wifi : Wifi) (upcb : Ptr) (addr : UInt32) (port : UInt16) (p : List UInt8) (zalloc : Bool)
  | returns
  | writes (e : Ptr) (c : Option Conn)
  | tcpJoins (e : Ptr)
  | tcpLeaves (p : Ptr)

structure Supply where
  node : Ptr
  pcb : Ptr

def connAt (conns : Ptr → Option Conn) (e : Ptr) : Option Conn := if e = null then none else conns e

def udpAt (conns : Ptr → Option Conn) (e : Ptr) : Option UdpConn :=
  match connAt conns e with
  | some (.udp c) => some c
  | _ => none

namespace State

def udpConn (s : State) (e : Ptr) : Option UdpConn := udpAt s.conns e

def udpNode (s : State) (p : Ptr) : Option UdpNode := do
  let m ← s.msgs.node p
  match m with
  | .udp m => some m
  | .tcp _ => none

def putConn (s : State) (e : Ptr) (c : UdpConn) : State := {s with conns := Function.update s.conns e (some (.udp c))}
def putPcb (s : State) (x : Ptr) (b : Option UdpPcb) : State := {s with pcbs := Function.update s.pcbs x b}

def storeNode (s : State) (p : Ptr) (m : UdpNode) : Option State := (s.msgs.store p (.udp m)).map fun msgs => {s with msgs}

def espconnListCreat (turns : Nat) (s : State) (p : Ptr) : Option State :=
  (appendNode turns s.msgs s.plinkActive p).map fun (msgs,plinkActive) => {s with msgs,plinkActive}

def espconnListDelete (turns : Nat) (s : State) (p : Ptr) : Option State := do
  let (msgs,plinkActive) ← deleteNode turns s.msgs s.plinkActive p
  let msgs ← msgs.free p
  some {s with msgs,plinkActive}

-- No server has an espconn of type UDP, so the loop over pserver_list finds none.
def espconnFindConnection (turns : Nat) (s : State) (e : Ptr) : Option (Option Ptr) :=
  if e = null then some none else walkNodes (findTurn fun m => m.pespconn == e) s.msgs turns s.plinkActive none

def portTurn (s : State) (port : Int) (_ : Bool) (_ : Ptr) (m : Msg) : Option (Turn Bool) :=
  if m.pespconn = null then some (.next false)
  else do
    let c ← connAt s.conns m.pespconn
    match c with
    | .udp c => some (if port = c.localPort then .stop true else .next false)
    | .tcp => some (.next false)

def espconnUdpServer (turns : Nat) (supply : Supply) (s : State) (e : Ptr) (given zalloc : Bool) : Option (State × Int) :=
  if given = false then some (s,espconnMem)
  else if zalloc = false then some (s,espconnMem)
  else do
    let s := {s with msgs := s.msgs.alloc supply.node (.udp ⟨e,supply.pcb,0,0,[],0,0⟩)}
    let s ← s.espconnListCreat turns supply.node
    let _ ← s.udpConn e
    some (s.putPcb supply.pcb (some ⟨0,0,supply.node⟩),espconnOk)

def espconnCreate (turns : Nat) (supply : Supply) (s : State) (e : Ptr) (given zalloc : Bool) : Option (State × Int) :=
  if e = null then some (s,espconnArg)
  else do
    let c ← connAt s.conns e
    match c with
    | .tcp => some (s,espconnArg)
    | .udp c => do
      let used ← walkNodes (s.portTurn c.localPort) s.msgs turns s.plinkActive false
      if used then some (s,espconnIsconn) else s.espconnUdpServer turns supply e given zalloc

def espconnUdpDisconnect (turns : Nat) (s : State) (p : Ptr) : Option State := do
  let m ← s.udpNode p
  let _ ← s.pcbs m.pcb
  (s.putPcb m.pcb none).espconnListDelete turns p

def espconnDelete (turns : Nat) (s : State) (e : Ptr) : Option (State × Int) :=
  if e = null then some (s,espconnArg)
  else do
    let _ ← s.udpConn e
    let pnode ← s.espconnFindConnection turns e
    match pnode with
    | none => some (s,espconnArg)
    | some p => do
      let s ← s.espconnUdpDisconnect turns p
      some (s,espconnOk)

def espconnUdpSend (turns : Nat) (opt : SendOpt) (L : UdpStack) (s : State) (p : Ptr) (psent : List UInt8) :
    Option (State × Outcome) := do
  let m ← s.udpNode p
  let b ← s.pcbs m.pcb
  let c ← s.udpConn m.pespconn
  let u : UdpMsg := ⟨c.remoteIp,c.remotePort,c.state,c.sentCallback,m.ptrbuf,m.cntr,m.err,b.remoteIp,b.remotePort,s.netifDefault,0,0,[],0⟩
  let (u,code) ←
    match opt with
    | .send => espconnUdpSent L turns psent (UInt16.ofNat psent.length) u
    | .sendto => espconnUdpSendto L turns psent (UInt16.ofNat psent.length) u
  let s ← s.storeNode p {m with ptrbuf := u.ptrbuf,cntr := u.cntr,err := u.err}
  let s := (s.putPcb m.pcb (some {b with remoteIp := u.pcbIp,remotePort := u.pcbPort})).putConn m.pespconn {c with state := u.state}
  some ({s with netifDefault := u.netifDefault,inside := if u.called = 0 then s.inside else none :: s.inside},
    .sent code u.sent (u.called ≠ 0))

def espconnSend (turns : Nat) (opt : SendOpt) (L : UdpStack) (s : State) (e : Ptr) (psent : Option (List UInt8)) :
    Option (State × Outcome) :=
  match psent with
  | none => some (s,.result espconnArg)
  | some psent =>
    if e = null ∨ psent.length = 0 then some (s,.result espconnArg)
    else do
      let pnode ← s.espconnFindConnection turns e
      match pnode with
      | none => some (s,.result espconnArg)
      | some p => do
        let c ← s.udpConn e
        let s :=
          match opt with
          | .send => s.putConn e {c with state := .write}
          | .sendto => s
        s.espconnUdpSend turns opt L p psent

-- One turn of the loop for UDP in espconn_get_connection_info. No espconn of type UDP
-- is that of a node of TCP.
def infoTurn (s : State) (e : Ptr) (found : UInt8 × List (Nat × RemotInfo)) (_ : Ptr) :
    Msg → Option (Turn (UInt8 × List (Nat × RemotInfo)))
  | .tcp _ => some (.next found)
  | .udp m =>
    if m.pespconn = e then do
      let c ← s.udpConn m.pespconn
      some (.next (found.1 + 1,found.2 ++ [(found.1.toNat,⟨c.state,m.remotePort,m.remoteIp⟩)]))
    else some (.next found)

def espconnGetConnectionInfo (turns : Nat) (s : State) (e : Ptr) : Option (State × Outcome) :=
  if e = null then some (s,.result espconnArg)
  else do
    let c ← s.udpConn e
    let (linkCnt,premot) ← walkNodes (s.infoTurn e) s.msgs turns s.plinkActive (0,[])
    some (s.putConn e {c with linkCnt},.info (if linkCnt = 0 then espconnArg else espconnOk) premot)

-- lwIP calls it with the argument of a block it has. Without memory for the copy
-- nothing is copied, and without anything copied the callback is not called.
def espconnUdpRecv (s : State) (wifi : Wifi) (upcb : Ptr) (addr : UInt32) (port : UInt16) (p : List UInt8) (zalloc : Bool) :
    Option (State × Outcome) := do
  let b ← s.pcbs upcb
  let precv ← s.udpNode b.recvArg
  let c ← s.udpConn precv.pespconn
  let s ← (s.putConn precv.pespconn {c with localIp := wifi.localIp addr}).storeNode b.recvArg
    {precv with remoteIp := addr,remotePort := port.toNat,pcb := upcb}
  let length := if zalloc then UInt16.ofNat p.length else 0
  if length ≠ 0 ∧ c.recvCallback then
    some ({s with inside := some (p ++ [0]) :: s.inside},.received precv.pespconn (p ++ [0]) length)
  else some (s,.nothing)

def serve (turns : Nat) (supply : Supply) (s : State) : Call → Option (State × Outcome)
  | .create e given zalloc => (s.espconnCreate turns supply e given zalloc).map fun (s,code) => (s,.result code)
  | .delete e => (s.espconnDelete turns e).map fun (s,code) => (s,.result code)
  | .send opt e psent stack => s.espconnSend turns opt stack e psent
  | .info e => s.espconnGetConnectionInfo turns e
  | .datagram wifi upcb addr port p zalloc => s.espconnUdpRecv wifi upcb addr port p zalloc
  | .returns =>
    match s.inside with
    | [] => none
    | _ :: rest => some ({s with inside := rest},.nothing)
  | .writes e c => some ({s with conns := Function.update s.conns e c},.nothing)
  | .tcpJoins e => do
    let s ← {s with msgs := s.msgs.alloc supply.node (.tcp e)}.espconnListCreat turns supply.node
    some (s,.nothing)
  | .tcpLeaves p => (s.espconnListDelete turns p).map fun s => (s,.nothing)

end State

end NonosLinkLayer.Endpoints
