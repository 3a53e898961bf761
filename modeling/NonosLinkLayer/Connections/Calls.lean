import NonosLinkLayer.Base.Transitions
import NonosLinkLayer.Connections.Net

namespace NonosLinkLayer.Connections
open HeapList Turns
open NonosLinkLayer.Espconn (errOk errMem espconnMem espconnArg)

structure Grant where
  paccept : Option Ptr
  pespconn : Option Ptr
  protoTcp : Bool

namespace Net

-- espconn_client_close and espconn_server_close: closing a block may fail, and
-- aborting it (`type`) does not.
def espconnClose (s : Net) (p pcb : Ptr) (type : Bool) (err : Int) : Option Net := do
  let s ← s.updateMsg p fun m => {m with pcb}
  if type = false ∧ err ≠ errOk then some s
  else do
    let s := s.tcpErr pcb none
    let m ← s.msgs.node p
    let s ← s.setState m.pespconn .close
    some (s.etsPost .close p)

def espconnTcpDisconnect (s : Net) (p : Ptr) (type : Bool) (err : Int) : Option Net := do
  let m ← s.msgs.node p
  s.espconnClose p m.pcb type err

def espconnDisconnect (turns : Nat) (s : Net) (e : Ptr) (err : Int) : Option (Net × Int) :=
  if e = null then some (s,espconnArg)
  else do
    let c ← s.espconn e
    if c.isTcp = false then some (s,espconnArg)
    else do
      let pnode ← s.espconnFindConnection turns e
      match pnode with
      | none => some (s,espconnArg)
      | some p => do
        let m ← s.msgs.node p
        if m.preverse = null ∧ c.state = .close then some (s,espconnInprogress)
        else do
          let s ← s.espconnTcpDisconnect p false err
          some (s,espconnOk)

def espconnAbort (turns : Nat) (s : Net) (e : Ptr) : Option (Net × Int) :=
  if e = null then some (s,espconnArg)
  else do
    let c ← s.espconn e
    if c.isTcp = false then some (s,espconnArg)
    else do
      let pnode ← s.espconnFindConnection turns e
      match pnode with
      | none => some (s,espconnArg)
      | some p =>
        if c.state = .close then some (s,espconnInprogress)
        else do
          let s ← s.espconnTcpDisconnect p true errOk
          some (s,espconnOk)

-- espconn_client_err and esponn_server_err. Which error code is kept depends on
-- the block, which is read where the connection was aborted.
def espconnErr (s : Net) (p : Ptr) (err : Int) : Option Net :=
  if p = null then some s
  else do
    let m ← s.msgs.node p
    let s ← s.setState m.pespconn .close
    if err = errAbrt ∧ m.pcb = null then none else some (s.etsPost .errer p)

def tcpEventErr (s : Net) (x : Ptr) (err : Int) : Option Net :=
  let pcb := s.pcbs.pcb x
  let s := {s with pcbs := {s.pcbs with live := Function.update s.pcbs.live x false}}
  if pcb.errf = none then some s else s.espconnErr pcb.callbackArg err

def countTcpTurn (s : Net) (num : UInt8) (_ : Ptr) (m : EspconnMsg) : Option (Turn UInt8) :=
  if m.pespconn = null then some (.next num)
  else do
    let c ← s.espconn m.pespconn
    some (.next (if c.isTcp then num + 1 else num))

def espconnGetActicveNum (turns : Nat) (s : Net) : Option UInt8 := s.walk turns s.countTcpTurn 0

def localPortTurn (s : Net) (e : Ptr) (_ : Bool) (_ : Ptr) (m : EspconnMsg) : Option (Turn Bool) :=
  if m.pespconn = null then some (.next false)
  else do
    let c ← s.espconn m.pespconn
    if c.isTcp = false then some (.next false)
    else do
      let own ← s.protoTcp e
      let other ← s.protoTcp m.pespconn
      some (if own.localPort = other.localPort then .stop true else .next false)

-- The loop in espconn_connect and espconn_accept over the local ports in use.
def localPortInUse (turns : Nat) (s : Net) (e : Ptr) : Option Bool := s.walk turns (s.localPortTurn e) false

def udpPort (s : Net) (e : Ptr) : Option Int := do
  let c ← s.espconn e
  match c.proto with
  | .udp port => port
  | _ => none

def udpPortTurn (s : Net) (e : Ptr) (_ : Bool) (_ : Ptr) (m : EspconnMsg) : Option (Turn Bool) :=
  if m.pespconn = null then some (.next false)
  else do
    let c ← s.espconn m.pespconn
    if c.isUdp = false then some (.next false)
    else do
      let own ← s.udpPort e
      let other ← s.udpPort m.pespconn
      some (if own = other then .stop true else .next false)

def clientOutcome (turns : Nat) (s : Net) (p x : Ptr) (err : Int) : Option (Net × Int) :=
  if err = errRte then do
    let s ← s.espconnListDelete turns p
    let s ← {s with pcbs := s.pcbs.espconnKillPcb (s.pcbs.pcb x).localPort}.freeMsg p
    some (s,espconnRte)
  else some (s,err)

def espconnTcpClient (turns : Nat) (s : Net) (e : Ptr) (zalloc : Option Ptr) (T : Tcp) : Option (Net × Int) :=
  match zalloc with
  | none => some (s,espconnMem)
  | some p => do
    let s := s.zallocMsg p
    let tcp ← s.protoTcp e
    match T.tcpNew s.pcbs with
    | none => do
      let s ← s.freeMsg p
      some (s,espconnMem)
    | some (x,pcbs) => do
      let s ← {s with pcbs}.espconnListCreat turns p
      let s := (s.tcpArg x p).tcpErr x (some .client)
      let s ← s.updateMsg p fun m => {m with preverse := null,pespconn := e}
      let s ← s.setState e .wait
      let s ← s.updateMsg p fun m => {m with pcb := x}
      let s := {s with pcbs := T.tcpBind s.pcbs x (UInt16.ofInt tcp.localPort)}
      let s ← s.updateMsg p fun m => {m with espconnMode := .tcpclient}
      let connected := T.tcpConnect s.pcbs x tcp.remoteIp (UInt16.ofInt tcp.remotePort)
      {s with pcbs := connected.1}.clientOutcome turns p x connected.2

-- `wifi` is what the check of the addresses of the interfaces comes to.
def espconnConnect (turns : Nat) (s : Net) (e : Ptr) (wifi : Int) (zalloc : Option Ptr) (T : Tcp) : Option (Net × Int) :=
  if e = null then some (s,espconnArg)
  else do
    let c ← s.espconn e
    if c.isTcp = false then some (s,espconnArg)
    else do
      let num ← s.espconnGetActicveNum turns
      if num.toNat ≥ mempNumTcpPcb then some (s,espconnIsconn)
      else if wifi ≠ espconnOk then some (s,wifi)
      else do
        let used ← s.localPortInUse turns e
        if used then some (s,espconnIsconn) else s.espconnTcpClient turns e zalloc T

def espconnUdpServer (turns : Nat) (s : Net) (e : Ptr) (upcb zalloc : Option Ptr) : Option (Net × Int) :=
  match upcb,zalloc with
  | none,_ => some (s,espconnMem)
  | _,none => some (s,espconnMem)
  | some x,some p => do
    let s := s.zallocMsg p
    let s ← s.updateMsg p fun m => {m with pcb := x,pespconn := e}
    let s ← s.espconnListCreat turns p
    let _ ← s.udpPort e
    some (s,espconnOk)

def espconnCreate (turns : Nat) (s : Net) (e : Ptr) (upcb zalloc : Option Ptr) : Option (Net × Int) :=
  if e = null then some (s,espconnArg)
  else do
    let c ← s.espconn e
    if c.isUdp = false then some (s,espconnArg)
    else do
      let used ← s.walk turns (s.udpPortTurn e) false
      if used then some (s,espconnIsconn) else s.espconnUdpServer turns e upcb zalloc

def espconnUdpDisconnect (turns : Nat) (s : Net) (p : Ptr) : Option Net := do
  let s ← s.espconnListDelete turns p
  s.freeMsg p

-- espconn_accept and espconn_tcp_server, with the listening block that lwIP gives
-- if there is memory for it and for the node.
def espconnAccept (turns : Nat) (s : Net) (e : Ptr) (listen : Option Ptr) : Option (Net × Int) :=
  if e = null then some (s,espconnArg)
  else do
    let c ← s.espconn e
    if c.isTcp = false then some (s,espconnArg)
    else do
      let used ← s.localPortInUse turns e
      if used then some (s,espconnIsconn)
      else match listen with
        | none => some (s,espconnMem)
        | some lpcb => do
          let _ ← s.protoTcp e
          let s ← s.setState e .listen
          some ({s with pserverList := s.pserverList ++ [⟨e,lpcb,UInt8.ofNat mempNumTcpPcb⟩]},espconnOk)

def acceptReserve (s : Net) (e x p a : Ptr) : Option Net := do
  let pcb := s.pcbs.pcb x
  let s ← s.updateMsg p fun m => {m with pcb := x,remotePort := pcb.remotePort.toNat,remoteIp := pcb.remoteIp}
  let c ← s.espconn e
  let tcp ← s.protoTcp e
  let told := c.withTcp {tcp with remoteIp := pcb.remoteIp,remotePort := pcb.remotePort.toNat}
  (s.putEspconn e {told with state := .connect}).espconnCopyPartial a e

def acceptMsg (turns : Nat) (s : Net) (e x : Ptr) (grant : Grant) : Option (Net × Int) :=
  match grant.paccept with
  | none => some (s.tcpArg x null,errMem)
  | some p => do
    let s ← ((s.zallocMsg p).tcpArg x p).espconnListCreat turns p
    let s ← s.updateMsg p fun m => {m with preverse := e,espconnMode := .tcpserver}
    match grant.pespconn with
    | none => some (s,errMem)
    | some a => do
      let s ← (s.putEspconn a .zero).updateMsg p fun m => {m with pespconn := a}
      if grant.protoTcp = false then some (s,errMem)
      else do
        let s ← (s.putEspconn a ⟨.invalid (some .zero),.none,0⟩).acceptReserve e x p a
        some (s,errOk)

-- lwIP calls it for a block of its own, with the espconn that listens. The connect
-- callback, which is the last thing, is not of it.
def espconnTcpAccept (turns : Nat) (s : Net) (e x : Ptr) (grant : Grant) : Option (Net × Int) :=
  if e = null then some (s,errArg)
  else do
    let c ← s.espconn e
    let tcp ← c.tcp
    if tcp = none then some (s,errArg)
    else do
      let (s,_) ← ((s.tcpArg x null).tcpErr x (some .server)).espconnGetConnectionInfo turns e
      let c ← s.espconn e
      let allow ← s.espconnTcpGetMaxConAllow e
      if (c.linkCnt.toNat : Int) = allow then some (s,errIsconn) else s.acceptMsg turns e x grant

def espconnTcpDelete (turns : Nat) (s : Net) (e : Ptr) (err : Int) : Option (Net × Int) :=
  if e = null then some (s,espconnArg)
  else do
    let (s,_) ← s.espconnGetConnectionInfo turns e
    let c ← s.espconn e
    if c.linkCnt ≠ 0 then some (s,espconnInprogress)
    else match s.server e with
      | none => some (s,errOk)
      | some server =>
        some ({s with pserverList := s.pserverList.eraseP fun server => server.pespconn == e,
                      pcbs := s.pcbs.espconnKillPcb (s.pcbs.pcb server.preverse).localPort},
          if err = errOk then err else espconnArg)

def espconnDelete (turns : Nat) (s : Net) (e : Ptr) (err : Int) : Option (Net × Int) :=
  if e = null then some (s,espconnArg)
  else do
    let c ← s.espconn e
    if c.isUdp = false then s.espconnTcpDelete turns e err
    else do
      let pnode ← s.espconnFindConnection turns e
      match pnode with
      | none => some (s,espconnArg)
      | some p => do
        let s ← s.espconnUdpDisconnect turns p
        some (s,espconnOk)

end Net

end NonosLinkLayer.Connections
