import NonosLinkLayer.Base.HeapQueue
import NonosLinkLayer.Base.HeapWalk
import NonosLinkLayer.Espconn.Sending

namespace NonosLinkLayer.Connections
open HeapList
open NonosLinkLayer.Espconn (espconnMem espconnArg)

def errRte : Int := -4
def errIsconn : Int := -10
def errAbrt : Int := -13
def errArg : Int := -16
def espconnOk : Int := 0
def espconnRte : Int := -4
def espconnInprogress : Int := -5
def espconnIsconn : Int := -15
def mempNumTcpPcb : Nat := 5
def linkMax : Nat := 15
def espconnTaskQueueLen : Nat := 15
def espconnReuseaddr : UInt8 := 0x01
def espconnManualrecv : UInt8 := 0x10

inductive EspconnState where
  | none | wait | listen | connect | write | read | close
deriving DecidableEq

-- An address is the number that IP4_ADDR makes of its bytes, and a callback is
-- whether there is one.
structure EspTcp where
  remotePort : Int
  localPort : Int
  localIp : UInt32
  remoteIp : UInt32
  connectCallback : Bool
  reconnectCallback : Bool
  disconnectCallback : Bool
  writeFinishFn : Bool
deriving DecidableEq

def EspTcp.zero : EspTcp := ⟨0,0,0,0,false,false,false,false⟩

-- The type of an espconn and what its proto leads to, of an esp_udp the local port.
inductive Proto where
  | invalid (tcp : Option EspTcp)
  | tcp (tcp : Option EspTcp)
  | udp (localPort : Option Int)
deriving DecidableEq

structure Espconn where
  proto : Proto
  state : EspconnState
  linkCnt : UInt8
deriving DecidableEq

namespace Espconn

def zero : Espconn := ⟨.invalid none,.none,0⟩

def isTcp (c : Espconn) : Bool :=
  match c.proto with
  | .tcp _ => true
  | _ => false

def isUdp (c : Espconn) : Bool :=
  match c.proto with
  | .udp _ => true
  | _ => false

-- proto.tcp, which an esp_udp is not.
def tcp (c : Espconn) : Option (Option EspTcp) :=
  match c.proto with
  | .invalid tcp => some tcp
  | .tcp tcp => some tcp
  | .udp none => some none
  | .udp (some _) => none

def withTcp (c : Espconn) (tcp : EspTcp) : Espconn :=
  match c.proto with
  | .invalid _ => {c with proto := .invalid (some tcp)}
  | .tcp _ => {c with proto := .tcp (some tcp)}
  | .udp _ => c

end Espconn

inductive EspconnMode where
  | nomode | tcpserver | tcpclient
deriving DecidableEq

-- `born` is not of the source: it tells the allocations of espconn_msg apart.
structure EspconnMsg where
  pespconn : Ptr
  preverse : Ptr
  espconnMode : EspconnMode
  espconnOpt : UInt8
  pcb : Ptr
  remoteIp : UInt32
  remotePort : Int
  localIp : UInt32
  localPort : UInt32
  born : Nat
deriving DecidableEq

-- The macros of these names are true while the option is set.
def EspconnMsg.espconnManualRecvDisabled (m : EspconnMsg) : Bool := m.espconnOpt &&& espconnManualrecv != 0
def EspconnMsg.espconnReuseDisabled (m : EspconnMsg) : Bool := m.espconnOpt &&& espconnReuseaddr != 0

structure Server where
  pespconn : Ptr
  preverse : Ptr
  countOpt : UInt8

inductive Errf where
  | client | server
deriving DecidableEq

structure TcpPcb where
  localIp : UInt32
  localPort : UInt16
  remoteIp : UInt32
  remotePort : UInt16
  callbackArg : Ptr
  errf : Option Errf

-- The blocks of lwIP: which are allocated, and its lists of those that are
-- bound, active and in TIME_WAIT.
structure Pcbs where
  pcb : Ptr → TcpPcb
  live : Ptr → Bool
  bound : List Ptr
  active : List Ptr
  tw : List Ptr

structure Tcp where
  tcpNew : Pcbs → Option (Ptr × Pcbs)
  tcpBind : Pcbs → Ptr → UInt16 → Pcbs
  tcpConnect : Pcbs → Ptr → UInt32 → UInt16 → Pcbs × Int

inductive Signal where
  | errer | write | close
deriving DecidableEq

structure RemotInfo where
  state : EspconnState
  remotePort : Int
  remoteIp : UInt32

-- The globals of espconn and the memory behind them. `premot` has the indices that
-- espconn_get_connection_info wrote at and what it wrote. `inside` is the node whose
-- event espconn_Task is processing while the application has control. The last
-- three are records: how many espconn_msg were allocated, which of them were
-- freed, and of which the event has been processed.
structure Net where
  msgs : Heap EspconnMsg
  plinkActive : Ptr
  pserverList : List Server
  espconns : Ptr → Option Espconn
  pcbs : Pcbs
  queue : List (Signal × Ptr)
  premot : List (Nat × RemotInfo)
  inside : Option Ptr
  born : Nat
  released : List Nat
  processed : List Nat

namespace Net

def zallocMsg (s : Net) (p : Ptr) : Net :=
  {s with msgs := s.msgs.alloc p ⟨null,null,.nomode,0,null,0,0,0,0,s.born⟩,born := s.born + 1}

def freeMsg (s : Net) (p : Ptr) : Option Net := do
  let m ← s.msgs.node p
  let msgs ← s.msgs.free p
  some {s with msgs,released := s.released ++ [m.born]}

def updateMsg (s : Net) (p : Ptr) (write : EspconnMsg → EspconnMsg) : Option Net := do
  let m ← s.msgs.node p
  let msgs ← s.msgs.store p (write m)
  some {s with msgs}

def espconn (s : Net) (e : Ptr) : Option Espconn := if e = null then none else s.espconns e
def putEspconn (s : Net) (e : Ptr) (c : Espconn) : Net := {s with espconns := Function.update s.espconns e (some c)}

def setState (s : Net) (e : Ptr) (state : EspconnState) : Option Net := (s.espconn e).map fun c => s.putEspconn e {c with state}

def protoTcp (s : Net) (e : Ptr) : Option EspTcp := do
  let c ← s.espconn e
  let tcp ← c.tcp
  tcp

def putPcb (s : Net) (x : Ptr) (pcb : TcpPcb) : Net := {s with pcbs := {s.pcbs with pcb := Function.update s.pcbs.pcb x pcb}}
def tcpArg (s : Net) (x arg : Ptr) : Net := s.putPcb x {s.pcbs.pcb x with callbackArg := arg}
def tcpErr (s : Net) (x : Ptr) (errf : Option Errf) : Net := s.putPcb x {s.pcbs.pcb x with errf}

-- Of ets_post: what does not fit into the queue is lost.
def etsPost (s : Net) (sig : Signal) (p : Ptr) : Net :=
  if s.queue.length < espconnTaskQueueLen then {s with queue := s.queue ++ [(sig,p)]} else s

def espconnListCreat (turns : Nat) (s : Net) (p : Ptr) : Option Net :=
  (appendNode turns s.msgs s.plinkActive p).map fun (msgs,plinkActive) => {s with msgs,plinkActive}

def espconnListDelete (turns : Nat) (s : Net) (p : Ptr) : Option Net :=
  (deleteNode turns s.msgs s.plinkActive p).map fun (msgs,plinkActive) => {s with msgs,plinkActive}

def walk {σ : Type} (turns : Nat) (s : Net) (body : σ → Ptr → EspconnMsg → Option (Turn σ)) (a : σ) : Option σ :=
  walkNodes body s.msgs turns s.plinkActive a

def findNode (turns : Nat) (s : Net) (test : EspconnMsg → Bool) : Option (Option Ptr) := s.walk turns (findTurn test) none

-- Only an espconn of type TCP listens, so no other is ever copied.
def espconnCopyPartial (s : Net) (pespDest pespSource : Ptr) : Option Net := do
  let source ← s.espconn pespSource
  if source.isTcp = false then none
  else do
    let tcp ← s.protoTcp pespSource
    let old ← s.protoTcp pespDest
    some (s.putEspconn pespDest ⟨.tcp (some {tcp with writeFinishFn := old.writeFinishFn}),source.state,source.linkCnt⟩)

def espconnFindConnection (turns : Nat) (s : Net) (e : Ptr) : Option (Option Ptr) :=
  if e = null then some none
  else do
    let own ← s.findNode turns fun m => m.pespconn == e
    if own.isSome then some own
    else if s.pserverList.any (fun server => server.pespconn == e) then do
      let c ← s.espconn e
      let tcp ← c.tcp
      match tcp with
      | none => some none
      | some tcp =>
        if tcp.remoteIp = 0 ∨ tcp.remotePort = 0 then some none
        else s.findNode turns fun m => m.remoteIp == tcp.remoteIp && m.remotePort == tcp.remotePort
    else some none

def changeOpt (turns : Nat) (s : Net) (e : Ptr) (change : UInt8 → UInt8) : Option (Net × Int) :=
  if e = null then some (s,espconnArg)
  else do
    let c ← s.espconn e
    if c.isTcp = false then some (s,espconnArg)
    else do
      let pnode ← s.espconnFindConnection turns e
      match pnode with
      | none => some (s,espconnArg)
      | some p => do
        let s ← s.updateMsg p fun m => {m with espconnOpt := change m.espconnOpt}
        some (s,espconnOk)

def espconnSetOpt (turns : Nat) (s : Net) (e : Ptr) (opt : UInt8) : Option (Net × Int) := s.changeOpt turns e (· ||| opt)
def espconnClearOpt (turns : Nat) (s : Net) (e : Ptr) (opt : UInt8) : Option (Net × Int) := s.changeOpt turns e (· &&& ~~~opt)

def infoTurn (s : Net) (counts : EspconnMsg → Bool) (found : UInt8 × List (Nat × RemotInfo)) (_ : Ptr) (m : EspconnMsg) :
    Option (Turn (UInt8 × List (Nat × RemotInfo))) :=
  if counts m then do
    let c ← s.espconn m.pespconn
    some (.next (found.1 + 1,found.2 ++ [(found.1.toNat,⟨c.state,m.remotePort,m.remoteIp⟩)]))
  else some (.next found)

def espconnGetConnectionInfo (turns : Nat) (s : Net) (e : Ptr) : Option (Net × Int) :=
  if e = null then some (s,espconnArg)
  else do
    let c ← s.espconn e
    let (linkCnt,premot) ←
      if c.isTcp then s.walk turns (s.infoTurn fun m => m.preverse == e) (0,[])
      else if c.isUdp then s.walk turns (s.infoTurn fun m => m.pespconn == e) (0,[])
      else some (0,[])
    some ({s.putEspconn e {c with linkCnt} with premot},if linkCnt = 0 then espconnArg else espconnOk)

def server (s : Net) (e : Ptr) : Option Server := s.pserverList.find? fun server => server.pespconn == e

-- The source returns a sint8, in which counts from 128 on would be negative. None is set.
def espconnTcpGetMaxConAllow (s : Net) (e : Ptr) : Option Int :=
  if e = null then some espconnArg
  else do
    let c ← s.espconn e
    if c.isUdp then some espconnArg
    else match s.server e with
      | none => some espconnArg
      | some server => some (server.countOpt.toNat : Int)

def writeFirst {α : Type} (test : α → Bool) (write : α → α) : List α → List α
  | [] => []
  | a :: rest => if test a then write a :: rest else a :: writeFirst test write rest

def espconnTcpSetMaxConAllow (s : Net) (e : Ptr) (num : UInt8) : Option (Net × Int) :=
  if e = null ∨ num.toNat > mempNumTcpPcb then some (s,espconnArg)
  else do
    let c ← s.espconn e
    if c.isUdp ∨ s.server e = none then some (s,espconnArg)
    else some ({s with pserverList := writeFirst (fun server => server.pespconn == e) (fun server => {server with countOpt := num}) s.pserverList},
      espconnOk)

end Net

def removePort (pcb : Ptr → TcpPcb) (port : UInt16) : List Ptr → (Ptr → Bool) → List Ptr × (Ptr → Bool)
  | [],live => ([],live)
  | x :: rest,live =>
    if (pcb x).localPort = port then removePort pcb port rest (Function.update live x false)
    else
      let (kept,live) := removePort pcb port rest live
      (x :: kept,live)

def Pcbs.espconnKillPcb (s : Pcbs) (port : UInt16) : Pcbs :=
  let (bound,live) := removePort s.pcb port s.bound s.live
  let (active,live) := removePort s.pcb port s.active live
  let (tw,live) := removePort s.pcb port s.tw live
  {s with live,bound,active,tw}

-- The loop over tcp_tw_pcbs in espconn_tcp_disconnect_successful.
def Pcbs.purgeTw (s : Pcbs) (port : UInt16) : Pcbs :=
  let (tw,live) := removePort s.pcb port s.tw s.live
  {s with live,tw}

def Pcbs.search (s : Pcbs) (test : TcpPcb → Bool) : Ptr :=
  match s.active.find? fun x => test (s.pcb x) with
  | some x => x
  | none =>
    match s.tw.find? fun x => test (s.pcb x) with
    | some x => x
    | none => null

def espconnFindCurrentPcb (s : Pcbs) (m : EspconnMsg) : Ptr :=
  let localPort := UInt16.ofNat m.localPort.toNat
  let remotePort := UInt16.ofInt m.remotePort
  if m.preverse = null then
    if m.localIp = 0 ∨ localPort = 0 then m.pcb
    else s.search fun x => x.remotePort == remotePort && x.remoteIp == m.remoteIp && x.localPort == localPort && x.localIp == m.localIp
  else if m.remoteIp = 0 ∨ remotePort = 0 then m.pcb
  else s.search fun x => x.remotePort == remotePort && x.remoteIp == m.remoteIp

end NonosLinkLayer.Connections
