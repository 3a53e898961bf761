import NonosLinkLayer.Connections.Calls

namespace NonosLinkLayer.Connections
open HeapList Turns Transitions
open NonosLinkLayer.Espconn (errOk espconnArg)

namespace Net

-- Of espconn_tcp_memp_free: the list, while the option MANUALRECV is set.
def mempUnlink (turns : Nat) (s : Net) (p : Ptr) (m : EspconnMsg) : Option Net :=
  if m.espconnManualRecvDisabled then s.espconnListDelete turns p else some s

def mempEspconn (s : Net) (p : Ptr) (m : EspconnMsg) : Option Net :=
  if m.espconnMode = .tcpserver then do
    let _ ← s.espconn m.pespconn
    {s with espconns := Function.update s.espconns m.pespconn none}.updateMsg p fun m => {m with pespconn := null}
  else some s

def espconnTcpMempFree (turns : Nat) (s : Net) (p : Ptr) : Option Net := do
  let m ← s.msgs.node p
  let s ← s.mempUnlink turns p m
  let s ← s.mempEspconn p m
  s.freeMsg p

def taskEnd (turns : Nat) (s : Net) (p : Ptr) : Option Net := do
  let m ← s.msgs.node p
  let s ← s.espconnTcpMempFree turns p
  some {s with inside := none,processed := s.processed ++ [m.born]}

def taskCall (turns : Nat) (s : Net) (p e : Ptr) (callback : EspTcp → Bool) : Option Net := do
  let c ← s.espconn e
  let tcp ← c.tcp
  if tcp.any callback then some {s with inside := some p} else s.taskEnd turns p

def espconnTcpReconnect (turns : Nat) (s : Net) (p : Ptr) : Option Net := do
  let m ← s.msgs.node p
  if m.pespconn = null then
    if m.preverse = null then s.taskEnd turns p else s.taskCall turns p m.preverse EspTcp.reconnectCallback
  else if m.preverse ≠ null then do
    let c ← s.espconn m.pespconn
    let tcp ← c.tcp
    let s ← if tcp ≠ none then s.espconnCopyPartial m.preverse m.pespconn else some s
    s.taskCall turns p m.preverse EspTcp.reconnectCallback
  else s.taskCall turns p m.pespconn EspTcp.reconnectCallback

def releasePcb (s : Net) (m : EspconnMsg) : Net :=
  let pcb := espconnFindCurrentPcb s.pcbs m
  if pcb = null then s
  else if m.espconnReuseDisabled then {s with pcbs := s.pcbs.purgeTw (s.pcbs.pcb pcb).localPort}
  else (s.tcpArg pcb null).tcpErr pcb none

def espconnTcpDisconnectSuccessful (turns : Nat) (s : Net) (p : Ptr) : Option Net := do
  let m ← s.msgs.node p
  if m.pespconn = null then s.taskCall turns p m.preverse EspTcp.disconnectCallback
  else if m.preverse ≠ null then do
    let c ← s.espconn m.pespconn
    let tcp ← c.tcp
    let own ← s.espconn m.preverse
    let listen ← own.tcp
    let s ← if tcp ≠ none ∧ listen ≠ none then s.espconnCopyPartial m.preverse m.pespconn else some s
    (s.releasePcb m).taskCall turns p m.preverse EspTcp.disconnectCallback
  else (s.releasePcb m).taskCall turns p m.pespconn EspTcp.disconnectCallback

def activeTurn (p : Ptr) (found : Bool) (q : Ptr) (_ : EspconnMsg) : Option (Turn Bool) :=
  some (if q = p then .stop true else .next found)

-- The node goes before the callback, unless its option MANUALRECV is set.
def taskUnlink (turns : Nat) (s : Net) (p : Ptr) : Option Net := do
  let m ← s.msgs.node p
  if m.espconnManualRecvDisabled then some s else s.espconnListDelete turns p

-- `killOldest` is what espconn_kill_oldest_pcb does to the blocks.
def espconnTask (turns : Nat) (s : Net) (killOldest : Pcbs → Pcbs) : Option Net :=
  match s.queue with
  | [] => none
  | (sig,p) :: queue => do
    let s := {s with queue}
    let active ← s.walk turns (activeTurn p) false
    if active = false then some s
    else match sig with
      | .write => do
        let m ← s.msgs.node p
        if m.pespconn = null then some s
        else do
          let _ ← s.protoTcp m.pespconn
          some s
      | .errer => do
        let s ← s.taskUnlink turns p
        {s with pcbs := killOldest s.pcbs}.espconnTcpReconnect turns p
      | .close => do
        let s ← s.taskUnlink turns p
        {s with pcbs := killOldest s.pcbs}.espconnTcpDisconnectSuccessful turns p

def arg (s : Net) (x : Ptr) : Ptr := (s.pcbs.pcb x).callbackArg

def espconnClientConnect (s : Net) (x : Ptr) : Option Net := do
  let m ← s.msgs.node (s.arg x)
  let s ← s.setState m.pespconn .connect
  let pcb := s.pcbs.pcb x
  let s ← s.updateMsg (s.arg x) fun m =>
    {m with pcb := x,localPort := pcb.localPort.toUInt32,localIp := pcb.localIp,remotePort := pcb.remotePort.toNat,remoteIp := pcb.remoteIp}
  let _ ← s.protoTcp m.pespconn
  some s

-- Data has come (espconn_client_recv, espconn_server_recv and espconn_tcp_recv), or
-- was acknowledged, and the application is told.
def receive (s : Net) (x : Ptr) (state : EspconnState) : Option Net := do
  let m ← s.msgs.node (s.arg x)
  let s ← s.setState m.pespconn state
  s.updateMsg (s.arg x) fun m => {m with pcb := x}

def espconnSent (turns : Nat) (s : Net) (e : Ptr) (posts : Bool) : Option (Net × Int) :=
  if e = null then some (s,espconnArg)
  else do
    let pnode ← s.espconnFindConnection turns e
    match pnode with
    | none => some (s,espconnArg)
    | some p => do
      let s ← s.setState e .write
      some (if posts then s.etsPost .write p else s,errOk)

end Net

-- Calls of the application, which may come at any time and in any callback; what lwIP
-- tells of a block; and the two halves of espconn_Task, around its callback. An
-- application may write an esp_tcp, as espconn_regist_connectcb and the like do, and
-- lwIP its blocks. That a close fails or a callback is set is part of the event.
inductive Event where
  | connect (e : Ptr) (wifi : Int) (zalloc : Option Ptr) (T : Tcp)
  | accept (e : Ptr) (listen : Option Ptr)
  | create (e : Ptr) (upcb zalloc : Option Ptr)
  | disconnect (e : Ptr) (err : Int)
  | abort (e : Ptr)
  | delete (e : Ptr) (err : Int)
  | setOpt (e : Ptr) (opt : UInt8)
  | clearOpt (e : Ptr) (opt : UInt8)
  | setMax (e : Ptr) (num : UInt8)
  | info (e : Ptr)
  | sent (e : Ptr) (posts : Bool)
  | application (e : Ptr) (tcp : EspTcp)
  | incoming (e x : Ptr) (grant : Grant)
  | connected (x : Ptr)
  | receive (x : Ptr) (state : EspconnState)
  | closed (x : Ptr) (err : Int)
  | failed (x : Ptr) (err : Int)
  | lwip (pcbs : Pcbs)
  | task (killOldest : Pcbs → Pcbs)
  | finish

namespace Net

def perform (turns : Nat) (s : Net) : Event → Option Net
  | .connect e wifi zalloc T => (s.espconnConnect turns e wifi zalloc T).map Prod.fst
  | .accept e listen => (s.espconnAccept turns e listen).map Prod.fst
  | .create e upcb zalloc => (s.espconnCreate turns e upcb zalloc).map Prod.fst
  | .disconnect e err => (s.espconnDisconnect turns e err).map Prod.fst
  | .abort e => (s.espconnAbort turns e).map Prod.fst
  | .delete e err => (s.espconnDelete turns e err).map Prod.fst
  | .setOpt e opt => (s.espconnSetOpt turns e opt).map Prod.fst
  | .clearOpt e opt => (s.espconnClearOpt turns e opt).map Prod.fst
  | .setMax e num => (s.espconnTcpSetMaxConAllow e num).map Prod.fst
  | .info e => (s.espconnGetConnectionInfo turns e).map Prod.fst
  | .sent e posts => (s.espconnSent turns e posts).map Prod.fst
  | .application e tcp => (s.espconn e).map fun c => s.putEspconn e (c.withTcp tcp)
  | .incoming e x grant => (s.espconnTcpAccept turns e x grant).map Prod.fst
  | .connected x => s.espconnClientConnect x
  | .receive x state => s.receive x state
  | .closed x err => s.espconnClose (s.arg x) x false err
  | .failed x err => s.tcpEventErr x err
  | .lwip pcbs => some {s with pcbs}
  | .task killOldest => if s.inside = none then s.espconnTask turns killOldest else none
  | .finish => do
    let p ← s.inside
    s.taskEnd turns p

-- Memory that is given is not in use, and connections come in for an espconn that listens.
def Allowed (s : Net) : Event → Prop
  | .connect _ _ zalloc _ => ∀ p, zalloc = some p → s.msgs.Fresh p
  | .create _ _ zalloc => ∀ p, zalloc = some p → s.msgs.Fresh p
  | .incoming e _ grant => s.server e ≠ none ∧ (∀ p, grant.paccept = some p → s.msgs.Fresh p) ∧
      ∀ a, grant.pespconn = some a → a ≠ null ∧ a ≠ e ∧ s.espconns a = none
  | _ => True

def Step (s : Net) (event : Event) (t : Net) : Prop := s.Allowed event ∧ Ends (fun turns => s.perform turns event) t

def start (espconns : Ptr → Option Espconn) (pcbs : Pcbs) : Net where
  msgs := ⟨fun _ => null,fun _ => ⟨null,null,.nomode,0,null,0,0,0,0,0⟩,fun _ => false⟩
  plinkActive := null
  pserverList := []
  espconns := espconns
  pcbs := pcbs
  queue := []
  premot := []
  inside := none
  born := 0
  released := []
  processed := []

end Net

end NonosLinkLayer.Connections
