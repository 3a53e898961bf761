import NonosLinkLayer.Dhcps.Storage
import NonosLinkLayer.Dhcps.Configuration

namespace NonosLinkLayer.Dhcps
open ByteMemory HeapList

structure Info where
  ip : UInt32
  netmask : UInt32
  gw : UInt32
  deriving DecidableEq, Repr

-- The variables of the server beside the pool and the block it listens with, what
-- wifi_get_ip_info gives for the soft-AP, and the addresses and flags of netif_ap.
structure Setup where
  clientAddress : UInt32
  serverAddress : UInt32
  dnsAddress : UInt32
  broadcast : UInt32
  offer : UInt8
  softap : Info
  netifAp : Info
  up : Bool

def Setup.settings (u : Setup) : Settings := ⟨u.serverAddress,u.dnsAddress,u.softap.netmask,u.softap.gw,u.offer⟩

-- What dhcps_start sets. The broadcast address is of the addresses netif_ap still has.
def Setup.start (u : Setup) (info : Info) : Setup :=
  {u with broadcast := broadcastDhcps u.netifAp.ip u.netifAp.netmask,serverAddress := info.ip,softap := info,up := true}

def dhcpsLeaseTimeDef : UInt32 := 120
def offerStart : UInt8 := 0
def offerEnd : UInt8 := 2

def dhcpsSetDns (dnsAddress dns : UInt32) : UInt32 := if dns ≠ 0 then dns else dnsAddress

-- The option of the router is read through `optarg`, which is not looked at while the server runs.
def wifiSoftapSetDhcpsOfferOption (offer : UInt8) (status : DhcpStatus) (level : UInt8) (optarg : Option UInt8) :
    Option (UInt8 × Bool) :=
  if optarg = none ∧ status = .stopped then some (offer,false)
  else if level ≤ offerStart ∨ level ≥ offerEnd then some (offer,false)
  else if level = offerRouter then optarg.map fun arg => (arg &&& 1,true)
  else some (offer,false)

def wifiSoftapResetDhcpsLeaseTime (dhcpsLeaseTime : UInt32) (opmode : UInt8) (status : DhcpStatus) : UInt32 × Bool :=
  if opmode = stationMode ∨ opmode = nullMode then (dhcpsLeaseTime,false)
  else if status = .started then (dhcpsLeaseTime,false)
  else (dhcpsLeaseTimeDef,true)

def wifiSoftapGetDhcpsLease (lease : DhcpsLease) (opmode : UInt8) (status : DhcpStatus) (please : Bool) :
    Option (UInt32 × UInt32) :=
  if opmode = stationMode ∨ opmode = nullMode then none
  else if please then
    if lease.enable = false ∧ status = .stopped then none else some (lease.startIp,lease.endIp)
  else none

-- The calls that configure the server. `status` is what wifi_softap_dhcps_status
-- returns. An address can also come to the soft-AP by other ways than a start.
inductive Setting where
  | setLease (opmode : UInt8) (status : DhcpStatus) (please : Option DhcpsLease)
  | getLease (opmode : UInt8) (status : DhcpStatus) (please : Bool)
  | setLeaseTime (opmode : UInt8) (status : DhcpStatus) (minute : UInt32)
  | resetLeaseTime (opmode : UInt8) (status : DhcpStatus)
  | getLeaseTime
  | setOfferOption (status : DhcpStatus) (level : UInt8) (optarg : Option UInt8)
  | setDns (dns : UInt32)
  | address (softap netifAp : Info)

structure Reply where
  destination : UInt32
  answer : Answer
  payload : List UInt8
  deriving DecidableEq, Repr

def Setup.reply (u : Setup) (r : Answer × Memory) : Reply := ⟨u.broadcast,r.1,(List.range dhcpsMsgSize).map r.2⟩

inductive Outcome where
  | nothing
  | result (ok : Bool)
  | lease (lease : Option (UInt32 × UInt32))
  | time (minutes : UInt32)
  | reply (reply : Option Reply)
  deriving DecidableEq, Repr

structure Variables where
  setup : Setup
  dhcpsLease : DhcpsLease
  dhcpsLeaseTime : UInt32

def Variables.configure (v : Variables) : Setting → Option (Variables × Outcome)
  | .setLease opmode status please =>
    let (lease,ok) := wifiSoftapSetDhcpsLease v.dhcpsLease opmode status v.setup.softap.ip please
    some ({v with dhcpsLease := lease},.result ok)
  | .getLease opmode status please => some (v,.lease (wifiSoftapGetDhcpsLease v.dhcpsLease opmode status please))
  | .setLeaseTime opmode status minute =>
    let (time,ok) := wifiSoftapSetDhcpsLeaseTime v.dhcpsLeaseTime opmode status minute
    some ({v with dhcpsLeaseTime := time},.result ok)
  | .resetLeaseTime opmode status =>
    let (time,ok) := wifiSoftapResetDhcpsLeaseTime v.dhcpsLeaseTime opmode status
    some ({v with dhcpsLeaseTime := time},.result ok)
  | .getLeaseTime => some (v,.time v.dhcpsLeaseTime)
  | .setOfferOption status level optarg => do
    let (offer,ok) ← wifiSoftapSetDhcpsOfferOption v.setup.offer status level optarg
    some ({v with setup := {v.setup with offer := offer}},.result ok)
  | .setDns dns => some ({v with setup := {v.setup with dnsAddress := dhcpsSetDns v.setup.dnsAddress dns}},.nothing)
  | .address softap netifAp => some ({v with setup := {v.setup with softap := softap,netifAp := netifAp}},.nothing)

-- `given` says whether udp_new has a block, `zalloc` and `pbufAlloc` whether there
-- is memory for the copy of the message and for the reply.
inductive Call where
  | start (info : Option Info) (given : Bool)
  | stop
  | setting (setting : Setting)
  | event (event : Event)
  | datagram (heap : Memory) (p : Pbuf) (zalloc pbufAlloc : Bool)

structure Supply where
  turns : Nat
  node : Ptr
  pcb : Ptr

-- The server with its pointers, and the blocks of lwIP that have handle_dhcp for what they receive.
structure Service where
  setup : Setup
  pool : Nodes.State
  pcbDhcps : Ptr
  state : Ptr
  blocks : List Ptr

-- The calls of lwIP do nothing with a null pointer, and may be made with a block that is there.
def udpRemove (blocks : List Ptr) (pcb : Ptr) : Option (List Ptr) :=
  if pcb = null then some blocks
  else if pcb ∈ blocks then some (blocks.erase pcb)
  else none

def udpReach (blocks : List Ptr) (pcb : Ptr) : Option Bool :=
  if pcb = null then some false
  else if pcb ∈ blocks then some true
  else none

namespace Service

def giveBack (s : Service) : Option (List Ptr) := if s.state ≠ null then udpRemove s.blocks s.state else some s.blocks

def dhcpsStart (s : Service) (info : Option Info) (pcb : Ptr) : Option Service := do
  let blocks ← s.giveBack
  let blocks := if pcb ≠ null then pcb :: blocks else blocks
  let info ← info
  some {
    setup := s.setup.start info
    pool := {s.pool with dhcpsLease := wifiSoftapInitDhcpsLease s.pool.dhcpsLease info.ip}
    pcbDhcps := pcb
    state := pcb
    blocks := blocks}

def dhcpsStop (turns : Nat) (s : Service) : Option Service := do
  let _ ← udpReach s.blocks s.pcbDhcps
  let blocks ← s.giveBack
  let pool ← Nodes.dhcpsStop turns s.pool
  some {s with pool := pool,state := null,blocks := blocks}

def bare (pool : Nodes.State) (clientAddress : UInt32) : Daemon :=
  ⟨⟨pool.dhcpsLease,[],pool.renew,pool.dhcpsLeaseTime⟩,clientAddress⟩

def parseMsg (supply : Supply) (pool : Nodes.State) (clientAddress : UInt32) (m : Memory) (len : UInt16) :
    Option ((Nodes.State × UInt32) × Option Answer) :=
  if read32 m optionsAt = magicCookie then do
    let ip := ciaddr m
    let (pool,clientAddress) ← Nodes.wifiSoftapDhcpsClientUpdate supply.turns supply.node pool (some (chaddr m)) (some ip)
    let ret := parseOptions clientAddress pool.renew m (optionsAt + 4) len.toInt16
    if ret = .release then do
      let pool ← Nodes.wifiSoftapDhcpsClientLeave supply.turns pool (some (chaddr m)) (some ip) true
      some ((pool,ip),some ret)
    else some ((pool,clientAddress),some ret)
  else some ((pool,clientAddress),none)

def transmit (s : Service) (pbufAlloc : Bool) : Option (Answer × Memory) → Option (Option Reply)
  | none => some none
  | some r =>
    if pbufAlloc then do
      let sent ← udpReach s.blocks s.pcbDhcps
      some (if sent then some (s.setup.reply r) else none)
    else some none

def handleDhcp (supply : Supply) (s : Service) (heap : Memory) (p : Pbuf) (zalloc pbufAlloc : Bool) :
    Option (Service × Option Reply) :=
  if zalloc then do
    let tlen := p.totLen.toInt16
    let m := copyMsg heap p
    let ((pool,clientAddress),state) ← parseMsg supply s.pool s.setup.clientAddress m (tlen - 240).toUInt16
    let s := {s with pool := pool,setup := {s.setup with clientAddress := clientAddress}}
    let reply ← s.transmit pbufAlloc ((bare pool clientAddress).send s.setup.settings m state)
    some (s,reply)
  else some (s,none)

-- A datagram for the port of the server goes to a block, if there is one.
def serve (supply : Supply) (s : Service) : Call → Option (Service × Outcome)
  | .start info given => do
    let s ← s.dhcpsStart info (if given then supply.pcb else null)
    some (s,.nothing)
  | .stop => do
    let s ← s.dhcpsStop supply.turns
    some (s,.nothing)
  | .setting setting => do
    let (v,outcome) ← (Variables.mk s.setup s.pool.dhcpsLease s.pool.dhcpsLeaseTime).configure setting
    some ({s with setup := v.setup,pool := {s.pool with dhcpsLease := v.dhcpsLease,dhcpsLeaseTime := v.dhcpsLeaseTime}},outcome)
  | .event event => do
    let pool ← Nodes.perform supply.turns supply.node s.pool (.event event)
    some ({s with pool := pool},.nothing)
  | .datagram heap p zalloc pbufAlloc =>
    if s.blocks = [] then some (s,.reply none)
    else do
      let (s,reply) ← s.handleDhcp supply heap p zalloc pbufAlloc
      some (s,.reply reply)

end Service

end NonosLinkLayer.Dhcps
