import NonosLinkLayer.Base.ByteMemory
import Mathlib.Data.List.Basic

namespace NonosLinkLayer.Dhcps
open ByteMemory

def htonl (v : UInt32) : UInt32 := swap32 v
def ntohl (v : UInt32) : UInt32 := swap32 v

def ipaddrAny : UInt32 := 0
def ipaddrBroadcast : UInt32 := 0xffffffff
def dhcpsMaxLease : UInt32 := 0x64
def maxStationNum : UInt8 := 8

abbrev Mac := Vector UInt8 6

inductive DhcpsType where
  | dynamic
  | static
  deriving DecidableEq, Repr

inductive DhcpsState where
  | online
  | offline
  deriving DecidableEq, Repr

-- struct dhcps_pool. Addresses are raw words in network order, which the CPU
-- compares as little endian numbers.
structure DhcpsPool where
  ip : UInt32
  mac : Mac
  leaseTimer : UInt32
  type : DhcpsType
  state : DhcpsState
  deriving DecidableEq, Repr

structure DhcpsLease where
  enable : Bool
  startIp : UInt32
  endIp : UInt32
  deriving DecidableEq, Repr

-- The variables of the server. The nodes of `plist` are its places in order,
-- and a pointer to a node is its place.
structure Server where
  dhcpsLease : DhcpsLease
  plist : List DhcpsPool
  renew : Bool
  dhcpsLeaseTime : UInt32
  deriving DecidableEq, Repr

def wifiSoftapInitDhcpsLease (lease : DhcpsLease) (ip : UInt32) : DhcpsLease :=
  let softapIp := htonl ip
  let startIp := htonl lease.startIp
  let endIp := htonl lease.endIp
  let kept := lease.enable && !(decide (startIp ≤ softapIp) && decide (softapIp ≤ endIp)) &&
    !(startIp >>> 8 != softapIp >>> 8 || endIp >>> 8 != softapIp >>> 8 || decide (endIp - startIp > dhcpsMaxLease))
  if kept then lease
  else
    let localIp := softapIp &&& 0xFF
    let softapIp := softapIp &&& 0xFFFFFF00
    let localIp := if localIp ≥ 0x80 then localIp - dhcpsMaxLease else localIp + 1
    ⟨false,htonl (softapIp ||| localIp),htonl (softapIp ||| (localIp + dhcpsMaxLease - 1))⟩

def nodeInsertToList (pinsert : DhcpsPool) : List DhcpsPool → List DhcpsPool
  | [] => [pinsert]
  | p :: rest => if pinsert.ip < p.ip then pinsert :: p :: rest else p :: nodeInsertToList pinsert rest

def nodeRemoveFromList (plist : List DhcpsPool) (pdelete : Nat) : List DhcpsPool := plist.eraseIdx pdelete

def nextIp (ip : UInt32) : UInt32 := htonl (ntohl ip + 1)

-- The loop of wifi_softap_add_dhcps_lease, from a node on: the address it
-- counts up to, or nothing when it meets the mac.
def addLoop (macaddr : Mac) : List DhcpsPool → UInt32 → Option UInt32
  | [],startIp => some startIp
  | p :: rest,startIp => if p.mac = macaddr then none else addLoop macaddr rest (nextIp startIp)

def wifiSoftapAddDhcpsLease (s : Server) (macaddr : Mac) : Server × Bool :=
  match addLoop macaddr s.plist s.dhcpsLease.startIp with
  | none => (s,false)
  | some startIp =>
    if startIp > s.dhcpsLease.endIp then (s,false)
    else ({s with plist := nodeInsertToList ⟨startIp,macaddr,s.dhcpsLeaseTime,.static,.online⟩ s.plist},true)

def oldestLoop (minp : Nat) (pmin : DhcpsPool) : Nat → List DhcpsPool → Nat
  | _,[] => minp
  | i,p :: rest =>
    if p.leaseTimer < pmin.leaseTimer then oldestLoop i p (i+1) rest else oldestLoop minp pmin (i+1) rest

-- It follows a null pointer when the list has no second node. The state is set
-- in the node the loop came to last.
def killOldestDhcpsPool : List DhcpsPool → Option (List DhcpsPool)
  | [] => none
  | [_] => none
  | head :: p :: rest =>
    let minp := oldestLoop 1 p 1 (p :: rest)
    let plist := (head :: p :: rest).modify (rest.length + 1) fun last => {last with state := .offline}
    some (nodeRemoveFromList plist minp)

def DhcpsPool.tick (p : DhcpsPool) : DhcpsPool :=
  if p.type = .dynamic then {p with leaseTimer := p.leaseTimer - 1} else p

-- The loop of dhcps_coarse_tmr, which counts the nodes it keeps in eight bits.
def coarseLoop : List DhcpsPool → UInt8 → List DhcpsPool × UInt8
  | [],num => ([],num)
  | p :: rest,num =>
    if p.tick.leaseTimer = 0 then coarseLoop rest num
    else
      let (rest,num) := coarseLoop rest (num + 1)
      (p.tick :: rest,num)

def dhcpsCoarseTmr (s : Server) : Option Server :=
  let (plist,num) := coarseLoop s.plist 0
  if num ≥ maxStationNum then (killOldestDhcpsPool plist).map fun plist => {s with plist := plist}
  else some {s with plist := plist}

def leaveLoop (bssid : Mac) (ip : UInt32) (force : Bool) : List DhcpsPool → List DhcpsPool
  | [] => []
  | p :: rest =>
    if p.mac = bssid ∧ p.ip = ip then
      if p.type = .static ∨ force then rest else {p with state := .offline} :: rest
    else p :: leaveLoop bssid ip force rest

def wifiSoftapDhcpsClientLeave (s : Server) (bssid : Option Mac) (ip : Option UInt32) (force : Bool) : Server :=
  match bssid,ip with
  | some bssid,some ip => {s with plist := leaveLoop bssid ip force s.plist}
  | _,_ => s

structure Search where
  pmacNode : Option Nat
  pipNode : Option Nat
  flag : Bool
  startIp : UInt32

-- One turn of the loop at node `p`, and the loop, which an own node ends when no
-- address is asked for.
def Search.turn (l : Search) (bssid : Mac) (ip : Option UInt32) (i : Nat) (p : DhcpsPool) : Search :=
  let l := if p.mac = bssid then {l with pmacNode := some i} else l
  match ip with
  | some ip => if p.ip = ip then {l with pipNode := some i} else l
  | none =>
    if l.flag then l
    else if p.ip ≠ l.startIp then {l with flag := true}
    else {l with startIp := nextIp l.startIp}

def updateLoop (bssid : Mac) (ip : Option UInt32) : Nat → List DhcpsPool → Search → Search
  | _,[],l => l
  | i,p :: rest,l =>
    if p.mac = bssid ∧ ip = none then {l with pmacNode := some i,flag := true}
    else updateLoop bssid ip (i+1) rest (l.turn bssid ip i p)

def nodeAt (plist : List DhcpsPool) (node : Option Nat) : Option (Nat × DhcpsPool) :=
  node.bind fun i => plist[i]?.map (i,·)

-- `ip` is neither the broadcast address nor 0.0.0.0 any more.
def assignIp (s : Server) (bssid : Mac) (ip : Option UInt32) (type : DhcpsType) : Server × UInt32 :=
  let s := {s with renew := false}
  let endIp := s.dhcpsLease.endIp
  let l := updateLoop bssid ip 0 s.plist ⟨none,none,false,s.dhcpsLease.startIp⟩
  if ip = none ∧ l.flag = false ∧ l.startIp > endIp then (s,ipaddrAny)
  else
    -- the address for the client: with none asked for, the flag is set by now
    let addr := ip.getD l.startIp
    match nodeAt s.plist l.pmacNode,nodeAt s.plist l.pipNode with
    | some (pmac,_),some (pip,pool) =>
      if pip ≠ pmac then
        if pool.state ≠ .offline then (s,ipaddrAny)
        else
          -- the node with the mac goes, the one with the address gets the mac
          let plist := s.plist.set pip ⟨pool.ip,bssid,s.dhcpsLeaseTime,type,.online⟩
          ({s with plist := nodeRemoveFromList plist pmac},pool.ip)
      else
        let plist := s.plist.set pip ⟨pool.ip,pool.mac,s.dhcpsLeaseTime,.dynamic,.online⟩
        ({s with plist := plist,renew := true},pool.ip)
    | some (pmac,pool),none =>
      let node := ⟨addr,pool.mac,s.dhcpsLeaseTime,type,.online⟩
      ({s with plist := nodeInsertToList node (nodeRemoveFromList s.plist pmac)},addr)
    | none,some (pip,pool) =>
      if pool.state ≠ .offline then (s,ipaddrAny)
      else ({s with plist := s.plist.set pip ⟨pool.ip,bssid,s.dhcpsLeaseTime,type,.online⟩},pool.ip)
    | none,none =>
      if addr > endIp then (s,ipaddrAny)
      else ({s with plist := nodeInsertToList ⟨addr,bssid,s.dhcpsLeaseTime,type,.online⟩ s.plist},addr)

def wifiSoftapDhcpsClientUpdate (s : Server) (bssid : Option Mac) (ip : Option UInt32) : Server × UInt32 :=
  match bssid with
  | none => (s,ipaddrAny)
  | some bssid =>
    match ip with
    | none => assignIp s bssid none .dynamic
    | some ip =>
      if ip = ipaddrBroadcast then (s,ipaddrAny)
      else if ip = ipaddrAny then assignIp s bssid none .dynamic
      else assignIp s bssid (some ip) .static

end NonosLinkLayer.Dhcps
