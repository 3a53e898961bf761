import NonosLinkLayer.Base.HeapList
import NonosLinkLayer.Dhcps.Updates

-- The code of Pool once more, with the nodes of the list in memory and with the
-- pointers the code has to them. A list_node and its dhcps_pool are allocated and
-- freed together, and are one node here. Every function fails at an access to a
-- node that is not there, and when a loop does not end in so many turns.
namespace NonosLinkLayer.Dhcps.Nodes
open HeapList

abbrev PoolHeap := Heap DhcpsPool

-- The loop that looks for the place of a node, from the node `plist` on, which is not behind it.
def insertLoop (pinsert : Ptr) : Nat → Ptr → PoolHeap → Option PoolHeap
  | 0,_,_ => none
  | turns+1,plist,h => do
    let q ← h.next plist
    if q = null then h.link plist pinsert
    else do
      let node ← h.node pinsert
      let pool ← h.node q
      if node.ip < pool.ip then do
        let h ← h.link pinsert q
        h.link plist pinsert
      else insertLoop pinsert turns q h

def nodeInsertToList (turns : Nat) (h : PoolHeap) (phead pinsert : Ptr) : Option (PoolHeap × Ptr) :=
  if phead = null then some (h,pinsert)
  else do
    let node ← h.node pinsert
    let pool ← h.node phead
    if node.ip < pool.ip then do
      let h ← h.link pinsert phead
      some (h,pinsert)
    else do
      let h ← insertLoop pinsert turns phead h
      some (h,phead)

-- What a turn of the loop of node_remove_from_list does in front of the node.
def unlink (h : PoolHeap) (plist pdelete : Ptr) : Option PoolHeap := do
  let q ← h.next plist
  if q = pdelete then do
    let d ← h.next pdelete
    let h ← h.link plist d
    h.link pdelete null
  else some h

def removeLoop (pdelete : Ptr) : Nat → Ptr → PoolHeap → Option PoolHeap
  | 0,_,_ => none
  | turns+1,plist,h =>
    if plist = null then some h
    else do
      let h ← unlink h plist pdelete
      let q ← h.next plist
      removeLoop pdelete turns q h

def nodeRemoveFromList (turns : Nat) (h : PoolHeap) (phead pdelete : Ptr) : Option (PoolHeap × Ptr) :=
  if phead = null then some (h,null)
  else if phead = pdelete then do
    let q ← h.next phead
    let h ← h.link pdelete null
    some (h,q)
  else do
    let h ← removeLoop pdelete turns phead h
    some (h,phead)

structure State where
  dhcpsLease : DhcpsLease
  renew : Bool
  dhcpsLeaseTime : UInt32
  heap : PoolHeap
  plist : Ptr

def addTurn (macaddr : Mac) (l : UInt32 × Bool) (_ : Ptr) (pool : DhcpsPool) : Turn (UInt32 × Bool) :=
  if pool.mac = macaddr then .stop (l.1,true) else .next (nextIp l.1,false)

-- `fresh` is where os_zalloc puts a node, if one is asked for.
def wifiSoftapAddDhcpsLease (turns : Nat) (fresh : Ptr) (s : State) (macaddr : Mac) : Option State := do
  let l ← forNodes (addTurn macaddr) s.heap turns s.plist (s.dhcpsLease.startIp,false)
  if l.2 then some s
  else if l.1 > s.dhcpsLease.endIp then some s
  else do
    let h := s.heap.alloc fresh ⟨l.1,macaddr,s.dhcpsLeaseTime,.static,.online⟩
    let (h,plist) ← nodeInsertToList turns h s.plist fresh
    some {s with heap := h,plist := plist}

structure Oldest where
  pre : Ptr
  minpre : Ptr
  minp : Ptr

def oldestLoop (h : PoolHeap) : Nat → Ptr → Oldest → Option Oldest
  | 0,_,_ => none
  | turns+1,p,l =>
    if p = null then some l
    else do
      let pool ← h.node p
      let min ← h.node l.minp
      let q ← h.next p
      oldestLoop h turns q (if pool.leaseTimer < min.leaseTimer then ⟨p,l.pre,p⟩ else ⟨p,l.minpre,l.minp⟩)

def killOldestDhcpsPool (turns : Nat) (h : PoolHeap) (plist : Ptr) : Option PoolHeap := do
  let p ← h.next plist
  let l ← oldestLoop h turns p ⟨plist,plist,p⟩
  let q ← h.next l.minp
  let h ← h.link l.minpre q
  -- the pool the loop came to last is the one of `pre`, once there was a turn
  let pool ← h.node l.pre
  let h ← h.store l.pre {pool with state := .offline}
  h.free l.minp

def coarseLoop (turns : Nat) : Nat → Ptr → PoolHeap → Ptr → UInt8 → Option (PoolHeap × Ptr × UInt8)
  | 0,_,_,_,_ => none
  | left+1,pnode,h,plist,num =>
    if pnode = null then some (h,plist,num)
    else do
      let pool ← h.node pnode
      let h ← h.store pnode pool.tick
      let q ← h.next pnode
      if pool.tick.leaseTimer = 0 then do
        let (h,plist) ← nodeRemoveFromList turns h plist pnode
        let h ← h.free pnode
        coarseLoop turns left q h plist num
      else coarseLoop turns left q h plist (num + 1)

def dhcpsCoarseTmr (turns : Nat) (s : State) : Option State := do
  let (h,plist,num) ← coarseLoop turns turns s.plist s.heap s.plist 0
  if num ≥ maxStationNum then do
    let h ← killOldestDhcpsPool turns h plist
    some {s with heap := h,plist := plist}
  else some {s with heap := h,plist := plist}

def leaveTurn (bssid : Mac) (ip : UInt32) (l : Ptr) (p : Ptr) (pool : DhcpsPool) : Turn Ptr :=
  if pool.mac = bssid then
    if pool.ip = ip then .stop p else .next l
  else .next l

def wifiSoftapDhcpsClientLeave (turns : Nat) (s : State) (bssid : Option Mac) (ip : Option UInt32) (force : Bool) :
    Option State :=
  match bssid,ip with
  | some bssid,some ip => do
    let p ← forNodes (leaveTurn bssid ip) s.heap turns s.plist null
    if p = null then some s
    else do
      let pool ← s.heap.node p
      if pool.type = .static ∨ force then do
        let (h,plist) ← nodeRemoveFromList turns s.heap s.plist p
        let h ← h.free p
        some {s with heap := h,plist := plist}
      else do
        let h ← s.heap.store p {pool with state := .offline}
        some {s with heap := h}
  | _,_ => some s

structure Search where
  pmacNode : Ptr
  pipNode : Ptr
  flag : Bool
  startIp : UInt32

def updateTurn (bssid : Mac) (ip : Option UInt32) (l : Search) (p : Ptr) (pool : DhcpsPool) : Turn Search :=
  if pool.mac = bssid ∧ ip = none then .stop {l with pmacNode := p,flag := true}
  else
    let l := if pool.mac = bssid then {l with pmacNode := p} else l
    match ip with
    | some ip => if pool.ip = ip then .next {l with pipNode := p} else .next l
    | none =>
      if l.flag then .next l
      else if pool.ip ≠ l.startIp then .next {l with flag := true}
      else .next {l with startIp := nextIp l.startIp}

def assignIp (turns : Nat) (fresh : Ptr) (s : State) (bssid : Mac) (ip : Option UInt32) (type : DhcpsType) :
    Option (State × UInt32) := do
  let s := {s with renew := false}
  let endIp := s.dhcpsLease.endIp
  let l ← forNodes (updateTurn bssid ip) s.heap turns s.plist ⟨null,null,false,s.dhcpsLease.startIp⟩
  if ip = none ∧ l.flag = false ∧ l.startIp > endIp then some (s,ipaddrAny)
  else
    let addr := ip.getD l.startIp
    if l.pmacNode ≠ null then
      if l.pipNode ≠ null then do
        let pool ← s.heap.node l.pipNode
        if l.pipNode ≠ l.pmacNode then
          if pool.state ≠ .offline then some (s,ipaddrAny)
          else do
            let (h,plist) ← nodeRemoveFromList turns s.heap s.plist l.pmacNode
            let h ← h.free l.pmacNode
            let h ← h.store l.pipNode ⟨pool.ip,bssid,s.dhcpsLeaseTime,type,.online⟩
            some ({s with heap := h,plist := plist},pool.ip)
        else do
          let h ← s.heap.store l.pipNode ⟨pool.ip,pool.mac,s.dhcpsLeaseTime,.dynamic,.online⟩
          some ({s with heap := h,renew := true},pool.ip)
      else do
        let pool ← s.heap.node l.pmacNode
        -- the address changes while the node is still in its old place
        let h ← s.heap.store l.pmacNode {pool with ip := addr}
        let (h,plist) ← nodeRemoveFromList turns h s.plist l.pmacNode
        let h ← h.store l.pmacNode ⟨addr,pool.mac,s.dhcpsLeaseTime,type,.online⟩
        let (h,plist) ← nodeInsertToList turns h plist l.pmacNode
        some ({s with heap := h,plist := plist},addr)
    else if l.pipNode ≠ null then do
      let pool ← s.heap.node l.pipNode
      if pool.state ≠ .offline then some (s,ipaddrAny)
      else do
        let h ← s.heap.store l.pipNode ⟨pool.ip,bssid,s.dhcpsLeaseTime,type,.online⟩
        some ({s with heap := h},pool.ip)
    else if addr > endIp then some (s,ipaddrAny)
    else do
      let h := s.heap.alloc fresh ⟨addr,bssid,s.dhcpsLeaseTime,type,.online⟩
      let (h,plist) ← nodeInsertToList turns h s.plist fresh
      some ({s with heap := h,plist := plist},addr)

def wifiSoftapDhcpsClientUpdate (turns : Nat) (fresh : Ptr) (s : State) (bssid : Option Mac) (ip : Option UInt32) :
    Option (State × UInt32) :=
  match bssid with
  | none => some (s,ipaddrAny)
  | some bssid =>
    match ip with
    | none => assignIp turns fresh s bssid none .dynamic
    | some ip =>
      if ip = ipaddrBroadcast then some (s,ipaddrAny)
      else if ip = ipaddrAny then assignIp turns fresh s bssid none .dynamic
      else assignIp turns fresh s bssid (some ip) .static

def stopLoop (turns : Nat) : Nat → Ptr → PoolHeap → Ptr → Option (PoolHeap × Ptr)
  | 0,_,_,_ => none
  | left+1,pnode,h,plist =>
    if pnode = null then some (h,plist)
    else do
      let q ← h.next pnode
      let (h,plist) ← nodeRemoveFromList turns h plist pnode
      let h ← h.free pnode
      stopLoop turns left q h plist

def dhcpsStop (turns : Nat) (s : State) : Option State := do
  let (h,plist) ← stopLoop turns turns s.plist s.heap s.plist
  some {s with heap := h,plist := plist}

end NonosLinkLayer.Dhcps.Nodes
