import NonosLinkLayer.Glue.Station
import NonosLinkLayer.Glue.Errors

namespace NonosLinkLayer.Interfaces
open Station Glue

structure Both (α : Type) where
  station : α
  softap : α
  deriving DecidableEq

namespace Both
variable {α : Type}

def get (both : Both α) : Interface → α
  | .station => both.station
  | .softap => both.softap

def set (both : Both α) (i : Interface) (one : α) : Both α :=
  match i with
  | .station => {both with station := one}
  | .softap => {both with softap := one}

def update (both : Both α) (i : Interface) (f : α → α) : Both α := both.set i (f (both.get i))

@[simp] theorem get_set (both : Both α) (i : Interface) (one : α) : (both.set i one).get i = one := by
  cases i <;> rfl

@[simp] theorem get_update (both : Both α) (i : Interface) (f : α → α) : (both.update i f).get i = f (both.get i) := by
  cases i <;> rfl

theorem set_other (both : Both α) {i j : Interface} (one : α) (other : j ≠ i) : (both.set i one).get j = both.get j := by
  cases i <;> cases j <;> first | rfl | exact absurd rfl other

theorem update_other (both : Both α) {i j : Interface} (f : α → α) (other : j ≠ i) :
    (both.update i f).get j = both.get j := both.set_other _ other

@[simp] theorem set_get (both : Both α) (i : Interface) : both.set i (both.get i) = both := by
  cases i <;> rfl

end Both

inductive InputFn where
  | ethernetInput
  | other (address : UInt32)
  deriving DecidableEq

-- The blobs' struct netif. Both of them come from eagle_lwip_getif, and a pointer to
-- one is its Interface.
structure EspNetif extends Netif where
  num : Interface
  state : UInt32
  input : InputFn
  deriving DecidableEq

structure AllStacks where
  esp : Both EspNetif
  netifEsp : Both (Option Interface)
  espDefault : Option Interface
  info : Both IpInfo
  netifGit : Both Netif
  netifDefault : Option Interface
  deriving DecidableEq

-- What one of lwIP2's functions does with a netif: the states in which the status
-- callback is run, and the one that is left.
structure Course where
  told : List Netif
  left : Netif

-- lwIP2. What supplied says is whether its client has given the netif its address.
structure Lwip where
  netifSetAddr : IpInfo → Netif → Course
  netifSetUp : Netif → Course
  netifSetDown : Netif → Course
  netifSetLinkUp : Netif → Netif
  netifSetLinkDown : Netif → Netif
  dhcpStart : Netif → Netif × Err
  dhcpStop : Bool → Netif → Course
  dhcpReleaseAndStop : Bool → Netif → Course

structure Setup where
  up : Bool
  linkUp : Bool
  hwaddr : List UInt8
  mtu : UInt16

def NetifInitFn : Type := EspNetif → Setup × Bool

def voidinit : NetifInitFn := fun netif => (⟨netif.up,netif.linkUp,netif.hwaddr,netif.mtu⟩,true)

def glue2espIfupdown (netifIdx : Interface) (ip mask gw : UInt32) (s : AllStacks) : Option AllStacks :=
  match s.netifEsp.get netifIdx with
  | none => none
  | some netif => some {s with esp := s.esp.update netif fun n => {n with addrs := ⟨ip,mask,gw⟩,up := decide (ip ≠ 0)}}

def netifStaStatusCallback (s : AllStacks) : Option AllStacks := do
  let netif := s.netifGit.station
  let s ← glue2espIfupdown .station netif.addrs.ip netif.addrs.netmask netif.addrs.gw s
  if netif.up then
    if s.netifDefault = none ∧ netif.addrs.gw ≠ 0 then some {s with netifDefault := some .station} else some s
  else if s.netifDefault = some .station then some {s with netifDefault := none}
  else some s

-- The soft-AP has netif_status_changed, which is the user's.
def statusCallback : Interface → AllStacks → Option AllStacks
  | .station => netifStaStatusCallback
  | .softap => some

def follow (i : Interface) (f : Netif → Course) (s : AllStacks) : Option AllStacks := do
  let course := f (s.netifGit.get i)
  let s ← course.told.foldlM (fun s netif => statusCallback i {s with netifGit := s.netifGit.set i netif}) s
  some {s with netifGit := s.netifGit.set i course.left}

section Calls
variable (lwip : Lwip)

def esp2glueNetifSetUp1 (i : Interface) (s : AllStacks) : AllStacks :=
  {s with netifGit := s.netifGit.update i fun netif => {lwip.netifSetLinkUp netif with up := true}}

def esp2glueNetifSetDown0 (i : Interface) (supplied : Bool) (s : AllStacks) : Option AllStacks := do
  let s ← follow i (lwip.dhcpReleaseAndStop supplied) s
  let s := {s with netifGit := s.netifGit.update i fun netif => {netif with addrs := .any}}
  let s := {s with netifGit := s.netifGit.update i lwip.netifSetLinkDown}
  let s ← follow i lwip.netifSetDown s
  if s.netifDefault = some i then some {s with netifDefault := none} else some s

def esp2glueNetifUpdate (i : Interface) (new : IpInfo) (hwaddr : List UInt8) (mtu : UInt16) (s : AllStacks) :
    Option AllStacks := do
  let s := {s with netifGit := s.netifGit.update i fun netif =>
    {netif with
      hwaddr := if hwaddr.length ≠ 0 ∧ hwaddr.length ≤ NETIF_MAX_HWADDR_LEN then hwaddr else netif.hwaddr
      linkUp := true
      up := decide (new.ip ≠ 0)
      mtu := mtu}}
  let s ← follow i (lwip.netifSetAddr new) s
  some (esp2glueNetifSetUp1 lwip i s)

def esp2glueDhcpStart (i : Interface) (s : AllStacks) : Option (AllStacks × GlueErr) := do
  let s := {s with netifGit := s.netifGit.update i lwip.netifSetLinkUp}
  let s ← follow i lwip.netifSetUp s
  let (netif,err) := lwip.dhcpStart (s.netifGit.get i)
  some ({s with netifGit := s.netifGit.set i netif},git2glueErr err)

-- dhcps_start of the server, of which the netif and the blobs see this much.
def esp2glueDhcpsStart (info : IpInfo) (s : AllStacks) : AllStacks :=
  {s with
    info := s.info.set .softap info
    netifGit := s.netifGit.update .softap fun netif => {netif with up := true,linkUp := true}}

def netifIsNew (netif : Interface) (s : AllStacks) : AllStacks × Bool :=
  let s := {s with esp := s.esp.update netif fun n => {n with num := netif}}
  if s.netifEsp.get netif = some netif then (s,false)
  else ({s with netifEsp := s.netifEsp.set netif (some netif)},true)

def netifSetAddrOld (netif : Interface) (new : IpInfo) (s : AllStacks) : Option AllStacks :=
  let s := {s with esp := s.esp.update netif fun n => {n with addrs := new}}
  let num := (s.esp.get netif).num
  let s := if s.info.get num ≠ new then {s with info := s.info.set num new} else s
  let s := {s with esp := s.esp.update netif fun n => {n with linkUp := decide (new.ip ≠ 0)}}
  esp2glueNetifUpdate lwip num new (s.esp.get netif).hwaddr (s.esp.get netif).mtu s

-- netif_add and netif_set_addr call each other. The depth is that of the stack.
mutual

def netifAdd : Nat → Interface → IpInfo → UInt32 → NetifInitFn → InputFn → AllStacks →
    Option (AllStacks × Option Interface)
  | 0,_,_,_,_,_,_ => none
  | depth + 1,netif,new,state,init,packetIncoming,s => do
    let s := {s with esp := s.esp.update netif fun n =>
      {n with addrs := .any,up := false,linkUp := false,state := state,input := packetIncoming}}
    let (setup,ok) := init (s.esp.get netif)
    let s := {s with esp := s.esp.update netif fun n =>
      {n with up := setup.up,linkUp := setup.linkUp,hwaddr := setup.hwaddr,mtu := setup.mtu}}
    if ok then (netifSetAddr depth netif new s).map fun s => (s,some netif) else some (s,none)

def netifSetAddr : Nat → Interface → IpInfo → AllStacks → Option AllStacks
  | 0,_,_,_ => none
  | depth + 1,netif,new,s =>
    let (s,isNew) := netifIsNew netif s
    if isNew then
      (netifAdd depth netif new (s.esp.get netif).state voidinit .ethernetInput s).map Prod.fst
    else netifSetAddrOld lwip netif new s

end

def netifSetUp (netif : Interface) (s : AllStacks) : AllStacks :=
  let s := {s with esp := s.esp.update netif fun n => {n with up := true,linkUp := true}}
  esp2glueNetifSetUp1 lwip (s.esp.get netif).num s

def netifSetDown (netif : Interface) (supplied : Bool) (s : AllStacks) : Option AllStacks :=
  let s := {s with esp := s.esp.update netif fun n => {n with up := false,linkUp := false}}
  esp2glueNetifSetDown0 lwip (s.esp.get netif).num supplied s

def netifRemove (netif : Interface) (supplied : Bool) (s : AllStacks) : Option AllStacks :=
  netifSetDown lwip netif supplied s

def netifSetDefault (netif : Interface) (s : AllStacks) : AllStacks := {s with espDefault := some netif}

def dhcpStart (netif : Interface) (s : AllStacks) : Option (AllStacks × Int) := do
  let s := {s with esp := s.esp.update netif fun n => {n with linkUp := true}}
  let (s,err) ← esp2glueDhcpStart lwip (s.esp.get netif).num s
  some (s,glue2espErr err)

def dhcpStop (netif : Interface) (supplied : Bool) (s : AllStacks) : Option AllStacks :=
  follow (s.esp.get netif).num (lwip.dhcpStop supplied) s

def dhcpsStart (info : IpInfo) (s : AllStacks) : AllStacks :=
  match s.netifEsp.softap with
  | some netifAp => esp2glueDhcpsStart info (esp2glueNetifSetUp1 lwip (s.esp.get netifAp).num s)
  | none => esp2glueDhcpsStart info s

inductive Call where
  | netifAdd (netif : Interface) (new : IpInfo) (state : UInt32) (setup : Setup) (ok : Bool) (packetIncoming : InputFn)
  | netifSetAddr (netif : Interface) (new : IpInfo)
  | netifSetUp (netif : Interface)
  | netifSetDown (netif : Interface) (supplied : Bool)
  | netifRemove (netif : Interface) (supplied : Bool)
  | netifSetDefault (netif : Interface)
  | dhcpStart (netif : Interface)
  | dhcpStop (netif : Interface) (supplied : Bool)
  | dhcpsStart (info : IpInfo)
  | lease (netif : Interface) (new : IpInfo)

def Call.netif : Call → Interface
  | .netifAdd netif .. | .netifSetAddr netif _ | .netifSetUp netif | .netifSetDown netif _ | .netifRemove netif _
  | .netifSetDefault netif | .dhcpStart netif | .dhcpStop netif _ | .lease netif _ => netif
  | .dhcpsStart _ => .softap

inductive Answer where
  | nothing
  | netif (netif : Option Interface)
  | err (err : Int)
  deriving DecidableEq

def quietly (s : Option AllStacks) : Option (AllStacks × Answer) := s.map fun s => (s,.nothing)

def perform (s : AllStacks) : Call → Option (AllStacks × Answer)
  | .netifAdd netif new state setup ok packetIncoming =>
    (netifAdd lwip 4 netif new state (fun _ => (setup,ok)) packetIncoming s).map fun (s,added) => (s,.netif added)
  | .netifSetAddr netif new => quietly (netifSetAddr lwip 3 netif new s)
  | .netifSetUp netif => some (netifSetUp lwip netif s,.nothing)
  | .netifSetDown netif supplied => quietly (netifSetDown lwip netif supplied s)
  | .netifRemove netif supplied => quietly (netifRemove lwip netif supplied s)
  | .netifSetDefault netif => some (netifSetDefault netif s,.nothing)
  | .dhcpStart netif => (dhcpStart lwip netif s).map fun (s,err) => (s,.err err)
  | .dhcpStop netif supplied => quietly (dhcpStop lwip netif supplied s)
  | .dhcpsStart info => some (dhcpsStart lwip info s,.nothing)
  | .lease netif new => quietly (follow netif (lwip.netifSetAddr new) s)

end Calls

def boot (esp : Both EspNetif) (info : Both IpInfo) (git : Both Netif) : AllStacks where
  esp := esp
  netifEsp := ⟨none,none⟩
  espDefault := none
  info := info
  netifGit := ⟨{git.station with addrs := .any,up := false,linkUp := false},
    {git.softap with addrs := .any,up := false,linkUp := false}⟩
  netifDefault := none

end NonosLinkLayer.Interfaces
