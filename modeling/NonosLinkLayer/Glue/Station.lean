import NonosLinkLayer.Base.Transitions
import Mathlib.Tactic.SplitIfs

namespace NonosLinkLayer.Station
open Transitions

structure IpInfo where
  ip : UInt32
  netmask : UInt32
  gw : UInt32
  deriving DecidableEq, Repr

def IpInfo.any : IpInfo := ⟨0,0,0⟩

def NETIF_MAX_HWADDR_LEN : Nat := 6

structure Netif where
  addrs : IpInfo
  up : Bool
  linkUp : Bool
  hwaddr : List UInt8
  mtu : UInt16
  deriving DecidableEq, Repr

inductive Interface where
  | station
  | softap
  deriving DecidableEq, Repr

-- The station's netif of each stack, what wifi_get_ip_info gives for it, and the
-- default route of lwIP2.
structure Stacks where
  netifEsp : Netif
  netifGit : Netif
  info : IpInfo
  netifDefault : Option Interface
  deriving DecidableEq, Repr

-- What lwIP2 is asked for. The calls that can change the address or NETIF_FLAG_UP
-- get the status callback.
structure Lwip where
  netifSetAddr : (Stacks → Stacks) → IpInfo → Stacks → Stacks
  netifSetUp : (Stacks → Stacks) → Stacks → Stacks
  netifSetDown : (Stacks → Stacks) → Stacks → Stacks
  netifSetLinkUp : Stacks → Stacks
  netifSetLinkDown : Stacks → Stacks
  dhcpStart : Stacks → Stacks
  dhcpReleaseAndStop : (Stacks → Stacks) → Bool → Stacks → Stacks

def setIp (callback : Stacks → Stacks) (ip : UInt32) (s : Stacks) : Stacks :=
  if s.netifGit.addrs.ip = ip then s
  else callback {s with netifGit := {s.netifGit with addrs := {s.netifGit.addrs with ip := ip}}}

def setMasks (new : IpInfo) (s : Stacks) : Stacks :=
  {s with netifGit := {s.netifGit with addrs := ⟨s.netifGit.addrs.ip,new.netmask,new.gw⟩}}

structure Quiet (s s' : Stacks) : Prop where
  esp : s'.netifEsp.addrs = s.netifEsp.addrs
  git : s'.netifGit.addrs = s.netifGit.addrs
  up : s'.netifGit.up = s.netifGit.up

-- What lwIP 2.1.3 documents: an address that goes away goes before the netmask and
-- the gateway, and one that comes comes behind them, and the callback is run right
-- after the change of the address or of the flag. A client that stops gives back
-- the address it has supplied.
structure Lwip.Contract (lwip : Lwip) : Prop where
  setAddr : ∀ callback new s, lwip.netifSetAddr callback new s =
    if new.ip = 0 then setMasks new (setIp callback new.ip s) else setIp callback new.ip (setMasks new s)
  setUp : ∀ callback s, lwip.netifSetUp callback s =
    if s.netifGit.up then s else callback {s with netifGit := {s.netifGit with up := true}}
  setDown : ∀ callback s, lwip.netifSetDown callback s =
    if s.netifGit.up then callback {s with netifGit := {s.netifGit with up := false}} else s
  linkUp : ∀ s, Quiet s (lwip.netifSetLinkUp s)
  linkDown : ∀ s, Quiet s (lwip.netifSetLinkDown s)
  start : ∀ s, Quiet s (lwip.dhcpStart s)
  release : ∀ callback supplied s, lwip.dhcpReleaseAndStop callback supplied s =
    if supplied then lwip.netifSetAddr callback .any s else s

-- glue2esp_ifupdown for the station. system_station_got_ip_set gets the old addresses.
def glue2espIfupdown (s : Stacks) (ip mask gw : UInt32) : Stacks :=
  {s with netifEsp := {s.netifEsp with addrs := ⟨ip,mask,gw⟩,up := decide (ip ≠ 0)}}

def netifStaStatusCallback (s : Stacks) : Stacks :=
  let netif := s.netifGit
  let s := glue2espIfupdown s netif.addrs.ip netif.addrs.netmask netif.addrs.gw
  if netif.up then
    if s.netifDefault = none ∧ netif.addrs.gw ≠ 0 then {s with netifDefault := some .station} else s
  else if s.netifDefault = some .station then {s with netifDefault := none}
  else s

section Calls
variable (lwip : Lwip)

def esp2glueNetifSetUp1 (s : Stacks) : Stacks :=
  let s := lwip.netifSetLinkUp s
  {s with netifGit := {s.netifGit with up := true}}

-- `supplied` says whether lwIP2's client has given the netif its address.
def esp2glueNetifSetDown0 (supplied : Bool) (s : Stacks) : Stacks :=
  let s := lwip.dhcpReleaseAndStop netifStaStatusCallback supplied s
  let s := {s with netifGit := {s.netifGit with addrs := .any}}
  let s := lwip.netifSetLinkDown s
  let s := lwip.netifSetDown netifStaStatusCallback s
  if s.netifDefault = some .station then {s with netifDefault := none} else s

def esp2glueNetifUpdate (new : IpInfo) (hwaddr : List UInt8) (mtu : UInt16) (s : Stacks) : Stacks :=
  let hwaddr := if hwaddr.length ≠ 0 ∧ hwaddr.length ≤ NETIF_MAX_HWADDR_LEN then hwaddr else s.netifGit.hwaddr
  let s := {s with netifGit := {s.netifGit with hwaddr := hwaddr,linkUp := true,up := decide (new.ip ≠ 0),mtu := mtu}}
  let s := lwip.netifSetAddr netifStaStatusCallback new s
  esp2glueNetifSetUp1 lwip s

def netifSetAddr (new : IpInfo) (s : Stacks) : Stacks :=
  let s := {s with netifEsp := {s.netifEsp with addrs := new}}
  let s := if s.info ≠ new then {s with info := new} else s
  let s := {s with netifEsp := {s.netifEsp with linkUp := decide (new.ip ≠ 0)}}
  esp2glueNetifUpdate lwip new s.netifEsp.hwaddr s.netifEsp.mtu s

def netifSetDown (supplied : Bool) (s : Stacks) : Stacks :=
  let s := {s with netifEsp := {s.netifEsp with up := false,linkUp := false}}
  esp2glueNetifSetDown0 lwip supplied s

def netifSetUp (s : Stacks) : Stacks :=
  let s := {s with netifEsp := {s.netifEsp with up := true,linkUp := true}}
  esp2glueNetifSetUp1 lwip s

def esp2glueDhcpStart (s : Stacks) : Stacks :=
  let s := lwip.netifSetLinkUp s
  let s := lwip.netifSetUp netifStaStatusCallback s
  lwip.dhcpStart s

def dhcpStart (s : Stacks) : Stacks :=
  let s := {s with netifEsp := {s.netifEsp with linkUp := true}}
  esp2glueDhcpStart lwip s

inductive Call where
  | netifSetAddr (new : IpInfo)
  | netifSetUp
  | netifSetDown (supplied : Bool)
  | dhcpStart
  | lease (new : IpInfo)

-- A lease is what lwIP2's client does with an address: it calls lwIP2's netif_set_addr.
def perform (s : Stacks) : Call → Stacks
  | .netifSetAddr new => netifSetAddr lwip new s
  | .netifSetUp => netifSetUp lwip s
  | .netifSetDown supplied => netifSetDown lwip supplied s
  | .dhcpStart => dhcpStart lwip s
  | .lease new => lwip.netifSetAddr netifStaStatusCallback new s

def Performs (s : Stacks) (call : Call) (next : Stacks) : Prop := perform lwip s call = next

end Calls

def Agree (s : Stacks) : Prop := s.netifEsp.addrs = s.netifGit.addrs
instance (s : Stacks) : Decidable (Agree s) := inferInstanceAs (Decidable (_ = _))

-- The calls that leave the two sides in agreement. When an address goes away the
-- callback has the old netmask and gateway, and where the address stays there is no callback.
def Keeps (s : Stacks) : Call → Prop
  | .netifSetAddr new => new.ip = 0 → s.netifGit.addrs.ip ≠ 0 →
      s.netifGit.addrs.netmask = new.netmask ∧ s.netifGit.addrs.gw = new.gw
  | .netifSetDown supplied => s.netifGit.up = false →
      s.netifGit.addrs.netmask = 0 ∧ s.netifGit.addrs.gw = 0 ∧ (s.netifGit.addrs.ip = 0 ∨ supplied = true)
  | .lease new => new.ip = 0 ∨ new.ip = s.netifGit.addrs.ip →
      s.netifGit.addrs.netmask = new.netmask ∧ s.netifGit.addrs.gw = new.gw
  | _ => True

section Agreement
variable {lwip : Lwip} {s : Stacks} {new : IpInfo}

@[simp] theorem callback_git (s : Stacks) : (netifStaStatusCallback s).netifGit = s.netifGit := by
  unfold netifStaStatusCallback glue2espIfupdown
  dsimp only
  split_ifs <;> rfl

@[simp] theorem callback_esp (s : Stacks) : (netifStaStatusCallback s).netifEsp.addrs = s.netifGit.addrs := by
  unfold netifStaStatusCallback glue2espIfupdown
  dsimp only
  split_ifs <;> rfl

theorem setAddr_git (contract : lwip.Contract) (new : IpInfo) (s : Stacks) :
    (lwip.netifSetAddr netifStaStatusCallback new s).netifGit = {s.netifGit with addrs := new} := by
  rw [contract.setAddr]
  unfold setIp setMasks
  by_cases gone : new.ip = 0
  · rw [if_pos gone]
    by_cases same : s.netifGit.addrs.ip = new.ip
    · rw [if_pos same,same]
    · rw [if_neg same,callback_git]
  · rw [if_neg gone]
    by_cases same : s.netifGit.addrs.ip = new.ip
    · rw [if_pos same,same]
    · rw [if_neg same,callback_git]

theorem setAddr_esp (contract : lwip.Contract) (new : IpInfo) (s : Stacks) :
    (lwip.netifSetAddr netifStaStatusCallback new s).netifEsp.addrs =
      if s.netifGit.addrs.ip = new.ip then s.netifEsp.addrs
      else if new.ip = 0 then ⟨0,s.netifGit.addrs.netmask,s.netifGit.addrs.gw⟩
      else new := by
  rw [contract.setAddr]
  unfold setIp setMasks
  by_cases gone : new.ip = 0
  · rw [if_pos gone,if_pos gone]
    by_cases same : s.netifGit.addrs.ip = new.ip
    · rw [if_pos same,if_pos same]
    · rw [if_neg same,if_neg same,callback_esp,gone]
  · rw [if_neg gone,if_neg gone]
    by_cases same : s.netifGit.addrs.ip = new.ip
    · rw [if_pos same,if_pos same]
    · rw [if_neg same,if_neg same,callback_esp]

theorem setUp1_addrs (contract : lwip.Contract) (s : Stacks) :
    (esp2glueNetifSetUp1 lwip s).netifEsp.addrs = s.netifEsp.addrs ∧
      (esp2glueNetifSetUp1 lwip s).netifGit.addrs = s.netifGit.addrs :=
  ⟨(contract.linkUp s).esp,(contract.linkUp s).git⟩

theorem addrs_ext {a b : IpInfo} (ip : a.ip = b.ip) (netmask : a.netmask = b.netmask) (gw : a.gw = b.gw) : a = b := by
  cases a
  cases b
  cases ip
  cases netmask
  cases gw
  rfl

theorem masks_eq (new : IpInfo) (gone : new.ip = 0) (netmask gw : UInt32) :
    (⟨0,netmask,gw⟩ : IpInfo) = new ↔ netmask = new.netmask ∧ gw = new.gw := by
  constructor
  · rintro rfl
    exact ⟨rfl,rfl⟩
  · rintro ⟨rfl,rfl⟩
    rw [←gone]

-- The ESP side has the new addresses already when lwIP2 gets them.
theorem update_agree {t : Stacks} (contract : lwip.Contract) (told : t.netifEsp.addrs = new) (alike : t.netifGit = s.netifGit)
    (hwaddr : List UInt8) (mtu : UInt16) :
    Agree (esp2glueNetifUpdate lwip new hwaddr mtu t) ↔ Keeps s (.netifSetAddr new) := by
  unfold Agree esp2glueNetifUpdate Keeps
  rw [←alike]
  dsimp only
  rw [(setUp1_addrs contract _).1,(setUp1_addrs contract _).2,setAddr_git contract,setAddr_esp contract]
  dsimp only
  rw [told]
  by_cases same : t.netifGit.addrs.ip = new.ip
  · rw [if_pos same]
    exact iff_of_true rfl fun gone other => absurd (same.trans gone) other
  · rw [if_neg same]
    by_cases gone : new.ip = 0
    · rw [if_pos gone,masks_eq new gone]
      exact ⟨fun masks _ _ => masks,fun masks => masks gone (gone ▸ same)⟩
    · rw [if_neg gone]
      exact iff_of_true rfl fun zero => absurd zero gone

theorem espSetAddr_agree (contract : lwip.Contract) (new : IpInfo) (s : Stacks) :
    Agree (netifSetAddr lwip new s) ↔ Keeps s (.netifSetAddr new) := by
  unfold netifSetAddr
  dsimp only
  by_cases other : s.info ≠ new
  · rw [if_pos other]
    refine update_agree contract ?_ ?_ _ _ <;> rfl
  · rw [if_neg other]
    refine update_agree contract ?_ ?_ _ _ <;> rfl

theorem release_esp (contract : lwip.Contract) (agree : Agree s) (supplied : Bool) :
    (lwip.dhcpReleaseAndStop netifStaStatusCallback supplied s).netifEsp.addrs =
      if supplied then ⟨0,s.netifGit.addrs.netmask,s.netifGit.addrs.gw⟩ else s.netifGit.addrs := by
  rw [contract.release]
  cases supplied with
  | false => exact agree
  | true =>
    rw [if_pos rfl,if_pos rfl,setAddr_esp contract]
    by_cases zero : s.netifGit.addrs.ip = 0
    · rw [if_pos (show s.netifGit.addrs.ip = IpInfo.any.ip from zero),agree,←zero]
    · rw [if_neg (show ¬s.netifGit.addrs.ip = IpInfo.any.ip from zero),if_pos (show IpInfo.any.ip = 0 from rfl)]

theorem release_up (contract : lwip.Contract) (supplied : Bool) (s : Stacks) :
    (lwip.dhcpReleaseAndStop netifStaStatusCallback supplied s).netifGit.up = s.netifGit.up := by
  rw [contract.release]
  cases supplied with
  | false => rfl
  | true => rw [if_pos rfl,setAddr_git contract]

theorem default_addrs (s : Stacks) :
    Agree (if s.netifDefault = some .station then {s with netifDefault := none} else s) ↔ Agree s := by
  split <;> rfl

-- The addresses of lwIP2 are cleared without a callback, which comes with the flag if it was set.
theorem setDown_agree (contract : lwip.Contract) (agree : Agree s) (supplied : Bool) :
    Agree (netifSetDown lwip supplied s) ↔ Keeps s (.netifSetDown supplied) := by
  unfold netifSetDown esp2glueNetifSetDown0 Keeps
  dsimp only
  rw [default_addrs,contract.setDown,(contract.linkDown _).up]
  dsimp only
  rw [release_up contract]
  by_cases up : s.netifGit.up = true
  · rw [if_pos up]
    refine iff_of_true ?_ fun down => ?_
    · unfold Agree
      rw [callback_git,callback_esp]
    · rw [up] at down
      cases down
  · rw [if_neg up]
    unfold Agree
    rw [(contract.linkDown _).esp,(contract.linkDown _).git]
    dsimp only
    rw [release_esp contract (show Agree {s with netifEsp := {s.netifEsp with up := false,linkUp := false}} from agree)]
    dsimp only
    have down : s.netifGit.up = false := Bool.eq_false_iff.mpr up
    rw [forall_prop_of_true down]
    cases supplied with
    | true =>
      rw [if_pos rfl,masks_eq .any rfl]
      exact ⟨fun masks => ⟨masks.1,masks.2,.inr rfl⟩,fun masks => ⟨masks.1,masks.2.1⟩⟩
    | false =>
      constructor
      · intro zero
        rw [if_neg Bool.false_ne_true] at zero
        rw [zero]
        exact ⟨rfl,rfl,.inl rfl⟩
      · rintro ⟨netmask,gw,zero | never⟩
        · exact addrs_ext zero netmask gw
        · cases never

theorem setUp_agree (contract : lwip.Contract) (agree : Agree s) : Agree (netifSetUp lwip s) := by
  unfold Agree netifSetUp
  rw [(setUp1_addrs contract _).1,(setUp1_addrs contract _).2]
  exact agree

theorem dhcpStart_agree (contract : lwip.Contract) (agree : Agree s) : Agree (dhcpStart lwip s) := by
  unfold Agree dhcpStart esp2glueDhcpStart
  dsimp only
  rw [(contract.start _).esp,(contract.start _).git,contract.setUp]
  split
  · rw [(contract.linkUp _).esp,(contract.linkUp _).git]
    exact agree
  · rw [callback_git,callback_esp]

theorem lease_agree (contract : lwip.Contract) (agree : Agree s) (new : IpInfo) :
    Agree (perform lwip s (.lease new)) ↔ Keeps s (.lease new) := by
  unfold Agree perform Keeps
  dsimp only
  rw [setAddr_git contract,setAddr_esp contract,agree]
  by_cases same : s.netifGit.addrs.ip = new.ip
  · rw [if_pos same,forall_prop_of_true (.inr same.symm)]
    constructor
    · intro all
      rw [all]
      exact ⟨rfl,rfl⟩
    · rintro ⟨netmask,gw⟩
      exact addrs_ext same netmask gw
  · rw [if_neg same]
    by_cases gone : new.ip = 0
    · rw [if_pos gone,masks_eq new gone]
      exact ⟨fun masks _ => masks,fun masks => masks (.inl gone)⟩
    · rw [if_neg gone]
      refine iff_of_true rfl ?_
      rintro (zero | still)
      · exact absurd zero gone
      · exact absurd still.symm same

theorem perform_agree (contract : lwip.Contract) (s : Stacks) (call : Call) (agree : Agree s) :
    Agree (perform lwip s call) ↔ Keeps s call := by
  cases call with
  | netifSetAddr new => exact espSetAddr_agree contract new s
  | netifSetUp => exact iff_of_true (setUp_agree contract agree) trivial
  | netifSetDown supplied => exact setDown_agree contract agree supplied
  | dhcpStart => exact iff_of_true (dhcpStart_agree contract agree) trivial
  | lease new => exact lease_agree contract agree new

end Agreement

def start (info : IpInfo) (esp git : Netif) : Stacks := ⟨{esp with addrs := .any},{git with addrs := .any},info,none⟩

-- The two stacks have the same addresses in every state exactly as long as every call keeps them so.
theorem stations_agree (lwip : Lwip) (contract : lwip.Contract) (info : IpInfo) (esp git : Netif) (calls : List Call) :
    Throughout (Performs lwip) Agree (start info esp git) calls ↔
      EachMeets (Performs lwip) Keeps (start info esp git) calls := by
  refine throughout_iff (fun s call agree => ?_) rfl
  exact ⟨perform lwip s call,rfl,fun other same => same.symm,perform_agree contract s call agree⟩

def lwip213 : Lwip where
  netifSetAddr callback new s :=
    if new.ip = 0 then setMasks new (setIp callback new.ip s) else setIp callback new.ip (setMasks new s)
  netifSetUp callback s := if s.netifGit.up then s else callback {s with netifGit := {s.netifGit with up := true}}
  netifSetDown callback s := if s.netifGit.up then callback {s with netifGit := {s.netifGit with up := false}} else s
  netifSetLinkUp s := {s with netifGit := {s.netifGit with linkUp := true}}
  netifSetLinkDown s := {s with netifGit := {s.netifGit with linkUp := false}}
  dhcpStart s := s
  dhcpReleaseAndStop callback supplied s := if supplied then setMasks .any (setIp callback 0 s) else s

theorem lwip213_contract : lwip213.Contract where
  setAddr _ _ _ := rfl
  setUp _ _ := rfl
  setDown _ _ := rfl
  linkUp _ := ⟨rfl,rfl,rfl⟩
  linkDown _ := ⟨rfl,rfl,rfl⟩
  start _ := ⟨rfl,rfl,rfl⟩
  release _ _ _ := rfl

def bare : Netif := ⟨.any,false,false,[2,0,0,0,0,1],1500⟩
def home : IpInfo := ⟨0x0a01a8c0,0x00ffffff,0x0101a8c0⟩

-- A station that joins a network, and one that leaves it through netif_set_down.
theorem joining_agrees :
    Throughout (Performs lwip213) Agree (start .any bare bare) [.netifSetUp,.dhcpStart,.lease home,.netifSetDown true] := by
  refine (stations_agree lwip213 lwip213_contract .any bare bare _).mpr ?_
  refine ⟨trivial,?_⟩
  rintro _ rfl
  refine ⟨trivial,?_⟩
  rintro _ rfl
  refine ⟨fun either => absurd either (by decide),?_⟩
  rintro _ rfl
  exact ⟨fun down => absurd down (by decide),fun _ _ => trivial⟩

-- The address goes away, and the ESP side gets the netmask and the gateway back.
theorem leaving_disagrees : ¬∀ lwip : Lwip, lwip.Contract → ∀ info esp git calls,
    Throughout (Performs lwip) Agree (start info esp git) calls := by
  intro always
  have all := always lwip213 lwip213_contract .any bare bare [.netifSetAddr home,.netifSetAddr .any]
  have after : Agree (perform lwip213 (perform lwip213 (start .any bare bare) (.netifSetAddr home)) (.netifSetAddr .any)) :=
    (all.2 _ rfl).2 _ rfl
  exact absurd after (by decide)

end NonosLinkLayer.Station
