import NonosLinkLayer.Glue.Beside

namespace NonosLinkLayer.Interfaces
open Station Glue SideBySide Transitions

def Device.stacks (d : Device) : Stacks := ⟨d.esp,d.git,d.info,if d.isDefault then some .station else none⟩

def Lwip.onStation (lwip : Lwip) : Station.Lwip :=
  {lwip213 with
    netifSetLinkUp := fun s => {s with netifGit := lwip.netifSetLinkUp s.netifGit}
    netifSetLinkDown := fun s => {s with netifGit := lwip.netifSetLinkDown s.netifGit}
    dhcpStart := fun s => {s with netifGit := (lwip.dhcpStart s.netifGit).1}}

def ofStation : Station.Call → Call
  | .netifSetAddr new => .netifSetAddr .station new
  | .netifSetUp => .netifSetUp .station
  | .netifSetDown supplied => .netifSetDown .station supplied
  | .dhcpStart => .dhcpStart .station
  | .lease new => .lease .station new

section OnStation
variable {lwip : Lwip}

theorem onStation_contract (contract : lwip.Contract) : lwip.onStation.Contract where
  setAddr _ _ _ := rfl
  setUp _ _ := rfl
  setDown _ _ := rfl
  linkUp s := by
    unfold Lwip.onStation
    dsimp only
    rw [contract.linkUp]
    exact ⟨rfl,rfl,rfl⟩
  linkDown s := by
    unfold Lwip.onStation
    dsimp only
    rw [contract.linkDown]
    exact ⟨rfl,rfl,rfl⟩
  start s := by
    unfold Lwip.onStation
    dsimp only
    rw [contract.start]
    exact ⟨rfl,rfl,rfl⟩
  release _ _ _ := rfl

theorem callback_stacks (d : Device) :
    (Device.callback .station d).stacks = Station.netifStaStatusCallback d.stacks := by
  unfold Station.netifStaStatusCallback Station.glue2espIfupdown Device.callback Device.stacks
  by_cases gw : d.git.addrs.gw = 0
  · cases d.isDefault <;> cases up : d.git.up <;> simp [up,gw] <;> rw [←gw]
  · cases d.isDefault <;> cases up : d.git.up <;> simp [up,gw]

theorem told_stacks (d : Device) (told : Netif) :
    ({Device.callback .station {d with git := told} with git := told} : Device).stacks =
      Station.netifStaStatusCallback {d.stacks with netifGit := told} := by
  change {(Device.callback .station {d with git := told}).stacks with netifGit := told} = _
  rw [callback_stacks]
  exact congrArg (fun netif => {Station.netifStaStatusCallback {d.stacks with netifGit := told} with netifGit := netif})
    (Station.callback_git {d.stacks with netifGit := told}).symm

theorem setAddr_stacks (contract : lwip.Contract) (new : IpInfo) (d : Device) :
    (Device.follow .station (lwip.netifSetAddr new) d).stacks =
      lwip.onStation.netifSetAddr Station.netifStaStatusCallback new d.stacks := by
  unfold Device.follow
  rw [contract.setAddr]
  change _ = if new.ip = 0 then setMasks new (setIp Station.netifStaStatusCallback new.ip d.stacks)
    else setIp Station.netifStaStatusCallback new.ip (setMasks new d.stacks)
  unfold setIp
  have ip : d.stacks.netifGit.addrs.ip = d.git.addrs.ip := rfl
  have masks : (setMasks new d.stacks).netifGit.addrs.ip = d.git.addrs.ip := rfl
  rw [ip,masks]
  by_cases same : d.git.addrs.ip = new.ip
  · rw [if_pos same,if_pos same,if_pos same,ite_self]
    have all : new = ⟨d.git.addrs.ip,new.netmask,new.gw⟩ := by rw [same]
    exact congrArg (fun addrs => {d.stacks with netifGit := {d.git with addrs := addrs}}) all
  · rw [if_neg same,if_neg same,if_neg same]
    by_cases gone : new.ip = 0
    · -- The callback comes between the address and the masks.
      rw [if_pos gone,if_pos gone,gone]
      let told : Netif := {d.git with addrs := ⟨0,d.git.addrs.netmask,d.git.addrs.gw⟩}
      have all : new = ⟨0,new.netmask,new.gw⟩ := by rw [←gone]
      change {(Device.callback .station {d with git := told}).stacks with netifGit := {d.git with addrs := new}} =
        setMasks new (Station.netifStaStatusCallback {d.stacks with netifGit := told})
      rw [callback_stacks]
      unfold setMasks
      rw [Station.callback_git]
      exact congrArg (fun addrs => {Station.netifStaStatusCallback {d.stacks with netifGit := told} with
        netifGit := {d.git with addrs := addrs}}) all
    · rw [if_neg gone,if_neg gone]
      exact told_stacks d {d.git with addrs := new}

theorem setUp_stacks (contract : lwip.Contract) (d : Device) :
    (Device.follow .station lwip.netifSetUp d).stacks = lwip.onStation.netifSetUp Station.netifStaStatusCallback d.stacks := by
  unfold Device.follow
  rw [contract.setUp]
  change _ = if d.git.up then d.stacks else
    Station.netifStaStatusCallback {d.stacks with netifGit := {d.git with up := true}}
  cases d.git.up with
  | true => rfl
  | false => exact told_stacks d {d.git with up := true}

theorem setDown_stacks (contract : lwip.Contract) (d : Device) :
    (Device.follow .station lwip.netifSetDown d).stacks = lwip.onStation.netifSetDown Station.netifStaStatusCallback d.stacks := by
  unfold Device.follow
  rw [contract.setDown]
  change _ = if d.git.up then Station.netifStaStatusCallback {d.stacks with netifGit := {d.git with up := false}} else d.stacks
  cases d.git.up with
  | true => exact told_stacks d {d.git with up := false}
  | false => rfl

theorem release_stacks (contract : lwip.Contract) (supplied : Bool) (d : Device) :
    (Device.follow .station (lwip.dhcpReleaseAndStop supplied) d).stacks =
      lwip.onStation.dhcpReleaseAndStop Station.netifStaStatusCallback supplied d.stacks := by
  cases supplied with
  | false =>
    unfold Device.follow
    rw [contract.release]
    rfl
  | true =>
    refine Eq.trans ?_ (setAddr_stacks contract .any d)
    unfold Device.follow
    rw [contract.release]
    rfl

theorem clear_stacks (d : Device) : ({d with isDefault := false} : Device).stacks =
    if d.stacks.netifDefault = some .station then {d.stacks with netifDefault := none} else d.stacks := by
  unfold Device.stacks
  cases d.isDefault <;> rfl

theorem down_stacks (contract : lwip.Contract) (supplied : Bool) (d : Device) :
    (Device.down lwip .station supplied d).stacks = Station.netifSetDown lwip.onStation supplied d.stacks := by
  let one : Device := {d with esp := {d.esp with up := false,linkUp := false}}
  let two := Device.follow .station (lwip.dhcpReleaseAndStop supplied) one
  let three : Device := {two with git := lwip.netifSetLinkDown {two.git with addrs := .any}}
  have released : two.stacks = lwip.onStation.dhcpReleaseAndStop Station.netifStaStatusCallback supplied one.stacks :=
    release_stacks contract supplied one
  have down := setDown_stacks contract three
  refine (clear_stacks (Device.follow .station lwip.netifSetDown three)).trans ?_
  rw [down]
  change _ = Station.esp2glueNetifSetDown0 lwip.onStation supplied one.stacks
  unfold Station.esp2glueNetifSetDown0
  rw [←released]
  rfl

theorem assign_stacks (contract : lwip.Contract) (new : IpInfo) (d : Device) :
    (Device.assign lwip .station new d).stacks = Station.netifSetAddr lwip.onStation new d.stacks := by
  let one : Device := {d with
    esp := {d.esp with addrs := new,linkUp := decide (new.ip ≠ 0)}
    info := new
    git := ⟨d.git.addrs,decide (new.ip ≠ 0),true,
      if d.esp.hwaddr.length ≠ 0 ∧ d.esp.hwaddr.length ≤ NETIF_MAX_HWADDR_LEN then d.esp.hwaddr else d.git.hwaddr,d.esp.mtu⟩}
  have set := setAddr_stacks contract new one
  refine (congrArg (Station.esp2glueNetifSetUp1 lwip.onStation) set).trans ?_
  unfold Station.netifSetAddr
  dsimp only
  by_cases same : d.stacks.info = new
  · rw [if_neg (not_not.mpr same)]
    cases same
    rfl
  · rw [if_pos same]
    rfl

theorem dhcpStart_stacks (contract : lwip.Contract) (d : Device) :
    (Device.dhcpStart lwip .station d).1.stacks = Station.dhcpStart lwip.onStation d.stacks := by
  let one : Device := {d with esp := {d.esp with linkUp := true},git := lwip.netifSetLinkUp d.git}
  have up : (Device.follow .station lwip.netifSetUp one).stacks =
      lwip.onStation.netifSetUp Station.netifStaStatusCallback (lwip.onStation.netifSetLinkUp
        {d.stacks with netifEsp := {d.stacks.netifEsp with linkUp := true}}) := setUp_stacks contract one
  unfold Station.dhcpStart Station.esp2glueDhcpStart
  dsimp only
  rw [←up]
  rfl

theorem perform_stacks (contract : lwip.Contract) (call : Station.Call) (d : Device) (known : d.known = true) :
    (Device.perform lwip d (ofStation call)).1.stacks = Station.perform lwip.onStation d.stacks call := by
  cases call with
  | netifSetAddr new =>
    refine Eq.trans ?_ (assign_stacks contract new d)
    change (Device.setAddr lwip .station new d).stacks = _
    unfold Device.setAddr
    rw [if_pos known]
  | netifSetUp => rfl
  | netifSetDown supplied => exact down_stacks contract supplied d
  | dhcpStart => exact dhcpStart_stacks contract d
  | lease new => exact setAddr_stacks contract new d

theorem play_stacks (contract : lwip.Contract) (later : List Station.Call) (d : Device) (known : d.known = true) :
    Runs (Station.Performs lwip.onStation) d.stacks later (play (Device.perform lwip) d (later.map ofStation)).1.stacks := by
  induction later generalizing d with
  | nil => exact .nil
  | cons call rest ih =>
    refine .first (perform_stacks contract call d known).symm (ih _ ?_)
    rw [perform_known,known]
    rfl

theorem run_agree {lwip : Station.Lwip} (contract : lwip.Contract) {calls : List Station.Call} {s t : Stacks} (agree : Agree s)
    (meets : EachMeets (Performs lwip) Keeps s calls) (path : Runs (Performs lwip) s calls t) : Agree t := by
  have all : Throughout (Performs lwip) Agree s calls := by
    refine (throughout_iff (fun s call agree => ?_) agree).mpr meets
    exact ⟨Station.perform lwip s call,rfl,fun _ same => same.symm,perform_agree contract s call agree⟩
  have last : Throughout (Performs lwip) Agree t [] := .after path (by rwa [List.append_nil])
  exact last

end OnStation

end NonosLinkLayer.Interfaces
