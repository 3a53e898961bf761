import NonosLinkLayer.Glue.Devices

namespace NonosLinkLayer.Interfaces
open Station Glue SideBySide

-- What lwIP 2.1.3 documents of a netif, as in Station. netif_set_link_up and
-- netif_set_link_down change the flag for the link.
structure Lwip.Contract (lwip : Lwip) : Prop where
  setAddr : ∀ new netif, lwip.netifSetAddr new netif =
    ⟨if netif.addrs.ip = new.ip then []
      else if new.ip = 0 then [{netif with addrs := ⟨0,netif.addrs.netmask,netif.addrs.gw⟩}]
      else [{netif with addrs := new}],{netif with addrs := new}⟩
  setUp : ∀ netif, lwip.netifSetUp netif =
    if netif.up then ⟨[],netif⟩ else ⟨[{netif with up := true}],{netif with up := true}⟩
  setDown : ∀ netif, lwip.netifSetDown netif =
    if netif.up then ⟨[{netif with up := false}],{netif with up := false}⟩ else ⟨[],netif⟩
  linkUp : ∀ netif, lwip.netifSetLinkUp netif = {netif with linkUp := true}
  linkDown : ∀ netif, lwip.netifSetLinkDown netif = {netif with linkUp := false}
  start : ∀ netif, (lwip.dhcpStart netif).1 = netif
  stop : ∀ supplied netif, lwip.dhcpStop supplied netif = lwip.dhcpReleaseAndStop supplied netif
  release : ∀ supplied netif, lwip.dhcpReleaseAndStop supplied netif =
    if supplied then lwip.netifSetAddr .any netif else ⟨[],netif⟩

structure Link where
  serving : Bool
  addrs : IpInfo
  deriving DecidableEq

def Link.after (l : Link) : Call → Link
  | .netifAdd _ new _ _ ok _ => if ok then ⟨true,new⟩ else l
  | .netifSetAddr _ new => ⟨true,new⟩
  | .netifSetUp _ | .dhcpStart _ | .dhcpsStart _ => {l with serving := true}
  | .netifSetDown .. | .netifRemove .. => ⟨false,.any⟩
  | .netifSetDefault _ => l
  | .dhcpStop _ supplied => if supplied then {l with addrs := .any} else l
  | .lease _ new => {l with addrs := new}

structure Device.Carries (i : Interface) (d : Device) (l : Link) : Prop where
  up : d.git.up = l.serving
  linkUp : d.git.linkUp = l.serving
  addrs : d.git.addrs = l.addrs
  route : d.isDefault = true → i = .station ∧ l.serving = true

section Links
variable {lwip : Lwip} {i : Interface} {d : Device} {l : Link}

-- A callback makes the station the default route only where it is up.
theorem callback_route {Q : Prop} (up : d.git.up = true → Q) (route : d.isDefault = true → i = .station ∧ Q) :
    (Device.callback i d).isDefault = true → i = .station ∧ Q := by
  intro isDefault
  cases i with
  | station => exact ⟨rfl,up (Bool.and_eq_true_iff.mp isDefault).1⟩
  | softap => exact route isDefault

theorem told_route {Q : Prop} (told : List Netif) (up : ∀ netif ∈ told, netif.up = true → Q)
    (route : d.isDefault = true → i = .station ∧ Q) :
    (told.foldl (fun d netif => Device.callback i {d with git := netif}) d).isDefault = true → i = .station ∧ Q := by
  induction told generalizing d with
  | nil => exact route
  | cons netif rest ih =>
    refine ih (fun other mem => up other (List.mem_cons_of_mem _ mem)) ?_
    exact callback_route (d := {d with git := netif}) (up netif List.mem_cons_self) route

theorem follow_route {Q : Prop} (f : Netif → Course) (up : ∀ netif ∈ (f d.git).told, netif.up = true → Q)
    (route : d.isDefault = true → i = .station ∧ Q) : (Device.follow i f d).isDefault = true → i = .station ∧ Q :=
  told_route (f d.git).told up route

theorem setAddr_told (contract : lwip.Contract) (new : IpInfo) (netif : Netif) :
    ∀ one ∈ (lwip.netifSetAddr new netif).told, one.up = netif.up := by
  rw [contract.setAddr]
  intro one mem
  dsimp only at mem
  split at mem
  · cases mem
  · split at mem <;> rw [List.mem_singleton.mp mem]

theorem setAddr_git (contract : lwip.Contract) (new : IpInfo) (d : Device) :
    (Device.follow i (lwip.netifSetAddr new) d).git = {d.git with addrs := new} := by
  change (lwip.netifSetAddr new d.git).left = _
  rw [contract.setAddr]

theorem setAddr_carries (contract : lwip.Contract) (carries : d.Carries i l) (new : IpInfo) :
    (Device.follow i (lwip.netifSetAddr new) d).Carries i {l with addrs := new} := by
  have git := setAddr_git (i := i) contract new d
  refine ⟨?_,?_,?_,follow_route _ (fun one mem up => ?_) carries.route⟩
  · rw [git]
    exact carries.up
  · rw [git]
    exact carries.linkUp
  · rw [git]
  · rw [setAddr_told contract new d.git one mem,carries.up] at up
    exact up

theorem release_carries (contract : lwip.Contract) (carries : d.Carries i l) (supplied : Bool) :
    (Device.follow i (lwip.dhcpReleaseAndStop supplied) d).Carries i (if supplied then {l with addrs := .any} else l) := by
  cases supplied with
  | false =>
    have none : Device.follow i (lwip.dhcpReleaseAndStop false) d = d := by
      unfold Device.follow
      rw [contract.release]
      rfl
    rw [none]
    exact carries
  | true =>
    have same : Device.follow i (lwip.dhcpReleaseAndStop true) d = Device.follow i (lwip.netifSetAddr .any) d := by
      unfold Device.follow
      rw [contract.release]
      rfl
    rw [same]
    exact setAddr_carries contract carries .any

theorem stop_carries (contract : lwip.Contract) (carries : d.Carries i l) (supplied : Bool) :
    (Device.follow i (lwip.dhcpStop supplied) d).Carries i (if supplied then {l with addrs := .any} else l) := by
  have same : Device.follow i (lwip.dhcpStop supplied) d = Device.follow i (lwip.dhcpReleaseAndStop supplied) d := by
    unfold Device.follow
    rw [contract.stop]
  rw [same]
  exact release_carries contract carries supplied

theorem up_carries (contract : lwip.Contract) (route : d.isDefault = true → i = .station) :
    (Device.up lwip d).Carries i ⟨true,d.git.addrs⟩ := by
  unfold Device.up
  rw [contract.linkUp]
  exact ⟨rfl,rfl,rfl,fun isDefault => ⟨route isDefault,rfl⟩⟩

theorem follow_station (f : Netif → Course) (route : d.isDefault = true → i = .station) :
    (Device.follow i f d).isDefault = true → i = .station :=
  fun isDefault => (follow_route (Q := True) f (fun _ _ _ => trivial) (fun old => ⟨route old,trivial⟩) isDefault).1

theorem assign_carries (contract : lwip.Contract) (route : d.isDefault = true → i = .station) (new : IpInfo) :
    (Device.assign lwip i new d).Carries i ⟨true,new⟩ := by
  unfold Device.assign Device.update
  dsimp only
  have carries := up_carries contract (follow_station (lwip.netifSetAddr new) (d := {d with
    esp := {d.esp with addrs := new,linkUp := decide (new.ip ≠ 0)}
    info := new
    git := ⟨d.git.addrs,decide (new.ip ≠ 0),true,
      if d.esp.hwaddr.length ≠ 0 ∧ d.esp.hwaddr.length ≤ NETIF_MAX_HWADDR_LEN then d.esp.hwaddr else d.git.hwaddr,d.esp.mtu⟩})
    route)
  rw [setAddr_git contract] at carries
  exact carries

theorem added_carries (contract : lwip.Contract) (route : d.isDefault = true → i = .station) (new : IpInfo) :
    (Device.setAddr lwip i new d).Carries i ⟨true,new⟩ := by
  unfold Device.setAddr
  refine assign_carries contract ?_ new
  split <;> exact route

theorem down_carries (contract : lwip.Contract) (supplied : Bool) : (Device.down lwip i supplied d).Carries i ⟨false,.any⟩ := by
  unfold Device.down
  dsimp only
  have left (d : Device) : (Device.follow i lwip.netifSetDown d).git = {d.git with up := false} := by
    change (lwip.netifSetDown d.git).left = _
    rw [contract.setDown]
    cases up : d.git.up with
    | false => rw [if_neg Bool.false_ne_true,←up]
    | true => rw [if_pos rfl]
  refine ⟨?_,?_,?_,fun isDefault => Bool.noConfusion isDefault⟩
  all_goals
    dsimp only
    rw [left,contract.linkDown]

theorem setUp_git (contract : lwip.Contract) (d : Device) :
    (Device.follow i lwip.netifSetUp d).git = {d.git with up := true} := by
  change (lwip.netifSetUp d.git).left = _
  rw [contract.setUp]
  cases up : d.git.up with
  | false => rw [if_neg Bool.false_ne_true]
  | true => rw [if_pos rfl,←up]

theorem dhcpStart_carries (contract : lwip.Contract) (carries : d.Carries i l) :
    (Device.dhcpStart lwip i d).1.Carries i {l with serving := true} := by
  unfold Device.dhcpStart
  dsimp only
  refine ⟨?_,?_,?_,fun isDefault => ⟨?_,rfl⟩⟩
  · rw [contract.start,setUp_git contract]
  · rw [contract.start,setUp_git contract,contract.linkUp]
  · rw [contract.start,setUp_git contract,contract.linkUp]
    exact carries.addrs
  · dsimp only at isDefault
    refine follow_station lwip.netifSetUp (fun old => ?_) isDefault
    exact (carries.route old).1

theorem dhcpsStart_carries (contract : lwip.Contract) (carries : d.Carries i l) (info : IpInfo) :
    (Device.dhcpsStart lwip info d).Carries i {l with serving := true} := by
  unfold Device.dhcpsStart Device.up
  dsimp only
  refine ⟨rfl,rfl,?_,fun isDefault => ⟨(carries.route ?_).1,rfl⟩⟩
  · dsimp only
    split
    · rw [contract.linkUp]
      exact carries.addrs
    · exact carries.addrs
  · dsimp only at isDefault
    split at isDefault <;> exact isDefault

theorem call_carries (contract : lwip.Contract) (call : Call) (carries : d.Carries call.netif l) :
    (Device.perform lwip d call).1.Carries call.netif (l.after call) := by
  have route : d.isDefault = true → call.netif = .station := fun isDefault => (carries.route isDefault).1
  cases call with
  | netifAdd netif new state setup ok input =>
    cases ok with
    | false => exact ⟨carries.up,carries.linkUp,carries.addrs,carries.route⟩
    | true =>
      refine added_carries contract ?_ new
      exact route
  | netifSetAddr netif new => exact added_carries contract route new
  | netifSetUp netif =>
    have up := up_carries contract (d := {d with esp := {d.esp with up := true,linkUp := true}}) route
    rw [carries.addrs] at up
    exact up
  | netifSetDown netif supplied | netifRemove netif supplied => exact down_carries contract supplied
  | netifSetDefault netif => exact carries
  | dhcpStart netif => exact dhcpStart_carries contract carries
  | dhcpStop netif supplied => exact stop_carries contract carries supplied
  | dhcpsStart info => exact dhcpsStart_carries contract carries info
  | lease netif new => exact setAddr_carries contract carries new

theorem play_carries (contract : lwip.Contract) (calls : List Call) (owned : ∀ call ∈ calls, call.netif = i)
    (carries : d.Carries i l) : (play (Device.perform lwip) d calls).1.Carries i (calls.foldl Link.after l) := by
  induction calls generalizing d l with
  | nil => exact carries
  | cons call rest ih =>
    cases owned call List.mem_cons_self
    exact ih (fun other mem => owned other (List.mem_cons_of_mem _ mem)) (call_carries contract call carries)

end Links

def Call.announces : Call → Bool
  | .netifAdd _ _ _ _ ok _ => ok
  | .netifSetAddr .. => true
  | _ => false

-- The calls of one interface, where only the early ones come while it is not known.
def Orderly : Bool → List Call → Prop
  | _,[] => True
  | known,call :: rest => (known = true ∨ call.early = true) ∧ Orderly (known || call.announces) rest

section Runs
variable {lwip : Lwip}

theorem setAddr_announces (i : Interface) (new : IpInfo) (d : Device) : (Device.setAddr lwip i new d).known = true := by
  unfold Device.setAddr Device.assign Device.update Device.up
  dsimp only
  rw [follow_known]
  split
  case isTrue known => exact known
  case isFalse => rfl

theorem perform_known (d : Device) (call : Call) :
    (Device.perform lwip d call).1.known = (d.known || call.announces) := by
  cases call with
  | netifAdd netif new state setup ok input =>
    cases ok with
    | false => exact (Bool.or_false _).symm
    | true => exact (setAddr_announces netif new _).trans (Bool.or_true _).symm
  | netifSetAddr netif new => exact (setAddr_announces netif new d).trans (Bool.or_true _).symm
  | netifSetUp netif => exact (Bool.or_false _).symm
  | netifSetDown netif supplied | netifRemove netif supplied =>
    refine Eq.trans ?_ (Bool.or_false _).symm
    unfold Device.perform Device.down
    dsimp only
    rw [follow_known]
    exact follow_known _ _ _
  | netifSetDefault netif => exact (Bool.or_false _).symm
  | dhcpStart netif =>
    refine Eq.trans ?_ (Bool.or_false _).symm
    exact follow_known netif lwip.netifSetUp _
  | dhcpStop netif supplied => exact (follow_known _ _ _).trans (Bool.or_false _).symm
  | dhcpsStart info =>
    refine Eq.trans ?_ (Bool.or_false _).symm
    unfold Device.perform Device.dhcpsStart
    dsimp only
    split <;> rfl
  | lease netif new => exact (follow_known _ _ _).trans (Bool.or_false _).symm

theorem orderly_allowed {d : Device} {calls : List Call} (orderly : Orderly d.known calls) :
    EachAllowed (Device.perform lwip) Allowed d calls := by
  induction calls generalizing d with
  | nil => trivial
  | cons call rest ih =>
    refine ⟨orderly.1,ih ?_⟩
    rw [perform_known]
    exact orderly.2

theorem boot_tidy (esp : Both EspNetif) (info : Both IpInfo) (git : Both Netif) : Tidy (boot esp info git) := by
  refine ⟨fun i => ?_,fun i known => ?_,?_⟩
  · cases i <;> exact .inl rfl
  · cases i <;> cases known
  · intro softap
    cases softap

theorem boot_unknown (esp : Both EspNetif) (info : Both IpInfo) (git : Both Netif) (i : Interface) :
    (part i (boot esp info git)).known = false := by
  cases i <;> rfl

theorem boot_carries (esp : Both EspNetif) (info : Both IpInfo) (git : Both Netif) (i : Interface) :
    (part i (boot esp info git)).Carries i ⟨false,.any⟩ := by
  cases i <;> exact ⟨rfl,rfl,rfl,fun isDefault => Bool.noConfusion isDefault⟩

-- From boot on, whatever the order of the calls for the two interfaces, as long as
-- each is added before it is used.
theorem orderly_runs (lwip : Lwip) (esp : Both EspNetif) (info : Both IpInfo) (git : Both Netif) (calls : List Call)
    (orderly : ∀ i, Orderly false (own Call.netif i calls)) :
    ∃ s answers, run (perform lwip) (boot esp info git) calls = some (s,answers) ∧
      ∀ i, play (Device.perform lwip) (part i (boot esp info git)) (own Call.netif i calls) =
        (part i s,ownAnswers Call.netif i answers) := by
  have allowed (i : Interface) : EachAllowed (Device.perform lwip) Allowed (part i (boot esp info git)) (own Call.netif i calls) := by
    refine orderly_allowed ?_
    rw [boot_unknown]
    exact orderly i
  obtain ⟨s,answers,ran,_,parts⟩ := runs_apart (fun s call tidy ok => call_apart lwip tidy call ok) (boot_tidy esp info git) allowed
  exact ⟨s,answers,ran,parts⟩

-- Each interface is left and answered as if it had been alone, and lwIP2 goes by the
-- last of its own calls.
theorem interfaces_apart (lwip : Lwip) (contract : lwip.Contract) (esp : Both EspNetif) (info : Both IpInfo)
    (git : Both Netif) (calls : List Call) (orderly : ∀ i, Orderly false (own Call.netif i calls)) :
    ∃ s answers, run (perform lwip) (boot esp info git) calls = some (s,answers) ∧
      (∀ i, play (Device.perform lwip) (part i (boot esp info git)) (own Call.netif i calls) =
        (part i s,ownAnswers Call.netif i answers)) ∧
      ∀ i, (part i s).Carries i ((own Call.netif i calls).foldl Link.after ⟨false,.any⟩) := by
  obtain ⟨s,answers,ran,parts⟩ := orderly_runs lwip esp info git calls orderly
  refine ⟨s,answers,ran,parts,fun i => ?_⟩
  have owned (call : Call) (mem : call ∈ own Call.netif i calls) : call.netif = i :=
    of_decide_eq_true (List.mem_filter.mp mem).2
  have carries := play_carries contract _ owned (boot_carries esp info git i)
  rw [parts] at carries
  exact carries

end Runs

def lwip2 : Lwip where
  netifSetAddr new netif :=
    ⟨if netif.addrs.ip = new.ip then []
      else if new.ip = 0 then [{netif with addrs := ⟨0,netif.addrs.netmask,netif.addrs.gw⟩}]
      else [{netif with addrs := new}],{netif with addrs := new}⟩
  netifSetUp netif := if netif.up then ⟨[],netif⟩ else ⟨[{netif with up := true}],{netif with up := true}⟩
  netifSetDown netif := if netif.up then ⟨[{netif with up := false}],{netif with up := false}⟩ else ⟨[],netif⟩
  netifSetLinkUp netif := {netif with linkUp := true}
  netifSetLinkDown netif := {netif with linkUp := false}
  dhcpStart netif := (netif,.ok)
  dhcpStop supplied netif :=
    if supplied then
      ⟨if netif.addrs.ip = 0 then [] else [{netif with addrs := ⟨0,netif.addrs.netmask,netif.addrs.gw⟩}],{netif with addrs := .any}⟩
    else ⟨[],netif⟩
  dhcpReleaseAndStop supplied netif :=
    if supplied then
      ⟨if netif.addrs.ip = 0 then [] else [{netif with addrs := ⟨0,netif.addrs.netmask,netif.addrs.gw⟩}],{netif with addrs := .any}⟩
    else ⟨[],netif⟩

theorem lwip2_contract : lwip2.Contract where
  setAddr _ _ := rfl
  setUp _ := rfl
  setDown _ := rfl
  linkUp _ := rfl
  linkDown _ := rfl
  start _ := rfl
  stop _ _ := rfl
  release _ _ := rfl

def raw : EspNetif := ⟨bare,.station,0,.other 0⟩
def access : IpInfo := ⟨0x0104a8c0,0x00ffffff,0x0104a8c0⟩

def bothUsed : List Call :=
  [.netifAdd .softap access 7 ⟨true,true,[2,0,0,0,0,2],1500⟩ true .ethernetInput,.dhcpsStart access,
    .netifSetDefault .softap,.netifSetAddr .station .any,.netifSetUp .station,.dhcpStart .station,
    .netifSetDown .softap false,.lease .station home]

theorem bothUsed_orderly (i : Interface) : Orderly false (own Call.netif i bothUsed) := by
  cases i with
  | station => exact ⟨.inr rfl,.inl rfl,.inl rfl,.inl rfl,trivial⟩
  | softap => exact ⟨.inr rfl,.inl rfl,.inl rfl,.inl rfl,trivial⟩

theorem interfaces_apart_both :
    ∃ s answers, run (perform lwip2) (boot ⟨raw,raw⟩ ⟨.any,.any⟩ ⟨bare,bare⟩) bothUsed = some (s,answers) ∧
      (part .station s).Carries .station ⟨true,home⟩ ∧ (part .softap s).Carries .softap ⟨false,.any⟩ := by
  obtain ⟨s,answers,ran,_,carries⟩ :=
    interfaces_apart lwip2 lwip2_contract ⟨raw,raw⟩ ⟨.any,.any⟩ ⟨bare,bare⟩ bothUsed bothUsed_orderly
  exact ⟨s,answers,ran,carries .station,carries .softap⟩

end NonosLinkLayer.Interfaces
