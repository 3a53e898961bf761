import NonosLinkLayer.Glue.Interfaces
import NonosLinkLayer.Base.SideBySide

namespace NonosLinkLayer.Interfaces
open Station Glue SideBySide

-- One interface of both stacks by itself: without the table of the netifs, without
-- numbers, and with a default route that is its own or not.
structure Device where
  esp : Netif
  state : UInt32
  input : InputFn
  known : Bool
  info : IpInfo
  git : Netif
  isDefault : Bool
  deriving DecidableEq

namespace Device

def callback (i : Interface) (d : Device) : Device :=
  match i with
  | .station =>
    {d with
      esp := {d.esp with addrs := d.git.addrs,up := decide (d.git.addrs.ip ≠ 0)}
      isDefault := d.git.up && (d.isDefault || decide (d.git.addrs.gw ≠ 0))}
  | .softap => d

def follow (i : Interface) (f : Netif → Course) (d : Device) : Device :=
  let course := f d.git
  {course.told.foldl (fun d netif => callback i {d with git := netif}) d with git := course.left}

section Calls
variable (lwip : Lwip) (i : Interface)

def up (d : Device) : Device := {d with git := {lwip.netifSetLinkUp d.git with up := true}}

def down (supplied : Bool) (d : Device) : Device :=
  let d := follow i (lwip.dhcpReleaseAndStop supplied) {d with esp := {d.esp with up := false,linkUp := false}}
  let d := {d with git := lwip.netifSetLinkDown {d.git with addrs := .any}}
  {follow i lwip.netifSetDown d with isDefault := false}

def update (new : IpInfo) (d : Device) : Device :=
  let hwaddr := if d.esp.hwaddr.length ≠ 0 ∧ d.esp.hwaddr.length ≤ NETIF_MAX_HWADDR_LEN then d.esp.hwaddr else d.git.hwaddr
  let d := {d with git := ⟨d.git.addrs,decide (new.ip ≠ 0),true,hwaddr,d.esp.mtu⟩}
  up lwip (follow i (lwip.netifSetAddr new) d)

def assign (new : IpInfo) (d : Device) : Device :=
  update lwip i new {d with esp := {d.esp with addrs := new,linkUp := decide (new.ip ≠ 0)},info := new}

def cleared (state : UInt32) (input : InputFn) (d : Device) : Device :=
  {d with esp := {d.esp with addrs := .any,up := false,linkUp := false},state := state,input := input}

-- The first address makes the interface known, with nothing left of what its
-- initialisation has set up but the hardware address and the mtu.
def setAddr (new : IpInfo) (d : Device) : Device :=
  assign lwip i new (if d.known then d else {cleared d.state .ethernetInput d with known := true})

def add (new : IpInfo) (state : UInt32) (setup : Setup) (ok : Bool) (input : InputFn) (d : Device) :
    Device × Option Interface :=
  let d := {cleared state input d with esp := ⟨.any,setup.up,setup.linkUp,setup.hwaddr,setup.mtu⟩}
  if ok then (setAddr lwip i new d,some i) else (d,none)

def dhcpStart (d : Device) : Device × Int :=
  let d := {d with esp := {d.esp with linkUp := true},git := lwip.netifSetLinkUp d.git}
  let d := follow i lwip.netifSetUp d
  ({d with git := (lwip.dhcpStart d.git).1},glue2espErr (git2glueErr (lwip.dhcpStart d.git).2))

def dhcpsStart (info : IpInfo) (d : Device) : Device :=
  let d := if d.known then up lwip d else d
  {d with info := info,git := {d.git with up := true,linkUp := true}}

end Calls

def perform (lwip : Lwip) (d : Device) : Call → Device × Answer
  | .netifAdd netif new state setup ok input =>
    let (d,added) := add lwip netif new state setup ok input d
    (d,.netif added)
  | .netifSetAddr netif new => (setAddr lwip netif new d,.nothing)
  | .netifSetUp _ => (up lwip {d with esp := {d.esp with up := true,linkUp := true}},.nothing)
  | .netifSetDown netif supplied | .netifRemove netif supplied => (down lwip netif supplied d,.nothing)
  | .netifSetDefault _ => (d,.nothing)
  | .dhcpStart netif =>
    let (d,err) := dhcpStart lwip netif d
    (d,.err err)
  | .dhcpStop netif supplied => (follow netif (lwip.dhcpStop supplied) d,.nothing)
  | .dhcpsStart info => (dhcpsStart lwip info d,.nothing)
  | .lease netif new => (follow netif (lwip.netifSetAddr new) d,.nothing)

end Device

def Call.early : Call → Bool
  | .netifAdd .. | .netifSetAddr .. | .netifSetDefault _ | .dhcpsStart _ => true
  | _ => false

def Allowed (d : Device) (call : Call) : Prop := d.known = true ∨ call.early = true

theorem Allowed.late {d : Device} {call : Call} (allowed : Allowed d call) (late : call.early = false) : d.known = true :=
  allowed.resolve_right (by simp [late])

def part (i : Interface) (s : AllStacks) : Device where
  esp := (s.esp.get i).toNetif
  state := (s.esp.get i).state
  input := (s.esp.get i).input
  known := decide (s.netifEsp.get i = some i)
  info := s.info.get i
  git := s.netifGit.get i
  isDefault := decide (s.netifDefault = some i)

structure Tidy (s : AllStacks) : Prop where
  slots : ∀ i, s.netifEsp.get i = none ∨ s.netifEsp.get i = some i
  nums : ∀ i, s.netifEsp.get i = some i → (s.esp.get i).num = i
  route : s.netifDefault ≠ some .softap

structure Puts (i : Interface) (s : AllStacks) (d : Device) (next : AllStacks) : Prop where
  tidy : Tidy next
  own : part i next = d
  others : ∀ j, j ≠ i → part j next = part j s

section Parts
variable {i : Interface} {s next : AllStacks} {d : Device}

theorem Puts.same (tidy : Tidy s) : Puts i s (part i s) s := ⟨tidy,rfl,fun _ _ => rfl⟩

theorem Puts.git (puts : Puts i s d next) (f : Netif → Netif) :
    Puts i s {d with git := f d.git} {next with netifGit := next.netifGit.update i f} := by
  obtain ⟨tidy,rfl,others⟩ := puts
  refine ⟨⟨tidy.slots,tidy.nums,tidy.route⟩,?_,fun j other => (Eq.trans ?_ (others j other))⟩
  · simp [part]
  · simp [part,Both.update_other _ _ other]

theorem Puts.attach (puts : Puts i s d next) (f : Netif → Netif) (g : UInt32 → UInt32) (h : InputFn → InputFn) :
    Puts i s {d with esp := f d.esp,state := g d.state,input := h d.input}
      {next with esp := next.esp.update i fun n => {n with toNetif := f n.toNetif,state := g n.state,input := h n.input}} := by
  obtain ⟨tidy,rfl,others⟩ := puts
  refine ⟨⟨tidy.slots,fun j known => ?_,tidy.route⟩,?_,fun j other => (Eq.trans ?_ (others j other))⟩
  · by_cases same : j = i
    · subst same
      simpa using tidy.nums j known
    · simpa [Both.update_other _ _ same] using tidy.nums j known
  · simp [part]
  · simp [part,Both.update_other _ _ other]

theorem Puts.esp (puts : Puts i s d next) (f : Netif → Netif) :
    Puts i s {d with esp := f d.esp} {next with esp := next.esp.update i fun n => {n with toNetif := f n.toNetif}} :=
  puts.attach f id id

theorem Puts.info (puts : Puts i s d next) (new : IpInfo) :
    Puts i s {d with info := new} {next with info := next.info.set i new} := by
  obtain ⟨tidy,rfl,others⟩ := puts
  refine ⟨⟨tidy.slots,tidy.nums,tidy.route⟩,?_,fun j other => (Eq.trans ?_ (others j other))⟩
  · simp [part]
  · simp [part,Both.set_other _ _ other]

theorem Puts.clear (puts : Puts i s d next) :
    Puts i s {d with isDefault := false} (if next.netifDefault = some i then {next with netifDefault := none} else next) := by
  obtain ⟨tidy,rfl,others⟩ := puts
  split
  case isTrue route =>
    refine ⟨⟨tidy.slots,tidy.nums,by simp⟩,by simp [part],fun j other => (Eq.trans ?_ (others j other))⟩
    have apart : ¬i = j := fun same => other same.symm
    simp [part,route,apart]
  case isFalse route => exact ⟨tidy,by simp [part,route],others⟩

theorem Puts.netif (puts : Puts i s d next) (known : d.known = true) : (next.esp.get i).num = i := by
  obtain ⟨tidy,rfl,_⟩ := puts
  exact tidy.nums i (of_decide_eq_true known)

theorem callback_known (i : Interface) (d : Device) : (Device.callback i d).known = d.known := by
  cases i <;> rfl

theorem Puts.callback (puts : Puts i s d next) (known : d.known = true) :
    ∃ last, statusCallback i next = some last ∧ Puts i s (Device.callback i d) last := by
  obtain ⟨tidy,rfl,others⟩ := puts
  cases i with
  | softap => exact ⟨next,rfl,tidy,rfl,others⟩
  | station =>
    have slot : next.netifEsp.get .station = some .station := of_decide_eq_true known
    let told : AllStacks := {next with esp := next.esp.update .station fun n =>
      {n with addrs := next.netifGit.station.addrs,up := decide (next.netifGit.station.addrs.ip ≠ 0)}}
    have ifupdown : glue2espIfupdown .station next.netifGit.station.addrs.ip next.netifGit.station.addrs.netmask
        next.netifGit.station.addrs.gw next = some told := by
      unfold glue2espIfupdown
      rw [slot]
    -- What is left of the callback is about the default route.
    have leaves (route : Option Interface) (other : route ≠ some .softap)
        (right : (Device.callback .station (part .station next)).isDefault = decide (route = some .station)) :
        Puts .station s (Device.callback .station (part .station next)) {told with netifDefault := route} := by
      obtain ⟨tidy,own,others⟩ := (⟨tidy,rfl,others⟩ : Puts .station s _ next).esp fun n =>
        {n with addrs := next.netifGit.station.addrs,up := decide (next.netifGit.station.addrs.ip ≠ 0)}
      refine ⟨⟨tidy.slots,tidy.nums,other⟩,?_,fun j apart => (Eq.trans ?_ (others j apart))⟩
      · change ({part .station told with isDefault := decide (route = some Interface.station)} : Device) = _
        rw [←right]
        rfl
      · cases j with
        | station => exact absurd rfl apart
        | softap => simp [part,other,tidy.route,told]
    unfold statusCallback netifStaStatusCallback
    simp only [ifupdown,Option.bind_eq_bind,Option.bind_some]
    change ∃ last, (if next.netifGit.station.up = true then
        if next.netifDefault = none ∧ next.netifGit.station.addrs.gw ≠ 0 then some {told with netifDefault := some .station}
        else some {told with netifDefault := next.netifDefault}
      else if next.netifDefault = some .station then some {told with netifDefault := none}
      else some {told with netifDefault := next.netifDefault}) = some last ∧ _
    have kinds : next.netifDefault = none ∨ next.netifDefault = some .station := by
      cases default : next.netifDefault with
      | none => exact .inl rfl
      | some i =>
        cases i with
        | station => exact .inr rfl
        | softap => exact absurd default tidy.route
    have isDefault : (Device.callback .station (part .station next)).isDefault =
        (next.netifGit.station.up && (decide (next.netifDefault = some .station) || decide (next.netifGit.station.addrs.gw ≠ 0))) := rfl
    cases up : next.netifGit.station.up with
    | false =>
      rcases kinds with default | default
      · exact ⟨_,by simp [default],leaves none (by decide) (by simp [isDefault,up])⟩
      · exact ⟨_,by simp [default],leaves none (by decide) (by simp [isDefault,up])⟩
    | true =>
      rcases kinds with default | default
      · by_cases gw : next.netifGit.station.addrs.gw = 0
        · exact ⟨_,by simp [default,gw],leaves none (by decide) (by simp [isDefault,default,gw])⟩
        · exact ⟨_,by simp [default,gw],leaves (some .station) (by decide) (by simp [isDefault,up,gw])⟩
      · exact ⟨_,by simp [default],leaves (some .station) (by decide) (by simp [isDefault,up,default])⟩

theorem told_known (i : Interface) (told : List Netif) (d : Device) :
    (told.foldl (fun d netif => Device.callback i {d with git := netif}) d).known = d.known := by
  induction told generalizing d with
  | nil => rfl
  | cons netif rest ih => exact (ih _).trans (callback_known i _)

@[simp] theorem follow_known (i : Interface) (f : Netif → Course) (d : Device) : (Device.follow i f d).known = d.known :=
  told_known i (f d.git).told d

theorem Puts.told (puts : Puts i s d next) (known : d.known = true) (told : List Netif) :
    ∃ last, told.foldlM (fun s netif => statusCallback i {s with netifGit := s.netifGit.set i netif}) next = some last ∧
      Puts i s (told.foldl (fun d netif => Device.callback i {d with git := netif}) d) last := by
  induction told generalizing next d with
  | nil => exact ⟨next,rfl,puts⟩
  | cons netif rest ih =>
    obtain ⟨middle,called,later⟩ := (puts.git fun _ => netif).callback known
    obtain ⟨last,ran,puts⟩ := ih later ((callback_known i _).trans known)
    refine ⟨last,?_,puts⟩
    rw [List.foldlM_cons]
    exact Option.bind_eq_some_iff.mpr ⟨middle,called,ran⟩

theorem Puts.git_eq (puts : Puts i s d next) : next.netifGit.get i = d.git := by
  rw [←puts.own]
  rfl

theorem Puts.esp_eq (puts : Puts i s d next) : (next.esp.get i).toNetif = d.esp := by
  rw [←puts.own]
  rfl

theorem Puts.follow (puts : Puts i s d next) (known : d.known = true) (f : Netif → Course) :
    ∃ last, follow i f next = some last ∧ Puts i s (Device.follow i f d) last := by
  obtain ⟨middle,ran,told⟩ := puts.told known (f d.git).told
  refine ⟨_,?_,told.git fun _ => (f d.git).left⟩
  unfold Interfaces.follow
  rw [puts.git_eq]
  exact Option.bind_eq_some_iff.mpr ⟨middle,ran,rfl⟩

section Calls
variable (lwip : Lwip)

theorem Puts.up (puts : Puts i s d next) : Puts i s (Device.up lwip d) (esp2glueNetifSetUp1 lwip i next) :=
  puts.git fun netif => {lwip.netifSetLinkUp netif with up := true}

theorem Puts.down (puts : Puts i s d next) (known : d.known = true) (supplied : Bool) :
    ∃ last, netifSetDown lwip i supplied next = some last ∧ Puts i s (Device.down lwip i supplied d) last := by
  have esp := puts.esp fun n => {n with up := false,linkUp := false}
  obtain ⟨released,release,puts⟩ := esp.follow known (lwip.dhcpReleaseAndStop supplied)
  have link := (puts.git fun netif => {netif with addrs := .any}).git lwip.netifSetLinkDown
  obtain ⟨middle,down,puts⟩ := link.follow ((follow_known i _ _).trans known) lwip.netifSetDown
  refine ⟨_,?_,puts.clear⟩
  unfold netifSetDown esp2glueNetifSetDown0
  dsimp only
  rw [esp.netif known]
  refine Option.bind_eq_some_iff.mpr ⟨released,release,Option.bind_eq_some_iff.mpr ⟨middle,down,?_⟩⟩
  exact (apply_ite some _ _ _).symm

theorem Puts.netifSetUp (puts : Puts i s d next) (known : d.known = true) :
    Puts i s (Device.up lwip {d with esp := {d.esp with up := true,linkUp := true}}) (netifSetUp lwip i next) := by
  have esp := puts.esp fun n => {n with up := true,linkUp := true}
  unfold Interfaces.netifSetUp
  dsimp only
  rw [esp.netif known]
  exact esp.up lwip

theorem Puts.update (puts : Puts i s d next) (known : d.known = true) (new : IpInfo) :
    ∃ last, esp2glueNetifUpdate lwip i new d.esp.hwaddr d.esp.mtu next = some last ∧
      Puts i s (Device.update lwip i new d) last := by
  have git := puts.git fun netif => ⟨netif.addrs,decide (new.ip ≠ 0),true,
    if d.esp.hwaddr.length ≠ 0 ∧ d.esp.hwaddr.length ≤ NETIF_MAX_HWADDR_LEN then d.esp.hwaddr else netif.hwaddr,d.esp.mtu⟩
  obtain ⟨last,ran,puts⟩ := git.follow known (lwip.netifSetAddr new)
  exact ⟨_,Option.bind_eq_some_iff.mpr ⟨last,ran,rfl⟩,puts.up lwip⟩

-- The blobs are told an address that they do not have, which comes to telling them.
theorem netifSetAddrOld_eq (num : (s.esp.get i).num = i) (new : IpInfo) :
    netifSetAddrOld lwip i new s = esp2glueNetifUpdate lwip i new (s.esp.get i).hwaddr (s.esp.get i).mtu
      {s with
        esp := (s.esp.update i fun n => {n with addrs := new}).update i fun n => {n with linkUp := decide (new.ip ≠ 0)}
        info := s.info.set i new} := by
  unfold netifSetAddrOld
  by_cases same : s.info.get i = new
  · subst same
    simp [num]
  · simp [num,same]

theorem Puts.assign (puts : Puts i s d next) (known : d.known = true) (new : IpInfo) :
    ∃ last, netifSetAddrOld lwip i new next = some last ∧ Puts i s (Device.assign lwip i new d) last := by
  have addrs := puts.esp fun n => {n with addrs := new}
  have info := addrs.info new
  have link := info.esp fun n => {n with linkUp := decide (new.ip ≠ 0)}
  obtain ⟨last,ran,later⟩ := link.update lwip known new
  refine ⟨last,?_,later⟩
  rw [netifSetAddrOld_eq lwip (puts.netif known) new]
  have settings := puts.esp_eq
  rw [←settings] at ran
  exact ran

theorem Puts.isNew (puts : Puts i s d next) :
    ∃ last, netifIsNew i next = (last,!d.known) ∧ Puts i s {d with known := true} last := by
  obtain ⟨tidy,rfl,others⟩ := puts
  unfold netifIsNew
  dsimp only
  split
  case isTrue slot =>
    refine ⟨_,Prod.ext rfl ?_,⟨tidy.slots,fun j known => ?_,tidy.route⟩,?_,fun j other => (Eq.trans ?_ (others j other))⟩
    · simp [part,slot]
    · by_cases same : j = i
      · simp [same]
      · simpa [Both.update_other _ _ same] using tidy.nums j known
    · simp [part,slot]
    · simp [part,Both.update_other _ _ other]
  case isFalse slot =>
    refine ⟨_,Prod.ext rfl ?_,⟨fun j => ?_,fun j known => ?_,tidy.route⟩,?_,fun j other => (Eq.trans ?_ (others j other))⟩
    · simp [part,slot]
    · by_cases same : j = i
      · simp [same]
      · simpa [Both.set_other _ _ same] using tidy.slots j
    · by_cases same : j = i
      · simp [same]
      · simp only [Both.set_other _ _ same] at known
        simpa [Both.update_other _ _ same] using tidy.nums j known
    · simp [part]
    · simp [part,Both.update_other _ _ other,Both.set_other _ _ other]

theorem Puts.setAddr_known (puts : Puts i s d next) (known : d.known = true) (new : IpInfo) (depth : Nat) :
    ∃ last, Interfaces.netifSetAddr lwip (depth + 1) i new next = some last ∧ Puts i s (Device.assign lwip i new d) last := by
  obtain ⟨middle,asked,puts⟩ := puts.isNew
  have same : {d with known := true} = d := by rw [←known]
  rw [same] at puts
  rw [known] at asked
  obtain ⟨last,ran,puts⟩ := puts.assign lwip known new
  refine ⟨last,?_,puts⟩
  rw [Interfaces.netifSetAddr,asked]
  exact ran

theorem Puts.added (puts : Puts i s d next) (init : NetifInitFn) (setup : Setup) (ok : Bool)
    (given : ∀ n : EspNetif, n.toNetif = {d.esp with addrs := .any,up := false,linkUp := false} → init n = (setup,ok))
    (new : IpInfo) (state : UInt32) (input : InputFn) (depth : Nat) :
    ∃ last, netifAdd lwip (depth + 1) i new state init input next =
        (if ok then (Interfaces.netifSetAddr lwip depth i new last).map fun s => (s,some i) else some (last,none)) ∧
      Puts i s {d with esp := ⟨.any,setup.up,setup.linkUp,setup.hwaddr,setup.mtu⟩,state := state,input := input} last := by
  have cleared := puts.attach (fun n => {n with addrs := .any,up := false,linkUp := false}) (fun _ => state) fun _ => input
  have written := cleared.esp fun n => ⟨n.addrs,setup.up,setup.linkUp,setup.hwaddr,setup.mtu⟩
  refine ⟨_,?_,written⟩
  rw [netifAdd]
  dsimp only
  rw [given _ cleared.esp_eq]

-- A new netif goes through netif_add, and from there to netif_set_addr again.
theorem Puts.setAddr (puts : Puts i s d next) (new : IpInfo) (depth : Nat) :
    ∃ last, Interfaces.netifSetAddr lwip (depth + 3) i new next = some last ∧ Puts i s (Device.setAddr lwip i new d) last := by
  unfold Device.setAddr
  by_cases known : d.known = true
  · rw [if_pos known]
    exact puts.setAddr_known lwip known new (depth + 2)
  · rw [if_neg known]
    obtain ⟨middle,asked,puts⟩ := puts.isNew
    rw [Bool.eq_false_iff.mpr known] at asked
    have state : (middle.esp.get i).state = d.state := congrArg Device.state puts.own
    obtain ⟨one,added,puts⟩ := puts.added lwip voidinit ⟨false,false,d.esp.hwaddr,d.esp.mtu⟩ true
      (fun n same => by simp [voidinit,same]) new d.state .ethernetInput (depth + 1)
    obtain ⟨last,ran,puts⟩ := puts.setAddr_known lwip rfl new depth
    refine ⟨last,?_,puts⟩
    rw [Interfaces.netifSetAddr,asked]
    simp only [Bool.not_false,if_true,state,added,ran,Option.map_some]

theorem Puts.add (puts : Puts i s d next) (new : IpInfo) (state : UInt32) (setup : Setup) (ok : Bool) (input : InputFn)
    (depth : Nat) :
    ∃ last, netifAdd lwip (depth + 4) i new state (fun _ => (setup,ok)) input next =
        some (last,(Device.add lwip i new state setup ok input d).2) ∧
      Puts i s (Device.add lwip i new state setup ok input d).1 last := by
  obtain ⟨middle,added,puts⟩ := puts.added lwip (fun _ => (setup,ok)) setup ok (fun _ _ => rfl) new state input (depth + 3)
  cases ok with
  | false => exact ⟨middle,added,puts⟩
  | true =>
    obtain ⟨last,ran,puts⟩ := puts.setAddr lwip new depth
    refine ⟨last,?_,puts⟩
    rw [added,if_pos rfl,ran]
    rfl

theorem Puts.dhcpStart (puts : Puts i s d next) (known : d.known = true) :
    ∃ last, Interfaces.dhcpStart lwip i next = some (last,(Device.dhcpStart lwip i d).2) ∧
      Puts i s (Device.dhcpStart lwip i d).1 last := by
  have link := (puts.esp fun n => {n with linkUp := true}).git lwip.netifSetLinkUp
  obtain ⟨middle,ran,later⟩ := link.follow known lwip.netifSetUp
  refine ⟨_,?_,later.git fun netif => (lwip.dhcpStart netif).1⟩
  unfold Interfaces.dhcpStart esp2glueDhcpStart
  dsimp only
  rw [(puts.esp fun n => {n with linkUp := true}).netif known]
  refine Option.bind_eq_some_iff.mpr ⟨_,Option.bind_eq_some_iff.mpr ⟨middle,ran,rfl⟩,?_⟩
  exact congrArg (fun netif => some
    ({middle with netifGit := middle.netifGit.update i fun netif => (lwip.dhcpStart netif).1},
      glue2espErr (git2glueErr (lwip.dhcpStart netif).2))) later.git_eq

theorem Puts.dhcpsStart (puts : Puts .softap s d next) (info : IpInfo) :
    Puts .softap s (Device.dhcpsStart lwip info d) (Interfaces.dhcpsStart lwip info next) := by
  have served {middle : AllStacks} {d : Device} (puts : Puts .softap s d middle) :
      Puts .softap s {d with info := info,git := {d.git with up := true,linkUp := true}} (esp2glueDhcpsStart info middle) :=
    (puts.info info).git fun netif => {netif with up := true,linkUp := true}
  have asked : d.known = decide (next.netifEsp.softap = some .softap) := congrArg Device.known puts.own.symm
  unfold Device.dhcpsStart Interfaces.dhcpsStart
  rcases puts.tidy.slots .softap with slot | slot
  · have slot : next.netifEsp.softap = none := slot
    rw [asked,slot]
    exact served puts
  · have slot : next.netifEsp.softap = some .softap := slot
    have known : d.known = true := by simp [asked,slot]
    rw [slot,if_pos known]
    dsimp only
    rw [puts.netif known]
    exact served (puts.up lwip)

theorem Puts.netifSetDefault (puts : Puts i s d next) (netif : Interface) : Puts i s d (Interfaces.netifSetDefault netif next) :=
  ⟨⟨puts.tidy.slots,puts.tidy.nums,puts.tidy.route⟩,puts.own,puts.others⟩

theorem Puts.apart {call : Call} {answer : Answer} (taken : perform lwip s call = some (next,answer))
    (puts : Puts call.netif s d next) (own : Device.perform lwip (part call.netif s) call = (d,answer)) :
    ∃ next answer, Apart Call.netif (perform lwip) (Device.perform lwip) part Tidy s call next answer :=
  ⟨next,answer,taken,puts.tidy,own.trans (by rw [puts.own]),puts.others⟩

-- What one call does is what it does to its own interface.
theorem call_apart (tidy : Tidy s) (call : Call) (allowed : Allowed (part call.netif s) call) :
    ∃ next answer, Apart Call.netif (perform lwip) (Device.perform lwip) part Tidy s call next answer := by
  have puts {i : Interface} : Puts i s (part i s) s := .same tidy
  cases call with
  | netifAdd netif new state setup ok input =>
    obtain ⟨last,ran,later⟩ := puts.add lwip new state setup ok input 0
    exact Puts.apart lwip (congrArg (Option.map _) ran) later rfl
  | netifSetAddr netif new =>
    obtain ⟨last,ran,later⟩ := puts.setAddr lwip new 0
    exact Puts.apart lwip (congrArg quietly ran) later rfl
  | netifSetUp netif =>
    have known := allowed.late rfl
    exact Puts.apart lwip rfl (puts.netifSetUp lwip known) rfl
  | netifSetDown netif supplied | netifRemove netif supplied =>
    have known := allowed.late rfl
    obtain ⟨last,ran,later⟩ := puts.down lwip known supplied
    exact Puts.apart lwip (congrArg quietly ran) later rfl
  | netifSetDefault netif => exact Puts.apart lwip rfl (puts.netifSetDefault netif) rfl
  | dhcpStart netif =>
    have known := allowed.late rfl
    obtain ⟨last,ran,later⟩ := puts.dhcpStart lwip known
    exact Puts.apart lwip (congrArg (Option.map _) ran) later rfl
  | dhcpStop netif supplied =>
    have known := allowed.late rfl
    obtain ⟨last,ran,later⟩ := puts.follow known (lwip.dhcpStop supplied)
    rw [←puts.netif known] at ran
    exact Puts.apart lwip (congrArg quietly ran) later rfl
  | dhcpsStart info => exact Puts.apart lwip rfl (Puts.dhcpsStart lwip puts info) rfl
  | lease netif new =>
    have known := allowed.late rfl
    obtain ⟨last,ran,later⟩ := puts.follow known (lwip.netifSetAddr new)
    exact Puts.apart lwip (congrArg quietly ran) later rfl

end Calls

end Parts
end NonosLinkLayer.Interfaces
