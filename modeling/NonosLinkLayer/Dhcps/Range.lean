import NonosLinkLayer.Dhcps.Updates

namespace NonosLinkLayer.Dhcps
open LeadingRun

-- In the range of the server, which is one of addresses in host order, and not
-- its own address.
def InRange (lease : DhcpsLease) (serverAddress addr : UInt32) : Prop :=
  ntohl lease.startIp ≤ ntohl addr ∧ ntohl addr ≤ ntohl lease.endIp ∧ addr ≠ serverAddress

def Ranged (serverAddress : UInt32) (s : Server) : Prop := ∀ p ∈ s.plist, InRange s.dhcpsLease serverAddress p.ip

def returned (s : Server) : Event → UInt32
  | .update bssid ip => (wifiSoftapDhcpsClientUpdate s bssid ip).2
  | _ => ipaddrAny

def AllRanged (serverAddress : UInt32) : Server → List Event → Prop
  | s,[] => Ranged serverAddress s
  | s,event :: rest => Ranged serverAddress s ∧
    (returned s event ≠ ipaddrAny → InRange s.dhcpsLease serverAddress (returned s event)) ∧
    ∃ next, perform s event = some next ∧ AllRanged serverAddress next rest

-- Where the list stops to hold start_ip, start_ip+1, and so on, or comes to the
-- node of the client, the address that is due there and can be given is in the range.
def SearchRanged (serverAddress : UInt32) (s : Server) (mac : Mac) : Prop :=
  ∀ n, Leads nextIp DhcpsPool.ip (fun p => p.mac == mac) s.dhcpsLease.startIp s.plist n →
    (∃ p ∈ s.plist, p.mac = mac) ∨ nextIp^[n] s.dhcpsLease.startIp ≤ s.dhcpsLease.endIp →
    InRange s.dhcpsLease serverAddress (nextIp^[n] s.dhcpsLease.startIp)

-- The events that lease nothing outside of the range. An address asked for that
-- no node has is given to a client with a node, and to others up to end_ip, as
-- the CPU compares raw words.
def Inner (serverAddress : UInt32) (s : Server) : Event → Prop
  | .update (some mac) ip =>
    (ip = none ∨ ip = some ipaddrAny → SearchRanged serverAddress s mac) ∧
    ∀ addr, ip = some addr → Wish addr → (∀ p ∈ s.plist, p.ip ≠ addr) →
      (∃ p ∈ s.plist, p.mac = mac) ∨ addr ≤ s.dhcpsLease.endIp → InRange s.dhcpsLease serverAddress addr
  | .add macaddr => Unknown s macaddr → nextIp^[s.plist.length] s.dhcpsLease.startIp ≤ s.dhcpsLease.endIp →
      InRange s.dhcpsLease serverAddress (nextIp^[s.plist.length] s.dhcpsLease.startIp)
  | _ => True

def AllInner (serverAddress : UInt32) : Server → List Event → Prop
  | _,[] => True
  | s,event :: rest => Inner serverAddress s event ∧ ∀ next, perform s event = some next → AllInner serverAddress next rest

section Range
variable {s next : Server} {mac : Mac} {server addr : UInt32} {p q : DhcpsPool} {l : List DhcpsPool}
  {P : DhcpsPool → Prop}

theorem searchRanged_free : SearchRanged server s mac ↔
    ((∃ p ∈ s.plist, p.mac = mac) ∨ freeIp s mac ≤ s.dhcpsLease.endIp →
      InRange s.dhcpsLease server (freeIp s mac)) :=
  forall_leads (P:=fun addr => (∃ p ∈ s.plist, p.mac = mac) ∨ addr ≤ s.dhcpsLease.endIp →
    InRange s.dhcpsLease server addr)

theorem insert_all (node : DhcpsPool) (l : List DhcpsPool) :
    (∀ p ∈ nodeInsertToList node l, P p) ↔ P node ∧ ∀ p ∈ l, P p := by
  rw [←List.forall_mem_cons]
  exact ⟨fun all p member => all p ((insert_perm node l).mem_iff.mpr member),
    fun all p member => all p ((insert_perm node l).mem_iff.mp member)⟩

theorem remove_all (all : ∀ p ∈ l, P p) (i : Nat) : ∀ p ∈ nodeRemoveFromList l i, P p :=
  fun p member => all p ((List.eraseIdx_sublist ..).subset member)

theorem set_all (all : ∀ p ∈ l, P p) (node : DhcpsPool) (holds : P node) (j : Nat) : ∀ p ∈ l.set j node, P p := by
  intro p member
  rcases List.mem_or_eq_of_mem_set member with old | new
  · exact all p old
  · rw [new]
    exact holds

theorem Holder.ranged (ranged : Ranged server s) (holder : Holder s addr j q) : InRange s.dhcpsLease server addr := by
  rw [←holder.held]
  exact ranged q holder.member

theorem inner_any : Inner server s (.update (some mac) (some ipaddrAny)) ↔
    ((∃ p ∈ s.plist, p.mac = mac) ∨ freeIp s mac ≤ s.dhcpsLease.endIp → InRange s.dhcpsLease server (freeIp s mac)) := by
  rw [←searchRanged_free]
  constructor
  · exact fun inner => inner.1 (.inr rfl)
  · exact fun search => ⟨fun _ => search,fun addr same wish => absurd (Option.some.inj same).symm wish.1⟩

theorem inner_wish (wish : Wish addr) : Inner server s (.update (some mac) (some addr)) ↔
    ((∀ p ∈ s.plist, p.ip ≠ addr) → (∃ p ∈ s.plist, p.mac = mac) ∨ addr ≤ s.dhcpsLease.endIp →
      InRange s.dhcpsLease server addr) := by
  constructor
  · exact fun inner => inner.2 addr rfl wish
  · refine fun asked => ⟨?_,fun addr' same _ => by cases same; exact asked⟩
    rintro (none | any)
    · cases none
    · exact absurd (Option.some.inj any) wish.1

theorem Updated.ranged (ranged : Ranged server s) (updated : Updated s mac addr plist got renew) :
    (∀ p ∈ plist, InRange s.dhcpsLease server p.ip) ↔ Inner server s (.update (some mac) (some addr)) := by
  have held : ∀ {j q}, Wish addr → Holder s addr j q → Inner server s (.update (some mac) (some addr)) :=
    fun wish holder => (inner_wish wish).mpr fun unused => absurd holder.held (unused _ holder.member)
  have here : ∀ p ∈ s.plist, InRange s.dhcpsLease server p.ip := ranged
  cases updated with
  | broadcast =>
    refine iff_of_true ranged ⟨?_,fun addr same wish => absurd (Option.some.inj same).symm wish.2⟩
    rintro (none | any)
    · cases none
    · exact absurd (Option.some.inj any) (by decide)
  | full unknown beyond =>
    refine iff_of_true ranged (inner_any.mpr ?_)
    rintro (⟨p,member,mine⟩ | fits)
    · exact absurd mine (unknown p member)
    · exact absurd fits (UInt32.not_le.mpr beyond)
  | @moved i p here mine =>
    rw [insert_all,and_iff_left (remove_all ranged i),inner_any]
    exact ⟨fun inside _ => inside,fun search => search (.inl ⟨p,List.mem_of_getElem? here,mine⟩)⟩
  | opened unknown fits =>
    rw [insert_all,and_iff_left here,inner_any]
    exact ⟨fun inside _ => inside,fun search => search (.inr fits)⟩
  | taken wish holder other online => exact iff_of_true ranged (held wish holder)
  | beyond wish unused unknown beyond =>
    refine iff_of_true ranged ((inner_wish wish).mpr fun _ => ?_)
    rintro (⟨p,member,mine⟩ | fits)
    · exact absurd mine (unknown p member)
    · exact absurd fits (UInt32.not_le.mpr beyond)
  | renewed wish holder mine =>
    exact iff_of_true (set_all ranged _ (holder.ranged ranged) _) (held wish holder)
  | takenOver wish here mine holder other offline =>
    exact iff_of_true (remove_all (set_all ranged _ (holder.ranged ranged) _) _) (held wish holder)
  | inherited wish unknown holder offline =>
    exact iff_of_true (set_all ranged _ (holder.ranged ranged) _) (held wish holder)
  | @movedTo addr i p wish unused here mine =>
    rw [insert_all,and_iff_left (remove_all ranged i),inner_wish wish]
    exact ⟨fun inside _ _ => inside,fun asked => asked unused (.inl ⟨p,List.mem_of_getElem? here,mine⟩)⟩
  | openedAt wish unused unknown fits =>
    rw [insert_all,and_iff_left here,inner_wish wish]
    exact ⟨fun inside _ _ => inside,fun asked => asked unused (.inr fits)⟩

theorem owners_ranged {lease : DhcpsLease} {l' : List DhcpsPool} (fewer : (owners l').Sublist (owners l))
    (ranged : ∀ p ∈ l, InRange lease server p.ip) : ∀ p ∈ l', InRange lease server p.ip := by
  intro p member
  have owner : (p.ip,p.mac) ∈ owners l := fewer.subset (List.mem_map_of_mem member)
  obtain ⟨q,inside,same⟩ := List.mem_map.mp owner
  rw [show p.ip = q.ip from (congrArg Prod.fst same).symm]
  exact ranged q inside

theorem update_ranged (single : Single s) (ranged : Ranged server s) (bssid : Option Mac) (ip : Option UInt32) :
    Ranged server (wifiSoftapDhcpsClientUpdate s bssid ip).1 ↔ Inner server s (.update bssid ip) := by
  cases bssid with
  | none => exact iff_of_true ranged trivial
  | some mac =>
    have asked : ∀ addr, Ranged server (wifiSoftapDhcpsClientUpdate s (some mac) (some addr)).1 ↔
        Inner server s (.update (some mac) (some addr)) := by
      intro addr
      obtain ⟨plist,got,renew,ran,updated⟩ := update_updated single mac addr
      rw [ran]
      exact updated.ranged ranged
    cases ip with
    | some addr => exact asked addr
    | none =>
      rw [update_none,asked ipaddrAny,inner_any,←searchRanged_free]
      exact ⟨fun search => ⟨fun _ => search,fun addr none => nomatch none⟩,fun inner => inner.1 (.inl rfl)⟩

theorem add_ranged (ranged : Ranged server s) (macaddr : Mac) :
    Ranged server (wifiSoftapAddDhcpsLease s macaddr).1 ↔ Inner server s (.add macaddr) := by
  have here : ∀ p ∈ s.plist, InRange s.dhcpsLease server p.ip := ranged
  unfold wifiSoftapAddDhcpsLease
  rcases addLoop_counts macaddr s.plist s.dhcpsLease.startIp with ⟨unknown,counted⟩ | ⟨known,none⟩
  · rw [counted]
    dsimp only
    by_cases beyond : nextIp^[s.plist.length] s.dhcpsLease.startIp > s.dhcpsLease.endIp
    · rw [if_pos beyond]
      exact iff_of_true ranged fun _ fits => absurd fits (UInt32.not_le.mpr beyond)
    · rw [if_neg beyond]
      unfold Ranged
      rw [insert_all,and_iff_left here]
      exact ⟨fun inside _ _ => inside,fun inner => inner unknown (UInt32.not_lt.mp beyond)⟩
  · rw [none]
    exact iff_of_true ranged fun unknown => absurd unknown known

theorem update_returned (single : Single s) (bssid : Option Mac) (ip : Option UInt32)
    (ranged : Ranged server (wifiSoftapDhcpsClientUpdate s bssid ip).1)
    (given : (wifiSoftapDhcpsClientUpdate s bssid ip).2 ≠ ipaddrAny) :
    InRange s.dhcpsLease server (wifiSoftapDhcpsClientUpdate s bssid ip).2 := by
  cases bssid with
  | none => exact absurd rfl given
  | some mac =>
    have shown : wifiSoftapDhcpsClientUpdate s (some mac) ip =
        wifiSoftapDhcpsClientUpdate s (some mac) (some (ip.getD ipaddrAny)) := by
      cases ip <;> rfl
    rw [shown] at ranged given ⊢
    obtain ⟨plist,got,renew,ran,updated⟩ := update_updated single mac (ip.getD ipaddrAny)
    rw [ran] at ranged given ⊢
    obtain ⟨p,member,_,held,_⟩ := updated.leased given
    rw [←held]
    exact ranged p member

-- One event leaves every client one node, and its leases in the range exactly
-- when it is an inner one. Then the address it returns is in the range too.
theorem step_ranged (single : Single s) (ranged : Ranged server s) (event : Event) :
    ∃ next, perform s event = some next ∧ Single next ∧ (Ranged server next ↔ Inner server s event) ∧
      (Ranged server next → returned s event ≠ ipaddrAny → InRange s.dhcpsLease server (returned s event)) := by
  cases event with
  | update bssid ip =>
    exact ⟨_,rfl,step_single single (.update bssid ip) rfl,update_ranged single ranged bssid ip,update_returned single bssid ip⟩
  | leave bssid ip force =>
    refine ⟨_,rfl,step_single single (.leave bssid ip force) rfl,iff_of_true ?_ trivial,fun _ given => absurd rfl given⟩
    unfold wifiSoftapDhcpsClientLeave
    split
    · exact owners_ranged (leave_owners ..) ranged
    · exact ranged
  | add macaddr =>
    exact ⟨_,rfl,step_single single (.add macaddr) rfl,add_ranged ranged macaddr,fun _ given => absurd rfl given⟩
  | timer =>
    obtain ⟨plist,ran,fewer⟩ := timer_owners s
    refine ⟨_,ran,step_single single .timer ran,iff_of_true ?_ trivial,fun _ given => absurd rfl given⟩
    exact owners_ranged fewer ranged

theorem AllRanged.here (all : AllRanged server s events) : Ranged server s := by
  cases events with
  | nil => exact all
  | cons event rest => exact all.1

theorem run_ranged (single : Single s) (ranged : Ranged server s) (events : List Event) :
    AllRanged server s events ↔ AllInner server s events := by
  induction events generalizing s with
  | nil => exact iff_of_true ranged trivial
  | cons event rest ih =>
    obtain ⟨next,ran,single',inner,got⟩ := step_ranged single ranged event
    constructor
    · rintro ⟨_,_,next',ran',later⟩
      cases ran.symm.trans ran'
      refine ⟨inner.mp later.here,fun next' ran' => ?_⟩
      cases ran.symm.trans ran'
      exact (ih single' later.here).mp later
    · rintro ⟨inside,later⟩
      have ranged' := inner.mpr inside
      exact ⟨ranged,got ranged',next,ran,(ih single' ranged').mpr (later next ran)⟩

end Range

-- The leases, and the addresses returned, are in the range exactly as long as
-- every event is an inner one.
theorem leases_ranged (lease : DhcpsLease) (ip leaseTime : UInt32) (events : List Event) :
    AllRanged ip (started lease ip leaseTime) events ↔ AllInner ip (started lease ip leaseTime) events := by
  have single : Single (started lease ip leaseTime) := List.nodup_nil
  have ranged : Ranged ip (started lease ip leaseTime) := fun p member => nomatch member
  exact run_ranged single ranged events

-- The laptop shows the address of the access point, which sorts before end_ip,
-- and the phone, once it has a lease, one in another network.
def ownAddress : List Event := [.update laptop (some 0x0104a8c0)]
def elsewhere : List Event := [.update phone none,.update phone (some 0x0100000a)]

theorem address_out_of_range : ¬ AllRanged 0x0104a8c0 accessPoint ownAddress ∧ ¬ AllRanged 0x0104a8c0 accessPoint elsewhere := by
  constructor
  · rintro ⟨_,_,next,ran,ranged⟩
    cases ran
    have leased := ranged ⟨0x0104a8c0,laptop,120,.static,.online⟩ (by decide)
    exact leased.2.2 rfl
  · rintro ⟨_,_,s,first,_,_,next,second,ranged⟩
    cases first
    cases second
    have leased := ranged ⟨0x0100000a,phone,120,.static,.online⟩ (by decide)
    exact absurd leased.1 (by decide)

end NonosLinkLayer.Dhcps
