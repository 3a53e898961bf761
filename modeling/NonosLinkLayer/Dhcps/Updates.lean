import NonosLinkLayer.Dhcps.Leases

namespace NonosLinkLayer.Dhcps

-- The states the server gets into, whatever its settings are in between.
inductive Reached : Server → Prop where
  | empty (lease : DhcpsLease) (renew : Bool) (leaseTime : UInt32) : Reached ⟨lease,[],renew,leaseTime⟩
  | settings (reached : Reached s) (lease : DhcpsLease) (renew : Bool) (leaseTime : UInt32) :
      Reached ⟨lease,s.plist,renew,leaseTime⟩
  | step (reached : Reached s) (ran : perform s event = some next) : Reached next

theorem started_reached (lease : DhcpsLease) (ip leaseTime : UInt32) : Reached (started lease ip leaseTime) := .empty _ _ _

theorem Reached.update (reached : Reached s) (bssid : Option Mac) (ip : Option UInt32) :
    Reached (wifiSoftapDhcpsClientUpdate s bssid ip).1 := by
  have ran : perform s (.update bssid ip) = some (wifiSoftapDhcpsClientUpdate s bssid ip).1 := rfl
  exact .step reached ran

-- What an event can do to the list: an assignment, a new node at its place, or
-- changes that leave to who is in it the same address, less the nodes that go.
inductive Changed (s : Server) : List DhcpsPool → Prop where
  | fewer (fewer : (owners plist).Sublist (owners s.plist)) : Changed s plist
  | assigned (assigned : Assigned s bssid ip type plist addr renew) : Changed s plist
  | added (node : DhcpsPool) (unknown : Unknown s node.mac) : Changed s (nodeInsertToList node s.plist)

theorem assign_changed (s : Server) (bssid : Mac) (ip : Option UInt32) (type : DhcpsType) :
    Changed s (assignIp s bssid ip type).1.plist := by
  obtain ⟨plist,addr,renew,ran,assigned⟩ := assignIp_outcome s bssid ip type
  rw [ran]
  exact .assigned assigned

theorem update_changed (s : Server) (bssid : Option Mac) (ip : Option UInt32) :
    Changed s (wifiSoftapDhcpsClientUpdate s bssid ip).1.plist := by
  unfold wifiSoftapDhcpsClientUpdate
  cases bssid with
  | none => exact .fewer (List.Sublist.refl _)
  | some bssid =>
    cases ip with
    | none => exact assign_changed s bssid none .dynamic
    | some ip =>
      dsimp only
      split_ifs
      · exact .fewer (List.Sublist.refl _)
      · exact assign_changed s bssid none .dynamic
      · exact assign_changed s bssid (some ip) .static

theorem step_changed (event : Event) (ran : perform s event = some next) : Changed s next.plist := by
  cases event with
  | update bssid ip =>
    cases ran
    exact update_changed s bssid ip
  | leave bssid ip force =>
    cases ran
    unfold wifiSoftapDhcpsClientLeave
    split
    · exact .fewer (leave_owners ..)
    · exact .fewer (List.Sublist.refl _)
  | add macaddr =>
    cases ran
    unfold wifiSoftapAddDhcpsLease
    rcases addLoop_counts macaddr s.plist s.dhcpsLease.startIp with ⟨unknown,counted⟩ | ⟨_,none⟩
    · rw [counted]
      dsimp only
      split_ifs
      · exact .fewer (List.Sublist.refl _)
      · exact .added _ unknown
    · rw [none]
      exact .fewer (List.Sublist.refl _)
  | timer =>
    obtain ⟨plist,went,fewer⟩ := timer_owners s
    cases went.symm.trans ran
    exact .fewer fewer

theorem step_single (single : Single s) (event : Event) (ran : perform s event = some next) : Single next := by
  have changed := step_changed event ran
  unfold Single at single ⊢
  generalize next.plist = plist at changed ⊢
  cases changed with
  | fewer fewer => exact owners_single fewer single
  | assigned assigned => exact assigned.single single
  | added node unknown =>
    exact ((insert_perm _ _).map DhcpsPool.mac).nodup_iff.mpr (List.nodup_cons.mpr ⟨not_mem_macs.mpr unknown,single⟩)

theorem Reached.single (reached : Reached s) : Single s := by
  induction reached with
  | empty => exact List.nodup_nil
  | settings _ _ _ _ ih => exact ih
  | step _ ran ih => exact step_single ih _ ran

-- The last node that has an address, which is the one the search remembers.
structure Holder (s : Server) (addr : UInt32) (j : Nat) (q : DhcpsPool) : Prop where
  there : s.plist[j]? = some q
  held : q.ip = addr
  last : ∀ k p, j < k → s.plist[k]? = some p → p.ip ≠ addr

def Wish (addr : UInt32) : Prop := addr ≠ ipaddrAny ∧ addr ≠ ipaddrBroadcast

-- What wifi_softap_dhcps_client_update comes to for a client that shows an
-- address: the list it leaves, the address it returns and the renew flag.
inductive Updated (s : Server) (mac : Mac) : UInt32 → List DhcpsPool → UInt32 → Bool → Prop where
  | broadcast : Updated s mac ipaddrBroadcast s.plist ipaddrAny s.renew
  | full (unknown : Unknown s mac) (beyond : s.dhcpsLease.endIp < freeIp s mac) :
      Updated s mac ipaddrAny s.plist ipaddrAny false
  | moved (here : s.plist[i]? = some p) (mine : p.mac = mac) :
      Updated s mac ipaddrAny
        (nodeInsertToList ⟨freeIp s mac,mac,s.dhcpsLeaseTime,.dynamic,.online⟩ (nodeRemoveFromList s.plist i))
        (freeIp s mac) false
  | opened (unknown : Unknown s mac) (fits : freeIp s mac ≤ s.dhcpsLease.endIp) :
      Updated s mac ipaddrAny (nodeInsertToList ⟨freeIp s mac,mac,s.dhcpsLeaseTime,.dynamic,.online⟩ s.plist)
        (freeIp s mac) false
  | taken (wish : Wish addr) (holder : Holder s addr j q) (other : q.mac ≠ mac) (online : q.state = .online) :
      Updated s mac addr s.plist ipaddrAny false
  | beyond (wish : Wish addr) (unused : ∀ p ∈ s.plist, p.ip ≠ addr) (unknown : Unknown s mac)
      (beyond : s.dhcpsLease.endIp < addr) : Updated s mac addr s.plist ipaddrAny false
  | renewed (wish : Wish addr) (holder : Holder s addr j q) (mine : q.mac = mac) :
      Updated s mac addr (s.plist.set j ⟨addr,mac,s.dhcpsLeaseTime,.dynamic,.online⟩) addr true
  | takenOver (wish : Wish addr) (here : s.plist[i]? = some p) (mine : p.mac = mac) (holder : Holder s addr j q)
      (other : q.mac ≠ mac) (offline : q.state = .offline) :
      Updated s mac addr
        (nodeRemoveFromList (s.plist.set j ⟨addr,mac,s.dhcpsLeaseTime,.static,.online⟩) i) addr false
  | inherited (wish : Wish addr) (unknown : Unknown s mac) (holder : Holder s addr j q) (offline : q.state = .offline) :
      Updated s mac addr (s.plist.set j ⟨addr,mac,s.dhcpsLeaseTime,.static,.online⟩) addr false
  | movedTo (wish : Wish addr) (unused : ∀ p ∈ s.plist, p.ip ≠ addr) (here : s.plist[i]? = some p) (mine : p.mac = mac) :
      Updated s mac addr
        (nodeInsertToList ⟨addr,mac,s.dhcpsLeaseTime,.static,.online⟩ (nodeRemoveFromList s.plist i)) addr false
  | openedAt (wish : Wish addr) (unused : ∀ p ∈ s.plist, p.ip ≠ addr) (unknown : Unknown s mac)
      (fits : addr ≤ s.dhcpsLease.endIp) :
      Updated s mac addr (nodeInsertToList ⟨addr,mac,s.dhcpsLeaseTime,.static,.online⟩ s.plist) addr false

-- The node of another client that is offline and has the address that is asked for, the last of those that have it.
structure Displaced (s : Server) (mac : Mac) (addr : UInt32) (p : DhcpsPool) : Prop where
  wish : Wish addr
  holder : ∃ j, Holder s addr j p
  other : p.mac ≠ mac
  offline : p.state = .offline

inductive Refused (s : Server) (mac : Mac) : UInt32 → Prop where
  | broadcast : Refused s mac ipaddrBroadcast
  | full (unknown : Unknown s mac) (beyond : s.dhcpsLease.endIp < freeIp s mac) : Refused s mac ipaddrAny
  | taken (wish : Wish addr) (holder : Holder s addr j q) (other : q.mac ≠ mac) (online : q.state = .online) :
      Refused s mac addr
  | beyond (wish : Wish addr) (unused : ∀ p ∈ s.plist, p.ip ≠ addr) (unknown : Unknown s mac)
      (beyond : s.dhcpsLease.endIp < addr) : Refused s mac addr

structure Given (s : Server) (mac : Mac) (addr : UInt32) (plist : List DhcpsPool) (got : UInt32) (node : DhcpsPool) :
    Prop where
  granted : ¬ Refused s mac addr
  due : addr = ipaddrAny → got = freeIp s mac
  asked : addr ≠ ipaddrAny → got = addr
  mine : node.mac = mac
  ip : node.ip = got
  online : node.state = .online
  members : ∀ p, p ∈ plist ↔ p = node ∨ p ∈ s.plist ∧ p.mac ≠ mac ∧ ¬ Displaced s mac addr p

def Latest (wanted : DhcpsPool → Prop) (seen : List DhcpsPool) : Option Nat → Prop
  | none => ∀ p ∈ seen, ¬ wanted p
  | some i => ∃ p, seen[i]? = some p ∧ wanted p ∧ ∀ k q, i < k → seen[k]? = some q → ¬ wanted q

section Latest
variable {wanted : DhcpsPool → Prop} {seen : List DhcpsPool} {node : Option Nat} {p : DhcpsPool}

theorem Latest.skip (latest : Latest wanted seen node) (no : ¬ wanted p) : Latest wanted (seen ++ [p]) node := by
  cases node with
  | none =>
    intro q member
    rcases List.mem_append.mp member with old | new
    · exact latest q old
    · cases List.mem_singleton.mp new
      exact no
  | some i =>
    obtain ⟨q,here,yes,later⟩ := latest
    refine ⟨q,List.getElem?_append_left (List.getElem?_eq_some_iff.mp here).1 ▸ here,yes,?_⟩
    intro k x behind there
    by_cases old : k < seen.length
    · rw [List.getElem?_append_left old] at there
      exact later k x behind there
    · rw [List.getElem?_append_right (by omega)] at there
      cases List.mem_singleton.mp (List.mem_of_getElem? there)
      exact no

theorem Latest.hit (yes : wanted p) : Latest wanted (seen ++ [p]) (some seen.length) := by
  refine ⟨p,by simp,yes,fun k q behind there => ?_⟩
  rw [List.getElem?_eq_none (by rw [List.length_append,List.length_singleton]; omega)] at there
  cases there

theorem updateLoop_latest (bssid : Mac) (addr : UInt32) (seen rest : List DhcpsPool) {l : Search}
    (latest : Latest (·.ip = addr) seen l.pipNode) :
    Latest (·.ip = addr) (seen ++ rest) (updateLoop bssid (some addr) seen.length rest l).pipNode := by
  induction rest generalizing seen l with
  | nil => simpa [updateLoop] using latest
  | cons p rest ih =>
    unfold updateLoop
    rw [if_neg fun both => by cases both.2]
    have onward := @ih (seen ++ [p]) (l.turn bssid (some addr) seen.length p) ?_
    · simpa using onward
    · rw [turn_pip]
      split_ifs with hit
      · exact .hit (Option.some.inj hit).symm
      · exact latest.skip fun same => hit (by rw [same])

end Latest

section Updated
variable {s : Server} {mac : Mac} {addr : UInt32} {p q : DhcpsPool} {i j : Nat}

theorem Latest.unused {node : Option Nat} (latest : Latest (·.ip = addr) s.plist node) (missing : nodeAt s.plist node = none) :
    ∀ p ∈ s.plist, p.ip ≠ addr := by
  cases node with
  | none => exact latest
  | some j =>
    obtain ⟨q,there,_⟩ := latest
    simp [nodeAt,there] at missing

theorem Latest.holder {node : Option Nat} (latest : Latest (·.ip = addr) s.plist node)
    (found : nodeAt s.plist node = some (j,q)) : Holder s addr j q := by
  cases node with
  | none => simp [nodeAt] at found
  | some k =>
    obtain ⟨p,there,held,last⟩ := latest
    simp only [nodeAt,Option.bind_some,there,Option.map_some,Option.some.injEq,Prod.mk.injEq] at found
    obtain ⟨same,node⟩ := found
    subst same node
    exact ⟨there,held,last⟩

theorem single_place (single : Single s) (here : s.plist[i]? = some p) (there : s.plist[j]? = some q)
    (same : q.mac = p.mac) : j = i := by
  have left : (s.plist.map DhcpsPool.mac)[i]? = some p.mac := by rw [List.getElem?_map,here]; rfl
  have right : (s.plist.map DhcpsPool.mac)[j]? = some p.mac := by rw [List.getElem?_map,there]; exact congrArg some same
  exact (List.getElem?_inj (List.getElem?_eq_some_iff.mp right).1 single).mp (right.trans left.symm)

theorem search_updated (s : Server) (mac : Mac) :
    ∃ plist addr renew, assignIp s mac none .dynamic = ({s with plist := plist,renew := renew},addr) ∧
      Updated s mac ipaddrAny plist addr renew := by
  obtain ⟨plist,addr,renew,ran,assigned⟩ := assignIp_outcome s mac none .dynamic
  refine ⟨plist,addr,renew,ran,?_⟩
  cases assigned with
  | refused why => exact .full (why rfl).1 (why rfl).2
  | renewed here mine own => cases own
  | takenOver here mine there own other offline => cases own
  | @moved i p addr here mine chosen =>
    cases chosen
    subst mine
    exact .moved here rfl
  | inherited unknown there own offline => cases own
  | opened unknown chosen fits =>
    cases chosen
    exact .opened unknown fits

theorem asked_updated (single : Single s) (wish : Wish addr) :
    ∃ plist got renew, assignIp s mac (some addr) .static = ({s with plist := plist,renew := renew},got) ∧
      Updated s mac addr plist got renew := by
  obtain ⟨known,_⟩ := updateLoop_remembers mac (some addr) [] s.plist
    (l:=⟨none,none,false,s.dhcpsLease.startIp⟩) (by simp [Remembers]) (by simp [Remembers])
  have latest := updateLoop_latest mac addr [] s.plist (l:=⟨none,none,false,s.dhcpsLease.startIp⟩) (by simp [Latest])
  simp only [List.nil_append,List.length_nil] at known latest
  unfold assignIp
  dsimp only
  generalize updateLoop mac (some addr) 0 s.plist ⟨none,none,false,s.dhcpsLease.startIp⟩ = l at known latest ⊢
  rw [if_neg fun both => by cases both.1]
  simp only [Option.getD_some]
  cases mine : nodeAt s.plist l.pmacNode with
  | some x =>
    obtain ⟨i,p⟩ := x
    obtain ⟨here,isMac⟩ := known.nodeAt_some mine
    cases held : nodeAt s.plist l.pipNode with
    | some y =>
      obtain ⟨j,q⟩ := y
      have holds := latest.holder held
      have isIp := holds.held
      dsimp only
      rw [isIp]
      by_cases other : j ≠ i
      · have foreign : q.mac ≠ mac := fun same => other (single_place single here holds.there (same.trans isMac.symm))
        rw [if_pos other]
        by_cases busy : q.state ≠ .offline
        · rw [if_pos busy]
          exact ⟨_,_,_,rfl,.taken wish holds foreign (by cases state : q.state <;> simp_all)⟩
        · rw [if_neg busy]
          exact ⟨_,_,_,rfl,.takenOver wish here isMac holds foreign (not_not.mp busy)⟩
      · rw [if_neg other]
        have same : j = i := not_not.mp other
        subst same
        have own : q.mac = mac := by
          cases Option.some.inj (here.symm.trans holds.there)
          exact isMac
        rw [own]
        exact ⟨_,_,_,rfl,.renewed wish holds own⟩
    | none =>
      dsimp only
      rw [isMac]
      exact ⟨_,_,_,rfl,.movedTo wish (latest.unused held) here isMac⟩
  | none =>
    have unknown : Unknown s mac := known.nodeAt_none mine
    cases held : nodeAt s.plist l.pipNode with
    | some y =>
      obtain ⟨j,q⟩ := y
      have holds := latest.holder held
      have isIp := holds.held
      have foreign : q.mac ≠ mac := unknown q (List.mem_of_getElem? holds.there)
      dsimp only
      rw [isIp]
      by_cases busy : q.state ≠ .offline
      · rw [if_pos busy]
        exact ⟨_,_,_,rfl,.taken wish holds foreign (by cases state : q.state <;> simp_all)⟩
      · rw [if_neg busy]
        exact ⟨_,_,_,rfl,.inherited wish unknown holds (not_not.mp busy)⟩
    | none =>
      dsimp only
      by_cases high : addr > s.dhcpsLease.endIp
      · rw [if_pos high]
        exact ⟨_,_,_,rfl,.beyond wish (latest.unused held) unknown high⟩
      · rw [if_neg high]
        exact ⟨_,_,_,rfl,.openedAt wish (latest.unused held) unknown (UInt32.not_lt.mp high)⟩

theorem update_updated (single : Single s) (mac : Mac) (addr : UInt32) :
    ∃ plist got renew, wifiSoftapDhcpsClientUpdate s (some mac) (some addr) =
      ({s with plist := plist,renew := renew},got) ∧ Updated s mac addr plist got renew := by
  unfold wifiSoftapDhcpsClientUpdate
  dsimp only
  by_cases broadcast : addr = ipaddrBroadcast
  · rw [if_pos broadcast,broadcast]
    exact ⟨_,_,_,rfl,.broadcast⟩
  rw [if_neg broadcast]
  by_cases any : addr = ipaddrAny
  · rw [if_pos any,any]
    exact search_updated s mac
  · rw [if_neg any]
    exact asked_updated single ⟨any,broadcast⟩

-- A client that shows no address is one that shows 0.0.0.0.
theorem update_none (s : Server) (mac : Mac) :
    wifiSoftapDhcpsClientUpdate s (some mac) none = wifiSoftapDhcpsClientUpdate s (some mac) (some ipaddrAny) := rfl

theorem Holder.member (holder : Holder s addr j q) : q ∈ s.plist := List.mem_of_getElem? holder.there

theorem Holder.placed (holder : Holder s addr j q) (node : DhcpsPool) : node ∈ s.plist.set j node :=
  List.mem_set (List.getElem?_eq_some_iff.mp holder.there).1 node

theorem Holder.kept (holder : Holder s addr j q) (here : s.plist[i]? = some p) (other : q.mac ≠ p.mac) (node : DhcpsPool) :
    node ∈ nodeRemoveFromList (s.plist.set j node) i := by
  refine List.mem_eraseIdx_iff_getElem?.mpr ⟨j,?_,?_⟩
  · rintro rfl
    cases Option.some.inj (here.symm.trans holder.there)
    exact other rfl
  · exact List.getElem?_set_self (List.getElem?_eq_some_iff.mp holder.there).1

theorem inserted_mem (node : DhcpsPool) (l : List DhcpsPool) : node ∈ nodeInsertToList node l :=
  (insert_perm node l).mem_iff.mpr (List.mem_cons_self ..)

theorem Updated.leased (updated : Updated s mac addr plist got renew) (given : got ≠ ipaddrAny) :
    ∃ p ∈ plist, p.mac = mac ∧ p.ip = got ∧ p.state = .online := by
  cases updated with
  | broadcast => exact absurd rfl given
  | full => exact absurd rfl given
  | moved => exact ⟨_,inserted_mem _ _,rfl,rfl,rfl⟩
  | opened => exact ⟨_,inserted_mem _ _,rfl,rfl,rfl⟩
  | taken => exact absurd rfl given
  | beyond => exact absurd rfl given
  | renewed wish holder mine => exact ⟨_,holder.placed _,rfl,rfl,rfl⟩
  | takenOver wish here mine holder other offline =>
    exact ⟨_,holder.kept here (by rw [mine]; exact other) _,rfl,rfl,rfl⟩
  | inherited wish unknown holder offline => exact ⟨_,holder.placed _,rfl,rfl,rfl⟩
  | movedTo => exact ⟨_,inserted_mem _ _,rfl,rfl,rfl⟩
  | openedAt => exact ⟨_,inserted_mem _ _,rfl,rfl,rfl⟩

theorem Holder.unique (one : Holder s addr i p) (two : Holder s addr j q) : i = j ∧ p = q := by
  have place : i = j := by
    rcases Nat.lt_trichotomy i j with before | same | behind
    · exact absurd two.held (one.last j q before two.there)
    · exact same
    · exact absurd one.held (two.last i p behind one.there)
  subst place
  exact ⟨rfl,Option.some.inj (one.there.symm.trans two.there)⟩

theorem not_displaced (unused : Wish addr → ∀ p ∈ s.plist, p.ip ≠ addr) (p : DhcpsPool) : ¬ Displaced s mac addr p :=
  fun displaced => displaced.holder.elim fun _ holder => unused displaced.wish p holder.member holder.held

theorem set_mem (single : Single s) (there : s.plist[j]? = some q) (node : DhcpsPool) :
    p ∈ s.plist.set j node ↔ p = node ∨ p ∈ s.plist ∧ p.mac ≠ q.mac := by
  rw [(set_perm there node).mem_iff,List.mem_cons,others_mem single there]

theorem insert_mem (node : DhcpsPool) (l : List DhcpsPool) : p ∈ nodeInsertToList node l ↔ p = node ∨ p ∈ l := by
  rw [(insert_perm node l).mem_iff,List.mem_cons]

theorem takenOver_mem (single : Single s) (here : s.plist[i]? = some p) (mine : p.mac = mac) (holder : Holder s addr j q)
    (other : q.mac ≠ mac) (offline : q.state = .offline) {x : DhcpsPool} :
    x ∈ nodeRemoveFromList (s.plist.set j ⟨addr,mac,s.dhcpsLeaseTime,.static,.online⟩) i ↔
      x = ⟨addr,mac,s.dhcpsLeaseTime,.static,.online⟩ ∨ x ∈ s.plist ∧ x.mac ≠ mac ∧ ¬ x.mac = q.mac := by
  have apart : j ≠ i := by
    rintro rfl
    cases Option.some.inj (here.symm.trans holder.there)
    exact other mine
  have assigned : Assigned s mac (some q.ip) .static _ q.ip false :=
    .takenOver here mine holder.there rfl apart offline
  rw [holder.held] at assigned
  have placed := holder.kept here (by rw [mine]; exact other) ⟨addr,mac,s.dhcpsLeaseTime,.static,.online⟩
  have kept := takenOver_perm here holder.there apart ⟨addr,mac,s.dhcpsLeaseTime,.static,.online⟩
  constructor
  · intro member
    rcases List.mem_cons.mp (kept.subset (List.mem_cons_of_mem _ member)) with same | rest
    · exact .inl same
    · obtain ⟨inside,foreign⟩ := (others_mem single holder.there).mp rest
      by_cases own : x.mac = mac
      · exact .inl (List.inj_on_of_nodup_map (assigned.single single) member placed own)
      · exact .inr ⟨inside,own,foreign⟩
  · rintro (same | ⟨inside,own,foreign⟩)
    · rw [same]
      exact placed
    · have rest := (others_mem single holder.there).mpr ⟨inside,foreign⟩
      rcases List.mem_cons.mp (kept.symm.subset (List.mem_cons_of_mem _ rest)) with same | member
      · rw [same] at own
        exact absurd mine own
      · exact member

-- One node of each client is in the pool, so the node displaced is told by its client.
theorem displaced_iff (single : Single s) (wish : Wish addr) (holder : Holder s addr j q) (other : q.mac ≠ mac)
    (offline : q.state = .offline) (member : p ∈ s.plist) : Displaced s mac addr p ↔ p.mac = q.mac := by
  constructor
  · intro displaced
    obtain ⟨_,again⟩ := displaced.holder
    rw [(again.unique holder).2]
  · intro same
    obtain ⟨i,here⟩ := List.mem_iff_getElem?.mp member
    have place := single_place single holder.there here same
    subst place
    cases Option.some.inj (here.symm.trans holder.there)
    exact ⟨wish,⟨_,holder⟩,other,offline⟩

theorem Refused.not_displaced (refused : Refused s mac addr) (p : DhcpsPool) : ¬ Displaced s mac addr p := by
  intro displaced
  obtain ⟨_,again⟩ := displaced.holder
  cases refused with
  | broadcast => exact displaced.wish.2 rfl
  | full => exact displaced.wish.1 rfl
  | taken wish holder other online =>
    have offline := displaced.offline
    rw [←(holder.unique again).2,online] at offline
    cases offline
  | beyond wish unused => exact unused p again.member again.held

theorem not_refused_any (free : (∃ p ∈ s.plist, p.mac = mac) ∨ freeIp s mac ≤ s.dhcpsLease.endIp) :
    ¬ Refused s mac ipaddrAny := by
  intro refused
  cases refused with
  | full unknown beyond =>
    rcases free with ⟨p,member,mine⟩ | fits
    · exact unknown p member mine
    · exact UInt32.not_le.mpr beyond fits
  | taken wish => exact wish.1 rfl
  | beyond wish => exact wish.1 rfl

theorem not_refused_held (wish : Wish addr) (holder : Holder s addr j q) (free : q.mac = mac ∨ q.state = .offline) :
    ¬ Refused s mac addr := by
  intro refused
  cases refused with
  | broadcast => exact wish.2 rfl
  | full => exact wish.1 rfl
  | taken _ again other online =>
    rw [←(holder.unique again).2] at other online
    rcases free with mine | offline
    · exact other mine
    · rw [online] at offline
      cases offline
  | beyond _ unused => exact unused q holder.member holder.held

theorem not_refused_unused (wish : Wish addr) (unused : ∀ p ∈ s.plist, p.ip ≠ addr)
    (free : (∃ p ∈ s.plist, p.mac = mac) ∨ addr ≤ s.dhcpsLease.endIp) : ¬ Refused s mac addr := by
  intro refused
  cases refused with
  | broadcast => exact wish.2 rfl
  | full => exact wish.1 rfl
  | taken _ holder => exact unused _ holder.member holder.held
  | beyond _ _ unknown beyond =>
    rcases free with ⟨p,member,mine⟩ | fits
    · exact unknown p member mine
    · exact UInt32.not_le.mpr beyond fits

theorem given_any (free : (∃ p ∈ s.plist, p.mac = mac) ∨ freeIp s mac ≤ s.dhcpsLease.endIp)
    (members : ∀ p, p ∈ plist ↔ p = ⟨freeIp s mac,mac,s.dhcpsLeaseTime,.dynamic,.online⟩ ∨ p ∈ s.plist ∧ p.mac ≠ mac) :
    ∃ node, Given s mac ipaddrAny plist (freeIp s mac) node := by
  refine ⟨⟨freeIp s mac,mac,s.dhcpsLeaseTime,.dynamic,.online⟩,not_refused_any free,fun _ => rfl,fun no => absurd rfl no,
    rfl,rfl,rfl,fun p => ?_⟩
  have still : ¬ Displaced s mac ipaddrAny p := fun displaced => displaced.wish.1 rfl
  rw [and_iff_left still]
  exact members p

theorem given_asked (wish : Wish addr) (granted : ¬ Refused s mac addr) (type : DhcpsType) (members : ∀ p, p ∈ plist ↔
      p = ⟨addr,mac,s.dhcpsLeaseTime,type,.online⟩ ∨ p ∈ s.plist ∧ p.mac ≠ mac ∧ ¬ Displaced s mac addr p) :
    ∃ node, Given s mac addr plist addr node :=
  ⟨⟨addr,mac,s.dhcpsLeaseTime,type,.online⟩,granted,fun any => absurd any wish.1,fun _ => rfl,rfl,rfl,rfl,members⟩

theorem Updated.effect (single : Single s) (updated : Updated s mac addr plist got renew) :
    Refused s mac addr ∧ plist = s.plist ∧ got = ipaddrAny ∨ ∃ node, Given s mac addr plist got node := by
  have own : ∀ {i} {p : DhcpsPool}, s.plist[i]? = some p → p.mac = mac → ∃ p ∈ s.plist, p.mac = mac :=
    fun here mine => ⟨_,List.mem_of_getElem? here,mine⟩
  have alone : ∀ {addr}, (∀ p ∈ s.plist, p.ip ≠ addr) → ∀ p, ¬ Displaced s mac addr p :=
    fun unused => not_displaced fun _ => unused
  cases updated with
  | broadcast => exact .inl ⟨.broadcast,rfl,rfl⟩
  | full unknown beyond => exact .inl ⟨.full unknown beyond,rfl,rfl⟩
  | taken wish holder other online => exact .inl ⟨.taken wish holder other online,rfl,rfl⟩
  | beyond wish unused unknown beyond => exact .inl ⟨.beyond wish unused unknown beyond,rfl,rfl⟩
  | moved here mine =>
    refine .inr (given_any (.inl (own here mine)) fun q => ?_)
    rw [insert_mem,others_mem single here,mine]
  | opened unknown fits =>
    refine .inr (given_any (.inr fits) fun q => ?_)
    rw [insert_mem,and_iff_left_of_imp fun member => unknown q member]
  | movedTo wish unused here mine =>
    refine .inr (given_asked wish (not_refused_unused wish unused (.inl (own here mine))) .static fun q => ?_)
    rw [insert_mem,others_mem single here,mine,and_iff_left (alone unused q)]
  | openedAt wish unused unknown fits =>
    refine .inr (given_asked wish (not_refused_unused wish unused (.inr fits)) .static fun q => ?_)
    rw [insert_mem,and_iff_left (alone unused q),and_iff_left_of_imp fun member => unknown q member]
  | renewed wish holder mine =>
    refine .inr (given_asked wish (not_refused_held wish holder (.inl mine)) .dynamic fun q => ?_)
    have kept : ¬ Displaced s mac addr q := by
      intro displaced
      obtain ⟨_,again⟩ := displaced.holder
      rw [(holder.unique again).2] at mine
      exact displaced.other mine
    rw [set_mem single holder.there,mine,and_iff_left kept]
  | @takenOver addr i p j q wish here mine holder other offline =>
    refine .inr (given_asked wish (not_refused_held wish holder (.inr offline)) .static fun x => ?_)
    rw [takenOver_mem single here mine holder other offline]
    refine or_congr_right (and_congr_right fun member => and_congr_right fun _ => not_congr ?_)
    exact (displaced_iff single wish holder other offline member).symm
  | inherited wish unknown holder offline =>
    have other := unknown _ holder.member
    refine .inr (given_asked wish (not_refused_held wish holder (.inr offline)) .static fun q => ?_)
    rw [set_mem single holder.there]
    refine or_congr_right (and_congr_right fun member => ?_)
    rw [displaced_iff single wish holder other offline member,and_iff_right (unknown q member)]

end Updated

end NonosLinkLayer.Dhcps
