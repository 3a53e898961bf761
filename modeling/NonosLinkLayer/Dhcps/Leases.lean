import NonosLinkLayer.Dhcps.Outcomes
import Mathlib.Data.List.Perm.Basic

namespace NonosLinkLayer.Dhcps
open LeadingRun

inductive Event where
  | update (bssid : Option Mac) (ip : Option UInt32)
  | leave (bssid : Option Mac) (ip : Option UInt32) (force : Bool)
  | add (macaddr : Mac)
  | timer
  deriving DecidableEq, Repr

def perform (s : Server) : Event → Option Server
  | .update bssid ip => some (wifiSoftapDhcpsClientUpdate s bssid ip).1
  | .leave bssid ip force => some (wifiSoftapDhcpsClientLeave s bssid ip force)
  | .add macaddr => some (wifiSoftapAddDhcpsLease s macaddr).1
  | .timer => dhcpsCoarseTmr s

def Distinct (s : Server) : Prop := (s.plist.map DhcpsPool.ip).Nodup

def AllDistinct : Server → List Event → Prop
  | s,[] => Distinct s
  | s,event :: rest => Distinct s ∧ ∃ next, perform s event = some next ∧ AllDistinct next rest

-- Where the list stops to hold start_ip, start_ip+1, and so on, or comes to the
-- node of the client, no other client holds the address that is due there. An
-- address above end_ip is not given to a new client.
def Uncontested (s : Server) (bssid : Mac) : Prop :=
  ∀ n, Leads nextIp DhcpsPool.ip (fun p => p.mac == bssid) s.dhcpsLease.startIp s.plist n →
    (∃ p ∈ s.plist, p.mac = bssid) ∨ nextIp^[n] s.dhcpsLease.startIp ≤ s.dhcpsLease.endIp →
    ∀ p ∈ s.plist, p.mac ≠ bssid → p.ip ≠ nextIp^[n] s.dhcpsLease.startIp

-- The events that lease no address a second time: a client without a wish finds
-- its place uncontested, and a static lease finds the address behind as many as
-- there are nodes unused.
def Clear (s : Server) : Event → Prop
  | .update (some bssid) ip => ip = none ∨ ip = some ipaddrAny → Uncontested s bssid
  | .add macaddr => Unknown s macaddr → nextIp^[s.plist.length] s.dhcpsLease.startIp ≤ s.dhcpsLease.endIp →
      ∀ p ∈ s.plist, p.ip ≠ nextIp^[s.plist.length] s.dhcpsLease.startIp
  | _ => True

def AllClear : Server → List Event → Prop
  | _,[] => True
  | s,event :: rest => Clear s event ∧ ∀ next, perform s event = some next → AllClear next rest

section Lists
variable {l : List DhcpsPool} {p q node : DhcpsPool}

theorem insert_perm (node : DhcpsPool) (l : List DhcpsPool) : (nodeInsertToList node l).Perm (node :: l) := by
  induction l with
  | nil => rfl
  | cons head rest ih =>
    unfold nodeInsertToList
    split_ifs
    · rfl
    · exact (ih.cons head).trans (List.Perm.swap ..)

theorem node_perm (here : l[i]? = some p) : (p :: nodeRemoveFromList l i).Perm l := by
  obtain ⟨inside,same⟩ := List.getElem?_eq_some_iff.mp here
  rw [←same]
  exact List.getElem_cons_eraseIdx_perm inside

theorem set_perm (here : l[i]? = some p) (q : DhcpsPool) : (l.set i q).Perm (q :: nodeRemoveFromList l i) :=
  List.set_perm_cons_eraseIdx (List.getElem?_eq_some_iff.mp here).1 q

def owners (l : List DhcpsPool) : List (UInt32 × Mac) := l.map fun p => (p.ip,p.mac)

theorem leave_owners (bssid : Mac) (ip : UInt32) (force : Bool) (l : List DhcpsPool) :
    (owners (leaveLoop bssid ip force l)).Sublist (owners l) := by
  induction l with
  | nil => exact List.Sublist.refl _
  | cons head rest ih =>
    unfold leaveLoop
    split_ifs
    · exact List.sublist_cons_self ..
    · exact List.Sublist.refl _
    · exact ih.cons_cons _

theorem tick_owner (p : DhcpsPool) : (p.tick.ip,p.tick.mac) = (p.ip,p.mac) := by
  unfold DhcpsPool.tick
  split_ifs <;> rfl

theorem coarse_owners (l : List DhcpsPool) (num : UInt8) : (owners (coarseLoop l num).1).Sublist (owners l) := by
  induction l generalizing num with
  | nil => exact List.Sublist.refl _
  | cons head rest ih =>
    unfold coarseLoop
    split_ifs
    · exact (ih num).cons _
    · unfold owners
      rw [List.map_cons,List.map_cons,tick_owner]
      exact (ih (num+1)).cons_cons _

-- The nodes kept are counted, so that there is one to kill when the count says so.
theorem coarse_count (l : List DhcpsPool) (num : UInt8) :
    (coarseLoop l num).2 = num + UInt8.ofNat (coarseLoop l num).1.length := by
  induction l generalizing num with
  | nil => simp [coarseLoop]
  | cons head rest ih =>
    unfold coarseLoop
    split_ifs
    · exact ih num
    · dsimp only
      rw [ih (num+1),List.length_cons,Nat.add_comm,UInt8.ofNat_add]
      exact UInt8.add_assoc ..

theorem modify_owners (l : List DhcpsPool) (i : Nat) :
    owners (l.modify i fun p => {p with state := .offline}) = owners l := by
  apply List.ext_getElem?
  intro j
  unfold owners
  rw [List.getElem?_map,List.getElem?_map,List.getElem?_modify]
  cases l[j]? with
  | none => rfl
  | some p => split_ifs <;> rfl

theorem kill_owners (l : List DhcpsPool) (enough : maxStationNum ≤ UInt8.ofNat l.length) :
    ∃ l', killOldestDhcpsPool l = some l' ∧ (owners l').Sublist (owners l) := by
  match l with
  | [] => exact absurd enough (by decide)
  | [p] => exact absurd enough (by rw [List.length_singleton]; decide)
  | head :: p :: rest =>
    refine ⟨_,rfl,?_⟩
    rw [←modify_owners (head :: p :: rest) (rest.length + 1)]
    exact (List.eraseIdx_sublist ..).map _

theorem timer_owners (s : Server) :
    ∃ plist, dhcpsCoarseTmr s = some {s with plist := plist} ∧ (owners plist).Sublist (owners s.plist) := by
  have count := coarse_count s.plist 0
  have fewer := coarse_owners s.plist 0
  unfold dhcpsCoarseTmr
  generalize coarseLoop s.plist 0 = r at count fewer
  obtain ⟨plist,num⟩ := r
  dsimp only at count fewer ⊢
  split_ifs with many
  · obtain ⟨plist',killed,fewer'⟩ := kill_owners plist (by simpa [count] using many)
    rw [killed]
    exact ⟨plist',rfl,fewer'.trans fewer⟩
  · exact ⟨plist,rfl,fewer⟩

end Lists

def Single (s : Server) : Prop := (s.plist.map DhcpsPool.mac).Nodup

section Owners
variable {l l' : List DhcpsPool}

theorem owners_distinct (fewer : (owners l').Sublist (owners l)) (distinct : (l.map DhcpsPool.ip).Nodup) :
    (l'.map DhcpsPool.ip).Nodup := by
  have part := fewer.map Prod.fst
  unfold owners at part
  rw [List.map_map,List.map_map] at part
  exact distinct.sublist part

theorem owners_single (fewer : (owners l').Sublist (owners l)) (single : (l.map DhcpsPool.mac).Nodup) :
    (l'.map DhcpsPool.mac).Nodup := by
  have part := fewer.map Prod.snd
  unfold owners at part
  rw [List.map_map,List.map_map] at part
  exact single.sublist part

end Owners

theorem not_mem_ips {l : List DhcpsPool} : addr ∉ l.map DhcpsPool.ip ↔ ∀ x ∈ l, x.ip ≠ addr := by
  simp only [List.mem_map,not_exists,not_and,ne_eq]

theorem not_mem_macs {l : List DhcpsPool} : bssid ∉ l.map DhcpsPool.mac ↔ ∀ x ∈ l, x.mac ≠ bssid := by
  simp only [List.mem_map,not_exists,not_and,ne_eq]

section Assigned
variable {s : Server} {bssid : Mac} {ip : Option UInt32} {p q : DhcpsPool}

theorem takenOver_perm (here : s.plist[i]? = some p) (there : s.plist[j]? = some q) (other : j ≠ i) (q' : DhcpsPool) :
    (p :: nodeRemoveFromList (s.plist.set j q') i).Perm (q' :: nodeRemoveFromList s.plist j) := by
  have still : (s.plist.set j q')[i]? = some p := by rw [List.getElem?_set_ne other,here]
  exact (node_perm still).trans (set_perm there q')

theorem Assigned.single (single : Single s) (assigned : Assigned s bssid ip type plist addr renew) :
    (plist.map DhcpsPool.mac).Nodup := by
  unfold Single at single
  cases assigned with
  | refused => exact single
  | @renewed i p here mac own =>
    refine ((set_perm here _).map DhcpsPool.mac).nodup_iff.mpr ?_
    exact ((node_perm here).map DhcpsPool.mac).nodup_iff.mpr single
  | @takenOver i p j q here mac there own other offline =>
    have left := (takenOver_perm here there other ⟨q.ip,bssid,s.dhcpsLeaseTime,type,.online⟩).map DhcpsPool.mac
    rw [List.map_cons,List.map_cons,mac] at left
    have before := ((node_perm there).map DhcpsPool.mac).nodup_iff.mpr single
    exact (left.cons_inv).nodup_iff.mpr (List.nodup_cons.mp before).2
  | @moved i p addr here mac chosen =>
    refine ((insert_perm _ _).map DhcpsPool.mac).nodup_iff.mpr ?_
    exact ((node_perm here).map DhcpsPool.mac).nodup_iff.mpr single
  | @inherited j q unknown there own offline =>
    have part : (nodeRemoveFromList s.plist j).Sublist s.plist := List.eraseIdx_sublist ..
    refine ((set_perm there _).map DhcpsPool.mac).nodup_iff.mpr (List.nodup_cons.mpr ⟨?_,single.sublist (part.map _)⟩)
    exact not_mem_macs.mpr fun x member => unknown x (part.subset member)
  | opened unknown chosen fits =>
    exact ((insert_perm _ _).map DhcpsPool.mac).nodup_iff.mpr (List.nodup_cons.mpr ⟨not_mem_macs.mpr unknown,single⟩)

theorem others_mem (single : Single s) (here : s.plist[i]? = some p) :
    q ∈ nodeRemoveFromList s.plist i ↔ q ∈ s.plist ∧ q.mac ≠ p.mac := by
  have split := node_perm here
  have apart := (split.map DhcpsPool.mac).nodup_iff.mpr single
  have alone := (List.nodup_cons.mp apart).1
  constructor
  · intro member
    refine ⟨split.subset (List.mem_cons_of_mem _ member),fun same => alone ?_⟩
    rw [←same]
    exact List.mem_map_of_mem member
  · rintro ⟨member,other⟩
    cases split.symm.subset member with
    | head => exact absurd rfl other
    | tail _ inside => exact inside

theorem uncontested_free : Uncontested s bssid ↔
    ((∃ p ∈ s.plist, p.mac = bssid) ∨ freeIp s bssid ≤ s.dhcpsLease.endIp →
      ∀ p ∈ s.plist, p.mac ≠ bssid → p.ip ≠ freeIp s bssid) :=
  forall_leads (P:=fun addr => (∃ p ∈ s.plist, p.mac = bssid) ∨ addr ≤ s.dhcpsLease.endIp →
    ∀ p ∈ s.plist, p.mac ≠ bssid → p.ip ≠ addr)

-- Only a free address can be leased twice, and only where the place it was found at is contested.
theorem Assigned.distinct (single : Single s) (distinct : Distinct s)
    (assigned : Assigned s bssid ip type plist addr renew) :
    (plist.map DhcpsPool.ip).Nodup ↔ (ip = none → Uncontested s bssid) := by
  unfold Distinct at distinct
  rw [uncontested_free]
  cases assigned with
  | refused why =>
    refine iff_of_true distinct fun none some => ?_
    obtain ⟨unknown,beyond⟩ := why none
    rcases some with ⟨p,member,mac⟩ | fits
    · exact absurd mac (unknown p member)
    · exact absurd fits (UInt32.not_le.mpr beyond)
  | @renewed i p here mac own =>
    refine iff_of_true ?_ fun none => by rw [none] at own; cases own
    refine ((set_perm here _).map DhcpsPool.ip).nodup_iff.mpr ?_
    exact ((node_perm here).map DhcpsPool.ip).nodup_iff.mpr distinct
  | @takenOver i p j q here mac there own other offline =>
    refine iff_of_true ?_ fun none => by rw [none] at own; cases own
    have left := (takenOver_perm here there other ⟨q.ip,bssid,s.dhcpsLeaseTime,type,.online⟩).map DhcpsPool.ip
    have before := ((node_perm there).map DhcpsPool.ip).nodup_iff.mpr distinct
    exact (List.nodup_cons.mp (left.nodup_iff.mpr before)).2
  | @moved i p addr here mac chosen =>
    rw [((insert_perm _ _).map DhcpsPool.ip).nodup_iff,List.map_cons,List.nodup_cons]
    have part : (nodeRemoveFromList s.plist i).Sublist s.plist := List.eraseIdx_sublist ..
    rw [and_iff_left (distinct.sublist (part.map _)),not_mem_ips]
    cases chosen with
    | asked unused => exact iff_of_true (fun x member => unused x (part.subset member)) fun none => by cases none
    | free =>
      have own : ∃ p ∈ s.plist, p.mac = bssid := ⟨p,(node_perm here).subset (List.mem_cons_self ..),mac⟩
      constructor
      · intro unused _ _ x member other
        exact unused x ((others_mem single here).mpr ⟨member,by rw [mac]; exact other⟩)
      · intro unused x member
        obtain ⟨inside,other⟩ := (others_mem single here).mp member
        rw [mac] at other
        exact unused rfl (.inl own) x inside other
  | @inherited j q unknown there own offline =>
    refine iff_of_true ?_ fun none => by rw [none] at own; cases own
    refine ((set_perm there _).map DhcpsPool.ip).nodup_iff.mpr ?_
    exact ((node_perm there).map DhcpsPool.ip).nodup_iff.mpr distinct
  | @opened addr unknown chosen fits =>
    rw [((insert_perm _ _).map DhcpsPool.ip).nodup_iff,List.map_cons,List.nodup_cons,and_iff_left distinct,not_mem_ips]
    cases chosen with
    | asked unused => exact iff_of_true unused fun none => by cases none
    | free => exact ⟨fun unused _ _ x member _ => unused x member,
        fun unused x member => unused rfl (.inr fits) x member (unknown x member)⟩

end Assigned

theorem addLoop_counts (macaddr : Mac) (l : List DhcpsPool) (startIp : UInt32) :
    (∀ p ∈ l, p.mac ≠ macaddr) ∧ addLoop macaddr l startIp = some (nextIp^[l.length] startIp) ∨
    ¬ (∀ p ∈ l, p.mac ≠ macaddr) ∧ addLoop macaddr l startIp = none := by
  induction l generalizing startIp with
  | nil => exact .inl ⟨by simp,rfl⟩
  | cons head rest ih =>
    unfold addLoop
    split_ifs with own
    · exact .inr ⟨fun unknown => unknown head (by simp) own,rfl⟩
    · rcases ih (nextIp startIp) with ⟨unknown,counted⟩ | ⟨known,none⟩
      · exact .inl ⟨by simpa [own] using unknown,counted⟩
      · exact .inr ⟨fun unknown => known fun p member => unknown p (by simp [member]),none⟩

section Steps
variable {s next : Server}

theorem fewer_distinct (single : Single s) (distinct : Distinct s) (fewer : (owners next.plist).Sublist (owners s.plist)) :
    Single next ∧ Distinct next :=
  ⟨owners_single fewer single,owners_distinct fewer distinct⟩

theorem assign_distinct (single : Single s) (distinct : Distinct s) (bssid : Mac) (ip : Option UInt32) (type : DhcpsType) :
    Single (assignIp s bssid ip type).1 ∧ (Distinct (assignIp s bssid ip type).1 ↔ (ip = none → Uncontested s bssid)) := by
  obtain ⟨plist,addr,renew,ran,assigned⟩ := assignIp_outcome s bssid ip type
  rw [ran]
  exact ⟨assigned.single single,assigned.distinct single distinct⟩

theorem update_distinct (single : Single s) (distinct : Distinct s) (bssid : Option Mac) (ip : Option UInt32) :
    Single (wifiSoftapDhcpsClientUpdate s bssid ip).1 ∧
    (Distinct (wifiSoftapDhcpsClientUpdate s bssid ip).1 ↔ Clear s (.update bssid ip)) := by
  unfold wifiSoftapDhcpsClientUpdate Clear
  cases bssid with
  | none => exact ⟨single,iff_of_true distinct trivial⟩
  | some bssid =>
    cases ip with
    | none => simpa using assign_distinct single distinct bssid none .dynamic
    | some ip =>
      dsimp only
      split_ifs with broadcast any
      · refine ⟨single,iff_of_true distinct ?_⟩
        rintro (none | any)
        · cases none
        · rw [broadcast] at any
          exact absurd (Option.some.inj any) (by decide)
      · simpa [any] using assign_distinct single distinct bssid none .dynamic
      · obtain ⟨single',distinct'⟩ := assign_distinct single distinct bssid (some ip) .static
        refine ⟨single',iff_of_true (distinct'.mpr fun none => by cases none) ?_⟩
        rintro (none | same)
        · cases none
        · exact absurd (Option.some.inj same) any

theorem add_distinct (single : Single s) (distinct : Distinct s) (macaddr : Mac) :
    Single (wifiSoftapAddDhcpsLease s macaddr).1 ∧
    (Distinct (wifiSoftapAddDhcpsLease s macaddr).1 ↔ Clear s (.add macaddr)) := by
  unfold wifiSoftapAddDhcpsLease Clear
  rcases addLoop_counts macaddr s.plist s.dhcpsLease.startIp with ⟨unknown,counted⟩ | ⟨known,none⟩
  · rw [counted]
    dsimp only
    split_ifs with beyond
    · exact ⟨single,iff_of_true distinct fun _ fits => absurd fits (UInt32.not_le.mpr beyond)⟩
    · constructor
      · exact ((insert_perm _ _).map DhcpsPool.mac).nodup_iff.mpr (List.nodup_cons.mpr ⟨not_mem_macs.mpr unknown,single⟩)
      · unfold Distinct at distinct ⊢
        rw [((insert_perm _ _).map DhcpsPool.ip).nodup_iff,List.map_cons,List.nodup_cons,and_iff_left distinct,not_mem_ips]
        exact ⟨fun unused _ _ => unused,fun unused => unused unknown (UInt32.not_lt.mp beyond)⟩
  · rw [none]
    exact ⟨single,iff_of_true distinct fun unknown => absurd unknown known⟩

-- An event goes through and leaves every client one node; what it leases is new
-- exactly when the event is clear.
theorem step_distinct (single : Single s) (distinct : Distinct s) (event : Event) :
    ∃ next, perform s event = some next ∧ Single next ∧ (Distinct next ↔ Clear s event) := by
  cases event with
  | update bssid ip => exact ⟨_,rfl,update_distinct single distinct bssid ip⟩
  | leave bssid ip force =>
    have fewer : (owners (wifiSoftapDhcpsClientLeave s bssid ip force).plist).Sublist (owners s.plist) := by
      unfold wifiSoftapDhcpsClientLeave
      split
      · exact leave_owners ..
      · exact List.Sublist.refl _
    obtain ⟨single',distinct'⟩ := fewer_distinct single distinct fewer
    exact ⟨_,rfl,single',iff_of_true distinct' trivial⟩
  | add macaddr => exact ⟨_,rfl,add_distinct single distinct macaddr⟩
  | timer =>
    obtain ⟨plist,ran,fewer⟩ := timer_owners s
    have after : Single {s with plist := plist} ∧ Distinct {s with plist := plist} := fewer_distinct single distinct fewer
    obtain ⟨single',distinct'⟩ := after
    exact ⟨_,ran,single',iff_of_true distinct' trivial⟩

theorem AllDistinct.here (all : AllDistinct s events) : Distinct s := by
  cases events with
  | nil => exact all
  | cons event rest => exact all.1

theorem run_distinct (single : Single s) (distinct : Distinct s) (events : List Event) :
    AllDistinct s events ↔ AllClear s events := by
  induction events generalizing s with
  | nil => exact iff_of_true distinct trivial
  | cons event rest ih =>
    obtain ⟨next,ran,single',exact_⟩ := step_distinct single distinct event
    constructor
    · rintro ⟨_,next',ran',later⟩
      rw [ran] at ran'
      cases ran'
      have distinct' := later.here
      refine ⟨exact_.mp distinct',fun next' ran' => ?_⟩
      rw [ran] at ran'
      cases ran'
      exact (ih single' distinct').mp later
    · rintro ⟨clear,later⟩
      exact ⟨distinct,next,ran,(ih single' (exact_.mpr clear)).mpr (later next ran)⟩

end Steps

-- The server as dhcps_start leaves it, with an empty pool.
def started (lease : DhcpsLease) (ip : UInt32) (leaseTime : UInt32) : Server :=
  ⟨wifiSoftapInitDhcpsLease lease ip,[],false,leaseTime⟩

-- No address is leased twice exactly as long as every event is clear.
theorem leases_distinct (lease : DhcpsLease) (ip leaseTime : UInt32) (events : List Event) :
    AllDistinct (started lease ip leaseTime) events ↔ AllClear (started lease ip leaseTime) events := by
  have single : Single (started lease ip leaseTime) := List.nodup_nil
  have distinct : Distinct (started lease ip leaseTime) := List.nodup_nil
  exact run_distinct single distinct events

def execute (s : Server) (events : List Event) : Option Server := events.foldlM perform s

theorem AllDistinct.ips {i : List UInt32} (all : AllDistinct s events)
    (ran : (execute s events).map (fun s => s.plist.map DhcpsPool.ip) = some i) : i.Nodup := by
  induction events generalizing s with
  | nil =>
    cases ran
    exact all
  | cons event rest ih =>
    obtain ⟨_,next,went,later⟩ := all
    refine ih later ?_
    unfold execute at ran ⊢
    rw [List.foldlM_cons,went] at ran
    exact ran

def accessPoint : Server := started ⟨false,0,0⟩ 0x0104a8c0 120
def phone : Mac := #v[2,0,0,0,0,1]
def laptop : Mac := #v[2,0,0,0,0,2]
def camera : Mac := #v[2,0,0,0,0,3]

-- The laptop has 10.0.0.1, which sorts before all addresses of the server, so
-- the search for the camera stops at once.
def squatted : List Event := [.update phone none,.update laptop (some 0x0100000a),.update camera none]

-- The phone leaves, so one node is left, and the second address is the laptop's.
def released : List Event := [.update phone none,.update laptop none,.leave phone (some 0x0204a8c0) true,.add camera]

theorem address_leased_twice : ¬ AllDistinct accessPoint squatted ∧ ¬ AllDistinct accessPoint released := by
  constructor
  · intro all
    have ips := all.ips (i:=[0x0100000a,0x0204a8c0,0x0204a8c0]) (by decide)
    exact absurd ips (by decide)
  · intro all
    have ips := all.ips (i:=[0x0304a8c0,0x0304a8c0]) (by decide)
    exact absurd ips (by decide)

end NonosLinkLayer.Dhcps
