import NonosLinkLayer.Napt.NewPort

namespace NonosLinkLayer.Napt
open ByteMemory Transitions

theorem exists_missing {used range : List Nat} (distinct : used.Nodup) (inside : used ⊆ range) (once : range.Nodup) :
    (∃ x ∈ range, x ∉ used) ↔ used.length < range.length := by
  constructor
  · rintro ⟨x,member,missing⟩
    have more : (x :: used) ⊆ range := List.cons_subset.mpr ⟨member,inside⟩
    exact (List.subperm_of_subset (List.nodup_cons.mpr ⟨missing,distinct⟩) more).length_le
  · intro shorter
    by_contra all
    have whole : range ⊆ used := fun x member => by_contra fun missing => all ⟨x,member,missing⟩
    have longer := (List.subperm_of_subset once whole).length_le
    omega

-- The loop ends: a port of the range passes its tests, and some random numbers lead
-- to one that does.
def Finishes (d : NaptData) (pcbs : LocalPcbs) (proto : UInt8) : Prop :=
  (∃ q, InRange q ∧ ¬ taken d pcbs proto (swap16 q)) ∧ ∃ draws p, newPortLoop d pcbs proto draws = .ok p

def nrActive (d : NaptData) (proto : UInt8) : Int := if proto = ipProtoTcp then d.nrActiveTcp else d.nrActiveUdp

-- The entries of TCP and UDP, those no longer in use included, have ports of the range.
def Ranged (d : NaptData) : Prop :=
  ∀ i, (d.table i).proto = ipProtoTcp ∨ (d.table i).proto = ipProtoUdp → InRange (swap16 (d.table i).mport)

theorem newPort_inRange (ran : ipNaptNewPort d pcbs proto port draws = .ok p) : InRange (swap16 p) := by
  have drawn : ∀ {d draws}, newPortLoop d pcbs proto draws = .ok p → InRange (swap16 p) := by
    intro d draws ran
    obtain ⟨⟨draw,same⟩,_⟩ := newPortLoop_drawn ran
    exact same ▸ drawn_inRange draw
  unfold ipNaptNewPort at ran
  split_ifs at ran with range
  · obtain ⟨used,_,ran⟩ := ok_bind.mp ran
    split_ifs at ran
    · cases ran
      exact range
    · exact drawn ran
  · exact drawn ran

section Ranged
variable {d d' : NaptData} {now : UInt32} {i : Nat}

theorem Ranged.keeps (ranged : Ranged d) (keeps : KeepsSessions d d') : Ranged d' := by
  intro i
  have same := keeps.2 i
  have proto : (d'.table i).proto = (d.table i).proto := congrArg Session.proto same
  have mport : (d'.table i).mport = (d.table i).mport := congrArg Session.mport same
  rw [proto,mport]
  exact ranged i

theorem Ranged.modify (ranged : Ranged d) (i : Nat) {f : NaptTable → NaptTable}
    (good : (f (d.table i)).proto = ipProtoTcp ∨ (f (d.table i)).proto = ipProtoUdp → InRange (swap16 (f (d.table i)).mport)) :
    Ranged (d.modify i f) := by
  intro j
  by_cases same : j = i
  · subst same
    simpa [NaptData.modify] using good
  · simpa [NaptData.modify,same] using ranged j

theorem Ranged.free (ranged : Ranged d) (i : Nat) : Ranged (ipNaptFree d i) := by
  have same : ipNaptFree d i = _ := free_relink d (links d) i
  rw [same]
  exact ranged.keeps (relinked_keeps ..)

theorem Ranged.insert (ranged : Ranged d) (ran : ipNaptInsert d i = .ok d') : Ranged d' := by
  by_cases atSpare : i = d.free
  · have same : ipNaptInsert d i = _ := insert_relink d (links d) i atSpare
    rw [same] at ran
    cases ran
    exact ranged.keeps (relinked_keeps ..)
  · unfold ipNaptInsert at ran
    rw [if_pos atSpare] at ran
    cases ran

theorem Ranged.findLoop {wanted : Session → Bool} (ranged : Ranged d) (ran : findLoop now wanted turns d i = .ok (d',found)) :
    Ranged d' := by
  induction turns generalizing d i with
  | zero =>
    unfold Napt.findLoop at ran
    split_ifs at ran
    cases ran
    exact ranged
  | succ turns ih =>
    unfold Napt.findLoop at ran
    dsimp only at ran
    split_ifs at ran
    · cases ran
      exact ranged
    · exact ih (ranged.free i) ran
    · cases ran
      exact ranged.modify i (ranged i)
    · exact ih ranged ran

theorem Ranged.find (ranged : Ranged d) (ran : ipNaptFind d now proto addr port mport dest = .ok (d',found)) : Ranged d' :=
  ranged.findLoop ran

theorem Ranged.record (ranged : Ranged d) (i : Nat) {f : Session → Session} (same : ∀ t, (f t).flow = t.flow) :
    Ranged (d.record i f) := by
  refine ranged.modify i ?_
  have proto : (f (d.table i).toSession).proto = (d.table i).proto := congrArg Flow.proto (same _)
  have mport : (f (d.table i).toSession).mport = (d.table i).mport := congrArg Flow.mport (same _)
  dsimp only
  rw [proto,mport]
  exact ranged i

theorem Ranged.place (ranged : Ranged d) {e : Session} (good : e.proto = ipProtoTcp ∨ e.proto = ipProtoUdp → InRange (swap16 e.mport))
    (ran : ipNaptInsert (d.modify i fun t => {t with toSession := e}) i = .ok d') : Ranged d' :=
  (ranged.modify i good).insert ran

theorem Ranged.add (ranged : Ranged d) (ran : ipNaptAdd d now pcbs draws proto src sport dest dport = .ok (d',port)) :
    Ranged d' := by
  unfold ipNaptAdd at ran
  obtain ⟨⟨d1,found⟩,searched,ran⟩ := ok_bind.mp ran
  have ranged1 := ranged.find searched
  cases found with
  | some t =>
    obtain ⟨d2,inserted,ran⟩ := ok_bind.mp ran
    cases ran
    exact ((ranged1.modify t (ranged1 t)).free t).insert inserted
  | none =>
    dsimp only at ran
    by_cases full : d1.free = noIdx
    · rw [if_pos full] at ran
      cases ran
      exact ranged1
    rw [if_neg full] at ran
    split_ifs at ran with tcp udp udp
    · cases tcp.symm.trans udp
    · obtain ⟨mport,chosen,ran⟩ := ok_bind.mp ran
      obtain ⟨_,same,ran⟩ := ok_bind.mp ran
      cases same
      obtain ⟨d2,inserted,ran⟩ := ok_bind.mp ran
      cases ran
      exact ranged1.place (e:=⟨now,src,dest,sport,dport,port,proto,false,false,false,false,false,false⟩)
        (fun _ => newPort_inRange chosen) inserted
    · obtain ⟨_,_,ran⟩ := ok_bind.mp ran
      obtain ⟨mport,chosen,ran⟩ := ok_bind.mp ran
      obtain ⟨d2,inserted,ran⟩ := ok_bind.mp ran
      cases ran
      exact ranged1.place (e:=⟨now,src,dest,sport,dport,port,proto,false,false,false,false,false,false⟩)
        (fun _ => newPort_inRange chosen) inserted
    · obtain ⟨_,_,ran⟩ := ok_bind.mp ran
      obtain ⟨mport,_,ran⟩ := ok_bind.mp ran
      obtain ⟨d2,inserted,ran⟩ := ok_bind.mp ran
      cases ran
      refine ranged1.place (e:=⟨now,src,dest,sport,dport,port,proto,false,false,false,false,false,false⟩) ?_ inserted
      rintro (isTcp | isUdp)
      · exact absurd isTcp tcp
      · exact absurd isUdp udp

theorem Ranged.recv (ranged : Ranged d) (ran : ipNaptRecv d now p = .ok (d',p')) : Ranged d' := by
  by_cases transport : Transport p
  · rw [recv_transport d now transport] at ran
    split at ran
    · cases ran
      exact ranged
    · obtain ⟨⟨d1,found⟩,searched,ran⟩ := ok_bind.mp ran
      have ranged1 := ranged.find searched
      cases found with
      | none =>
        cases ran
        exact ranged1
      | some t =>
        cases ran
        exact ranged1.record t (noteInbound_flow p _)
  · by_cases echo : iphProto p = ipProtoIcmp ∧ iechoType p = icmpEr
    · unfold ipNaptRecv at ran
      rw [if_pos echo.1,if_pos echo.2] at ran
      obtain ⟨⟨d1,found⟩,searched,ran⟩ := ok_bind.mp ran
      have ranged1 := ranged.find searched
      cases found with
      | none =>
        cases ran
        exact ranged1
      | some t =>
        cases ran
        exact ranged1
    · rw [recv_ignored d now (not_or.mpr ⟨echo,transport⟩)] at ran
      cases ran
      exact ranged

theorem Ranged.forward (ranged : Ranged d) (ran : ipNaptForward d now pcbs draws inp outp p = .ok r) : Ranged r.data := by
  by_cases idle : inp.napt = false ∨ ¬ Outbound p
  · rw [forward_ignored d now pcbs draws outp idle] at ran
    cases ran
    exact ranged
  obtain ⟨on,outbound⟩ := not_or.mp idle
  have on : inp.napt = true := by simpa using on
  rcases not_not.mp outbound with ⟨icmp,echo⟩ | transport
  · unfold ipNaptForward at ran
    rw [if_neg (by simp [on]),if_pos icmp,if_pos echo] at ran
    obtain ⟨⟨d1,port⟩,added,ran⟩ := ok_bind.mp ran
    cases ran
    exact ranged.add added
  · rw [forward_transport d now pcbs draws outp on transport] at ran
    split at ran
    · cases ran
      exact ranged
    split_ifs at ran
    · obtain ⟨⟨d1,port⟩,added,ran⟩ := ok_bind.mp ran
      cases ran
      exact ranged.add added
    · obtain ⟨⟨d1,found⟩,searched,ran⟩ := ok_bind.mp ran
      have ranged1 := ranged.find searched
      cases found with
      | none =>
        cases ran
        exact ranged1
      | some t =>
        dsimp only at ran
        split_ifs at ran
        · cases ran
          exact ranged1
        · cases ran
          exact ranged1.record t (noteOutbound_flow p)

theorem Ranged.perform (ranged : Ranged d) (ran : perform d now event = .ok (d',reply)) : Ranged d' := by
  cases event with
  | recv p =>
    obtain ⟨⟨d1,p1⟩,received,ran⟩ := ok_bind.mp ran
    cases ran
    exact ranged.recv received
  | forward pcbs draws inp outp p =>
    obtain ⟨r,forwarded,ran⟩ := ok_bind.mp ran
    cases ran
    exact ranged.forward forwarded
  | portmapAdd =>
    cases ran
    exact ranged
  | portmapRemove proto mport =>
    cases ran
    obtain ⟨table,same⟩ := portmapRemove_remapped (rfl : ipPortmapRemove d proto mport = _)
    rw [same]
    exact ranged

end Ranged

theorem empty_ranged (natMax : UInt16) (portmapMax : UInt8) : Ranged (emptyTables natMax portmapMax) := by
  intro i transport
  have none : ((emptyTables natMax portmapMax).table i).proto = 0 := by
    unfold emptyTables
    dsimp only
    split_ifs <;> rfl
  rw [none] at transport
  exact absurd transport (by decide)

theorem run_ranged (run : Run natMax portmapMax past s) : Ranged s.data := by
  obtain ⟨calloc,start,ran,path⟩ := run
  obtain ⟨_,same⟩ := init_tables ran
  refine path.keeps (I:=fun s => Ranged s.data) ?_ fun ranged step => ranged.perform step.2.2
  rw [same]
  exact empty_ranged natMax portmapMax

def usedPorts (a : Sessions) (proto : UInt8) : List Nat :=
  (a.active.filter fun e => e.2.proto = proto).map fun e => (swap16 e.2.mport).toNat

def portRange : List Nat := List.range' 49152 12288

theorem inRange_iff (q : UInt16) : InRange q ↔ q.toNat ∈ portRange := by
  unfold InRange portRange
  rw [List.mem_range'_1,UInt16.le_iff_toNat_le,UInt16.le_iff_toNat_le]
  change 49152 ≤ q.toNat ∧ q.toNat ≤ 61439 ↔ _
  omega

section Counted
variable {d : NaptData} {a : Sessions} {proto : UInt8}

theorem mem_usedPorts (q : UInt16) : q.toNat ∈ usedPorts a proto ↔ ∃ e ∈ a.active, e.2.proto = proto ∧ e.2.mport = swap16 q := by
  unfold usedPorts
  rw [List.mem_map]
  constructor
  · rintro ⟨e,member,same⟩
    obtain ⟨inside,isProto⟩ := List.mem_filter.mp member
    refine ⟨e,inside,by simpa using isProto,?_⟩
    rw [←UInt16.toNat_inj.mp same,swap16_swap16]
  · rintro ⟨e,inside,isProto,same⟩
    refine ⟨e,List.mem_filter.mpr ⟨inside,by simpa using isProto⟩,?_⟩
    rw [same,swap16_swap16]

theorem usedPorts_nodup (coherent : Coherent a.flows) (transport : proto = ipProtoTcp ∨ proto = ipProtoUdp) :
    (usedPorts a proto).Nodup := by
  refine List.pairwise_map.mpr (List.pairwise_filter.mpr ?_)
  refine (List.pairwise_map.mp coherent.ports).imp ?_
  intro e f apart isE isF same
  have isE : e.2.proto = proto := by simpa using isE
  have isF : f.2.proto = proto := by simpa using isF
  have ports : e.2.mport = f.2.mport := swap16_inj.mp (UInt16.toNat_inj.mp same)
  refine apart ⟨?_,isE.trans isF.symm,ports⟩
  rw [←isE] at transport
  exact transport

theorem usedPorts_inside (rep : Represents d a) (ranged : Ranged d) (transport : proto = ipProtoTcp ∨ proto = ipProtoUdp) :
    usedPorts a proto ⊆ portRange := by
  intro x member
  obtain ⟨e,listed,same⟩ := List.mem_map.mp member
  obtain ⟨inside,isProto⟩ := List.mem_filter.mp listed
  have isProto : e.2.proto = proto := by simpa using isProto
  have stored := rep.stored e inside
  have range := ranged e.1
  change (d.table e.1).toSession.proto = _ ∨ (d.table e.1).toSession.proto = _ → InRange (swap16 (d.table e.1).toSession.mport) at range
  rw [stored,isProto] at range
  rw [←same]
  exact (inRange_iff _).mp (range transport)

theorem usedPorts_length (rep : Represents d a) (transport : proto = ipProtoTcp ∨ proto = ipProtoUdp) :
    ((usedPorts a proto).length : Int) = nrActive d proto := by
  unfold usedPorts nrActive
  rw [List.length_map,←List.countP_eq_length_filter]
  rcases transport with rfl | rfl
  · rw [if_pos rfl,rep.tcp]
  · rw [if_neg udp_tcp,rep.udp]

theorem taken_exact (rep : Represents d a) (unmapped : ∀ m ∈ d.portmapTable, m.valid = false) (port : UInt16) :
    taken d quiet proto port ↔ ∃ e ∈ a.active, e.2.proto = proto ∧ e.2.mport = port := by
  have silent : ∀ proto, ipPortmapFind d proto port = none := fun _ =>
    portmapFind_none fun m member valid => by simp [unmapped m member] at valid
  unfold taken tcpListening udpListening
  rw [silent,silent,findPort_exact rep]
  simp [quiet]

-- The tests pass for some port of the range as long as the sessions do not use it up.
theorem vacant_iff (rep : Represents d a) (coherent : Coherent a.flows) (ranged : Ranged d)
    (unmapped : ∀ m ∈ d.portmapTable, m.valid = false) (transport : proto = ipProtoTcp ∨ proto = ipProtoUdp) :
    (∃ q, InRange q ∧ ¬ taken d quiet proto (swap16 q)) ↔ nrActive d proto < 12288 := by
  have counted := exists_missing (usedPorts_nodup coherent transport) (usedPorts_inside rep ranged transport)
    (show portRange.Nodup from List.nodup_range')
  have size : portRange.length = 12288 := List.length_range' ..
  have free : ∀ q, InRange q ∧ ¬ taken d quiet proto (swap16 q) ↔ q.toNat ∈ portRange ∧ q.toNat ∉ usedPorts a proto := by
    intro q
    rw [inRange_iff,taken_exact rep unmapped,mem_usedPorts]
  have length := usedPorts_length rep transport
  rw [size] at counted
  constructor
  · rintro ⟨q,vacant⟩
    have shorter := counted.mp ⟨q.toNat,(free q).mp vacant⟩
    omega
  · intro fewer
    obtain ⟨x,member,missing⟩ := counted.mpr (by omega)
    obtain ⟨_,small⟩ := List.mem_range'_1.mp member
    have back : (UInt16.ofNat x).toNat = x := UInt16.toNat_ofNat_of_lt' (by change x < 65536; omega)
    refine ⟨UInt16.ofNat x,(free _).mpr ?_⟩
    rw [back]
    exact ⟨member,missing⟩

theorem finishes_iff (rep : Represents d a) (coherent : Coherent a.flows) (ranged : Ranged d)
    (unmapped : ∀ m ∈ d.portmapTable, m.valid = false) (transport : proto = ipProtoTcp ∨ proto = ipProtoUdp) :
    Finishes d quiet proto ↔ nrActive d proto < 12288 := by
  rw [←vacant_iff rep coherent ranged unmapped transport]
  constructor
  · intro finishes
    exact finishes.1
  · rintro ⟨q,range,free⟩
    refine ⟨⟨q,range,free⟩,?_⟩
    obtain ⟨draw,drawn⟩ := drawn_all range
    rw [←drawn] at free
    exact ⟨[draw],_,newPortLoop_first (untaken_asked rep free) free⟩

theorem Represents.room_left (rep : Represents d a) (fewer : a.active.length < d.naptMax) : a.free ≠ [] := by
  intro none
  have all : List.range d.naptMax ⊆ a.slots := fun i member => by
    rcases (rep.covers i).mpr (List.mem_range.mp member) with inUse | free
    · exact inUse
    · rw [none] at free
      cases free
  have fits := (List.subperm_of_subset List.nodup_range all).length_le
  simp only [Sessions.slots,List.length_range,List.length_map] at fits
  omega

theorem Represents.slot_left (rep : Represents d a) (slot : d.free ≠ noIdx) : a.active.length < d.naptMax := by
  have atFree : d.free = a.free.head?.getD noIdx := rep.shape.spare_first
  cases room : a.free with
  | nil =>
    rw [room] at atFree
    exact absurd atFree slot
  | cons i rest =>
    have foreign : i ∉ a.slots := fun inUse => List.disjoint_of_nodup_append rep.shape.apart inUse (by simp [room])
    have inside : (i :: a.slots) ⊆ List.range d.naptMax := fun j member => by
      rw [List.mem_range,←rep.covers j]
      rcases List.mem_cons.mp member with rfl | old
      · exact .inr (by simp [room])
      · exact .inl old
    have fits := (List.subperm_of_subset (List.nodup_cons.mpr ⟨foreign,rep.slots_nodup⟩) inside).length_le
    simpa [Sessions.slots,Nat.succ_le_iff] using fits

end Counted

-- With neither pcbs nor mappings the search can end in a state of a run exactly when
-- the protocol has fewer sessions than the range has ports.
theorem port_search_finishes (run : Run natMax portmapMax past s) (unmapped : ∀ m ∈ s.data.portmapTable, m.valid = false)
    (transport : proto = ipProtoTcp ∨ proto = ipProtoUdp) :
    Finishes s.data quiet proto ↔ nrActive s.data proto < 12288 := by
  obtain ⟨a,sound⟩ := run_sound run
  exact finishes_iff sound.represents sound.coherent (run_ranged run) unmapped transport

-- A table no larger than the range never uses it up while one of its slots is free.
theorem small_table_finishes (run : Run natMax portmapMax past s) (small : natMax.toNat ≤ 12288) (slot : s.data.free ≠ noIdx)
    (unmapped : ∀ m ∈ s.data.portmapTable, m.valid = false) (transport : proto = ipProtoTcp ∨ proto = ipProtoUdp) :
    Finishes s.data quiet proto := by
  obtain ⟨a,sound⟩ := run_sound run
  refine (finishes_iff sound.represents sound.coherent (run_ranged run) unmapped transport).mpr ?_
  have size := sound.size
  have fewer := sound.represents.slot_left slot
  have length := usedPorts_length sound.represents transport
  have part : (usedPorts a proto).length ≤ a.active.length := by
    unfold usedPorts
    rw [List.length_map]
    exact List.length_filter_le ..
  omega

-- 192.168.4.2 opens one connection after the other from port 1024 on, all at once.
def arrival (k : Nat) : Datagram := .tcp 0x0204a8c0 (swap16 (UInt16.ofNat (1024 + k))) 0x08080808 0x5000 tcpSyn

structure Crowd (k : Nat) (s : System) (a : Sessions) : Prop where
  sound : Sound 12289 s.data a
  ranged : Ranged s.data
  clock : s.clock = 0
  unmapped : s.data.portmapTable = []
  many : a.active.length = k
  sessions : ∀ e ∈ a.active, e.2.proto = ipProtoTcp ∧ e.2.last = 0 ∧ ∃ j < k, e.2.sport = swap16 (UInt16.ofNat (1024 + j))

section Arrival
variable (k : Nat)

theorem arrival_sender : sender (arrival k).packet = swap16 (UInt16.ofNat (1024 + k)) :=
  (sender_transport (.inl (tcp_proto ..))).trans (tcp_sport ..)

theorem arrival_port (small : k < 12288) : (UInt16.ofNat (1024 + k)).toNat = 1024 + k :=
  UInt16.toNat_ofNat_of_lt' (by change 1024 + k < 65536; omega)

theorem arrival_opening (small : k < 12288) : Opening (arrival k).packet := by
  refine (opening_transport (.inl (tcp_proto ..))).mpr ⟨fun _ => ?_,?_⟩
  · rw [tcp_flags]
    decide
  · rw [tcp_sport,swap16_swap16]
    refine UInt16.le_iff_toNat_le.mpr ?_
    rw [arrival_port k small]
    change 1024 ≤ 1024 + k
    omega

theorem arrival_drawn (small : k < 12288) : ipNaptNewPort d pcbs proto (swap16 (UInt16.ofNat (1024 + k))) draws =
    newPortLoop d pcbs proto draws := by
  unfold ipNaptNewPort
  rw [swap16_swap16]
  refine if_neg fun range => ?_
  have high := UInt16.le_iff_toNat_le.mp range.1
  rw [arrival_port k small] at high
  change 49152 ≤ 1024 + k at high
  omega

end Arrival

section Crowd
variable {k : Nat} {s : System} {a : Sessions}

theorem Crowd.missing (crowd : Crowd k s a) (small : k < 12288) :
    (a.find 0 (lookedUp ipProtoTcp 0x0204a8c0 (swap16 (UInt16.ofNat (1024 + k))) 0 false)).2 = none := by
  cases found : (a.find 0 (lookedUp ipProtoTcp 0x0204a8c0 (swap16 (UInt16.ofNat (1024 + k))) 0 false)).2 with
  | none => rfl
  | some x =>
    obtain ⟨member,_,hit,_⟩ := Sessions.find_some (i:=x.1) (e:=x.2) found
    obtain ⟨_,_,sport⟩ := lookedUp_inside hit
    obtain ⟨_,_,j,before,own⟩ := crowd.sessions x member
    have same := congrArg UInt16.toNat (swap16_inj.mp (own.symm.trans sport))
    rw [arrival_port j (by omega),arrival_port k small] at same
    omega

theorem Crowd.kept (crowd : Crowd k s a) (small : k < 12288) :
    (a.find 0 (lookedUp ipProtoTcp 0x0204a8c0 (swap16 (UInt16.ofNat (1024 + k))) 0 false)).1.active = a.active := by
  rw [(Sessions.find_none (crowd.missing small)).2]
  refine List.filter_eq_self.mpr fun e member => ?_
  obtain ⟨proto,last,_⟩ := crowd.sessions e member
  simp [expired,proto,last]

theorem Crowd.more (crowd : Crowd k s a) (small : k < 12288)
    (rep1 : Represents d1 (a.find 0 (lookedUp ipProtoTcp 0x0204a8c0 (swap16 (UInt16.ofNat (1024 + k))) 0 false)).1)
    (fixed : Fixed s.data d1)
    (added : Added a 0 ipProtoTcp 0x0204a8c0 (swap16 (UInt16.ofNat (1024 + k))) dest dport a' mport) :
    a'.active.length = k + 1 ∧
    ∀ e ∈ a'.active, e.2.proto = ipProtoTcp ∧ e.2.last = 0 ∧ ∃ j < k + 1, e.2.sport = swap16 (UInt16.ofNat (1024 + j)) := by
  cases added with
  | reused found =>
    rw [crowd.missing small] at found
    cases found
  | opened missing room unused kept =>
    unfold Sessions.opened
    rw [crowd.kept small]
    refine ⟨congrArg (· + 1) crowd.many,?_⟩
    intro e member
    rcases List.mem_cons.mp member with rfl | old
    · exact ⟨rfl,rfl,k,Nat.lt_succ_self k,rfl⟩
    · obtain ⟨proto,last,j,before,own⟩ := crowd.sessions e old
      exact ⟨proto,last,j,by omega,own⟩
  | full missing room =>
    refine absurd room (rep1.room_left ?_)
    rw [crowd.kept small,crowd.many,fixed.2,crowd.sound.size]
    change k < 12289
    omega

theorem insert_not_stuck (d : NaptData) (i : Nat) : ipNaptInsert d i ≠ .error .draws := by
  unfold ipNaptInsert
  split_ifs <;> simp

theorem add_not_stuck {src : UInt32} {sport dport : UInt16} {dest : UInt32} {draws : List Draw}
    (searched : ipNaptFind d now ipProtoTcp src sport 0 false = .ok (d1,none))
    (chosen : ipNaptNewPort d1 pcbs ipProtoTcp sport draws = .ok port) :
    ipNaptAdd d now pcbs draws ipProtoTcp src sport dest dport ≠ .error .draws := by
  unfold ipNaptAdd
  rw [searched,ok_then]
  dsimp only
  by_cases full : d1.free = noIdx
  · rw [if_pos full]
    exact fun stuck => by cases stuck
  · rw [if_neg full,if_pos rfl,chosen,ok_then,if_neg udp_tcp.symm]
    have placed := insert_not_stuck (d1.modify d1.free fun t =>
      {t with toSession := ⟨now,src,dest,sport,dport,port,ipProtoTcp,false,false,false,false,false,false⟩}) d1.free
    change (ipNaptInsert _ _ >>= fun d => pure (d,port)) ≠ _
    intro stuck
    cases ran : ipNaptInsert (d1.modify d1.free fun t =>
      {t with toSession := ⟨now,src,dest,sport,dport,port,ipProtoTcp,false,false,false,false,false,false⟩}) d1.free with
    | error fault =>
      rw [ran] at placed stuck
      cases stuck
      exact placed rfl
    | ok d2 =>
      rw [ran] at stuck
      cases stuck

theorem Crowd.finds (crowd : Crowd k s a) (small : k < 12288) :
    ∃ draws, ipNaptAdd s.data 0 quiet draws ipProtoTcp 0x0204a8c0 (swap16 (UInt16.ofNat (1024 + k)))
      (iphDest (arrival k).packet) (receiver (arrival k).packet) ≠ .error .draws := by
  obtain ⟨d1,searched,rep1,fixed⟩ := find_refines crowd.sound.represents 0 ipProtoTcp 0x0204a8c0 (swap16 (UInt16.ofNat (1024 + k))) 0 false
  rw [crowd.missing small] at searched
  have coherent1 := crowd.sound.coherent.sublist
    (find_flows a 0 (lookedUp ipProtoTcp 0x0204a8c0 (swap16 (UInt16.ofNat (1024 + k))) 0 false))
  have ranged1 := crowd.ranged.find searched
  have unmapped1 : ∀ m ∈ d1.portmapTable, m.valid = false := by
    intro m member
    rw [fixed.1,crowd.unmapped] at member
    cases member
  have few : nrActive d1 ipProtoTcp < 12288 := by
    have part := List.countP_le_length (p:=fun e : Nat × Session => decide (e.2.proto = ipProtoTcp))
      (l:=(a.find 0 (lookedUp ipProtoTcp 0x0204a8c0 (swap16 (UInt16.ofNat (1024 + k))) 0 false)).1.active)
    have counted := rep1.tcp
    rw [crowd.kept small] at part
    rw [crowd.kept small] at counted
    have many := crowd.many
    unfold nrActive
    rw [if_pos rfl,counted]
    omega
  obtain ⟨_,draws,port,chosen⟩ := (finishes_iff rep1 coherent1 ranged1 unmapped1 (.inl rfl)).mpr few
  rw [←arrival_drawn k small] at chosen
  exact ⟨draws,add_not_stuck searched chosen⟩

theorem Crowd.next (crowd : Crowd k s a) (small : k < 12288) : ∃ x next a', Step s x next ∧ Crowd (k+1) next a' := by
  have rep := crowd.sound.represents
  have tcp : iphProto (arrival k).packet = ipProtoTcp := tcp_proto ..
  obtain ⟨d1,searched,rep1,fixed⟩ := find_refines rep 0 ipProtoTcp 0x0204a8c0 (swap16 (UInt16.ofNat (1024 + k))) 0 false
  obtain ⟨draws,notStuck⟩ := crowd.finds small
  rcases add_refines rep 0 quiet draws ipProtoTcp 0x0204a8c0 (swap16 (UInt16.ofNat (1024 + k))) (iphDest (arrival k).packet)
    (receiver (arrival k).packet) with stuck | ⟨d',a',mport,ran,added,rep',fixed'⟩
  · exact absurd stuck.1 notStuck
  have src : iphSrc (arrival k).packet = 0x0204a8c0 := tcp_src ..
  have silent : ipPortmapFindDest s.data (iphProto (arrival k).packet) (portSrc (arrival k).packet) (iphSrc (arrival k).packet) = none :=
    portmapFindDest_none fun m member => by rw [crowd.unmapped] at member; cases member
  have forwarded : ipNaptForward s.data 0 quiet draws lan wan (arrival k).packet =
      .ok ⟨d',toOutside (arrival k).packet mport wan.ipAddr,.ok,false⟩ := by
    rw [forward_transport s.data 0 quiet draws wan rfl (.inl tcp),silent]
    dsimp only
    rw [if_pos (arrival_opening k small),tcp,src,arrival_sender,ran]
    rfl
  have step : Step s ⟨0,.forward quiet draws lan wan (arrival k),.forwarded (toOutside (arrival k).packet mport wan.ipAddr) .ok false⟩
      ⟨0,d'⟩ := by
    refine ⟨Nat.le_of_eq crowd.clock,rfl,?_⟩
    change (ipNaptForward s.data 0 quiet draws lan wan (arrival k).packet >>= _) = _
    rw [forwarded]
    rfl
  have coherent' := added.coherent rep.slots_nodup crowd.sound.coherent fun icmp => absurd icmp tcp_icmp
  obtain ⟨many,sessions⟩ := crowd.more small rep1 fixed added
  exact ⟨_,_,a',step,⟨rep',coherent',fixed'.2.trans crowd.sound.size⟩,crowd.ranged.add ran,rfl,fixed'.1.trans crowd.unmapped,
    many,sessions⟩

theorem crowd_run (k : Nat) (small : k ≤ 12288) : ∃ past s a, Run 12289 0 past s ∧ Crowd k s a := by
  induction k with
  | zero =>
    refine ⟨[],fresh 12289 0,_,fresh_run (by decide) .nil,empty_sound 0 (by decide),empty_ranged 12289 0,rfl,rfl,rfl,?_⟩
    intro e member
    cases member
  | succ k ih =>
    obtain ⟨past,s,a,⟨calloc,start,ran,path⟩,crowd⟩ := ih (by omega)
    obtain ⟨x,next,a',step,crowd'⟩ := crowd.next small
    exact ⟨past ++ [x],next,a',⟨calloc,start,ran,path.step step⟩,crowd'⟩

theorem Crowd.nrActive (crowd : Crowd k s a) : nrActive s.data ipProtoTcp = k := by
  have all : a.active.countP (fun e => decide (e.2.proto = ipProtoTcp)) = a.active.length :=
    List.countP_eq_length.mpr fun e member => by simp [(crowd.sessions e member).1]
  unfold Napt.nrActive
  rw [if_pos rfl,crowd.sound.represents.tcp,all,crowd.many]

theorem Crowd.invalid (crowd : Crowd k s a) : ∀ m ∈ s.data.portmapTable, m.valid = false := by
  intro m member
  rw [crowd.unmapped] at member
  cases member

end Crowd

-- With 12287 connections open the last port of the range is still found.
theorem last_port_found : ∃ s : System, nrActive s.data ipProtoTcp = 12287 ∧ Finishes s.data quiet ipProtoTcp := by
  obtain ⟨past,s,a,run,crowd⟩ := crowd_run 12287 (by omega)
  have count := crowd.nrActive
  exact ⟨s,count,(port_search_finishes run crowd.invalid (.inl rfl)).mpr (by omega)⟩

-- With 12288 connections open and one slot left every port of the range is taken.
theorem port_search_stuck : ¬ ∀ (natMax : UInt16) (portmapMax : UInt8) (past : List Deed) (s : System) (proto : UInt8),
    Run natMax portmapMax past s → s.data.free ≠ noIdx → (∀ m ∈ s.data.portmapTable, m.valid = false) →
    proto = ipProtoTcp ∨ proto = ipProtoUdp → Finishes s.data quiet proto := by
  intro finishes
  obtain ⟨past,s,a,run,crowd⟩ := crowd_run 12288 (Nat.le_refl _)
  have rep := crowd.sound.represents
  have slot : s.data.free ≠ noIdx := by
    have atFree : s.data.free = a.free.head?.getD noIdx := rep.shape.spare_first
    have room := rep.room_left (by rw [crowd.many,crowd.sound.size]; decide)
    obtain ⟨i,rest,split⟩ := List.exists_cons_of_ne_nil room
    rw [atFree,split]
    exact rep.shape.spares.cells_exist i (by simp [split])
  have fewer := (finishes_iff rep crowd.sound.coherent crowd.ranged crowd.invalid (.inl rfl)).mp
    (finishes 12289 0 past s ipProtoTcp run slot crowd.invalid (.inl rfl))
  have count := crowd.nrActive
  omega

end NonosLinkLayer.Napt
