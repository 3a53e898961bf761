import NonosLinkLayer.Napt.Mappings

namespace NonosLinkLayer.Napt
open PackedTable Transitions

def Served (d : NaptData) (p : Packet) : Prop :=
  Transport p ∧ ∃ m ∈ d.portmapTable, m.valid = true ∧ m.proto = iphProto p ∧ m.dport = portSrc p ∧ m.daddr = iphSrc p

-- What left as `q` can be led back to the source of `p`.
def MapsBack (d : NaptData) (p q : Packet) : Prop :=
  (∃ i ∈ activeChain d, (d.table i).proto = iphProto p ∧ (d.table i).src = iphSrc p ∧
    (d.table i).sport = sender p ∧ (d.table i).mport = sender q) ∨
  Transport p ∧ ∃ m ∈ d.portmapTable, m.valid = true ∧ m.proto = iphProto p ∧ m.dport = portSrc p ∧
    m.daddr = iphSrc p ∧ m.mport = portSrc q

instance (d : NaptData) (p q : Packet) : Decidable (MapsBack d p q) := inferInstanceAs (Decidable (_ ∨ _))

def AllOrNothing (p : Packet) (r : Forwarded) : Prop :=
  r.err = .ok ∧ MapsBack r.data p r.packet ∨ r.err ≠ .ok ∧ r.packet = p

-- There is a mapping for the source of this packet, or an unexpired session, or
-- a slot for a new one.
def Room (natMax : UInt16) (d : NaptData) (now : UInt32) (p : Packet) : Prop :=
  Served d p ∨
  (∃ i ∈ activeChain d, expired now (d.table i).toSession = false ∧ (d.table i).proto = iphProto p ∧
    (d.table i).src = iphSrc p ∧ (d.table i).sport = sender p) ∨
  ∃ i < natMax.toNat, i ∉ activeChain d ∨ expired now (d.table i).toSession = true

section Room
variable {d : NaptData} {a : Sessions} {p : Packet}

theorem served_found (mapped : Mapped d full) (served : Served d p) :
    ∃ k m, ipPortmapFindDest d (iphProto p) (portSrc p) (iphSrc p) = some (k,m) := by
  obtain ⟨_,m,member,valid,proto,dport,daddr⟩ := served
  cases found : ipPortmapFindDest d (iphProto p) (portSrc p) (iphSrc p) with
  | some x => exact ⟨x.1,x.2,rfl⟩
  | none =>
    have missed := (Holds.scan_none mapped).mp found m (mapped.mem.mpr ⟨member,valid⟩)
    simp [proto,dport,daddr] at missed

theorem outKey_ends {e : Session} : outKey p e = true ↔ e.proto = iphProto p ∧ e.src = iphSrc p ∧ e.sport = sender p := by
  simp [outKey,lookedUp,and_assoc]

-- A lookup in vain leaves a free slot behind exactly when one was free or expired.
theorem spare_slot (rep : Represents d a) (missing : (a.find now (outKey p)).2 = none) :
    (∃ i < d.naptMax, ∀ e, (i,e) ∈ a.active → expired now e = true) ↔ (a.find now (outKey p)).1.free ≠ [] := by
  obtain ⟨d',_,rep',_,size⟩ := find_refines rep now (iphProto p) (iphSrc p) (sender p) 0 false
  change Represents d' (a.find now (outKey p)).1 at rep'
  obtain ⟨_,listed⟩ := Sessions.find_none missing
  constructor
  · rintro ⟨i,small,dead⟩ none
    rcases (rep'.covers i).mpr (size ▸ small) with inUse | free
    · obtain ⟨x,member,same⟩ := List.mem_map.mp inUse
      rw [listed] at member
      obtain ⟨old,live⟩ := List.mem_filter.mp member
      subst same
      simp [dead x.2 old] at live
    · rw [none] at free
      cases free
  · intro some
    obtain ⟨i,rest,split⟩ := List.exists_cons_of_ne_nil some
    have free : i ∈ (a.find now (outKey p)).1.free := by simp [split]
    refine ⟨i,size ▸ (rep'.covers i).mp (.inr free),fun e member => ?_⟩
    cases live : expired now e with
    | true => rfl
    | false =>
      have stays : i ∈ (a.find now (outKey p)).1.slots :=
        List.mem_map.mpr ⟨(i,e),by rw [listed]; exact List.mem_filter.mpr ⟨member,by simp [live]⟩,rfl⟩
      exact absurd free (List.disjoint_of_nodup_append rep'.shape.apart stays)

theorem Sound.slot (sound : Sound natMax d a) (i : Nat) :
    (i ∉ activeChain d ∨ expired now (d.table i).toSession = true) ↔ ∀ e, (i,e) ∈ a.active → expired now e = true := by
  constructor
  · intro idle e member
    obtain ⟨listed,same⟩ := sound.listed member
    rcases idle with unused | dead
    · exact absurd listed unused
    · rw [←same]
      exact dead
  · intro dead
    by_cases listed : i ∈ activeChain d
    · exact .inr (dead _ (sound.entry listed))
    · exact .inl listed

-- A port that is not the identifier of an echo can be any.
theorem toOutside_sender {p : Datagram} (mport : UInt16) (addr : UInt32) (outbound : Outbound p.packet)
    (echo : iphProto p.packet = ipProtoIcmp → mport = sender p.packet) :
    sender (toOutside p.packet mport addr) = mport := by
  rcases outbound with ⟨icmp,_⟩ | transport
  · rw [toOutside_icmp_sender icmp p.header,echo icmp]
    simp [sender,icmp]
  · exact toOutside_transport_sender transport p.header

theorem Room.idle (sound : Sound natMax d a) (missing : (a.find now (outKey p)).2 = none)
    (unserved : ¬ Served d p) : Room natMax d now p ↔ (a.find now (outKey p)).1.free ≠ [] := by
  rw [←spare_slot sound.represents missing]
  constructor
  · rintro (served | ⟨i,listed,live,own⟩ | ⟨i,small,idle⟩)
    · exact absurd served unserved
    · have missed := (Sessions.find_none missing).1 _ (sound.entry listed) live
      rw [outKey_ends.mpr own] at missed
      cases missed
    · exact ⟨i,sound.size ▸ small,(sound.slot i).mp idle⟩
  · rintro ⟨i,small,dead⟩
    exact .inr (.inr ⟨i,sound.size ▸ small,(sound.slot i).mpr dead⟩)

theorem Added.mapsBack {p : Datagram} (sound : Sound natMax d a) (sound' : Sound natMax d' a') (fixed : Fixed d d')
    (opening : Opening p.packet) (unserved : ¬ Served d p.packet)
    (added : Added a now (iphProto p.packet) (iphSrc p.packet) (sender p.packet) (iphDest p.packet)
      (receiver p.packet) a' mport) :
    MapsBack d' p.packet (toOutside p.packet mport addr) ↔ Room natMax d now p.packet := by
  have outward := toOutside_sender mport addr opening.outbound
  cases added with
  | @reused i e found =>
    obtain ⟨member,live,hit,_⟩ := Sessions.find_some found
    obtain ⟨proto,src,sport⟩ := lookedUp_inside hit
    obtain ⟨listed,same⟩ := sound.listed member
    obtain ⟨listed',same'⟩ := sound'.listed (List.mem_cons_self ..)
    have sent := outward fun icmp =>
      (sound.coherent.echoes e.flow (List.mem_map.mpr ⟨_,member,rfl⟩) (proto.trans icmp)).2.trans sport
    refine iff_of_true (.inl ⟨i,listed',?_⟩) (.inr (.inl ⟨i,listed,?_⟩))
    · rw [same',sent]
      exact ⟨proto,src,sport,rfl⟩
    · rw [same]
      exact ⟨live,proto,src,sport⟩
  | @opened i free mport missing room unused kept =>
    obtain ⟨listed',same'⟩ := sound'.listed (List.mem_cons_self ..)
    have sent := outward fun icmp => kept (by rw [icmp]; decide) (by rw [icmp]; decide)
    refine iff_of_true (.inl ⟨i,listed',?_⟩) ((Room.idle sound missing unserved).mpr ?_)
    · rw [same',sent]
      exact ⟨rfl,rfl,rfl,rfl⟩
    · change (a.find now (outKey p.packet)).1.free = _ at room
      rw [room]
      simp
  | full missing room =>
    refine iff_of_false ?_ fun some => (Room.idle sound missing unserved).mp some room
    rintro (⟨i,listed,own⟩ | ⟨transport,m,member,valid,proto,dport,daddr,_⟩)
    · have member := sound'.entry listed
      obtain ⟨foreign,same⟩ := Sessions.find_none missing
      rw [same] at member
      obtain ⟨old,live⟩ := List.mem_filter.mp member
      have missed := foreign _ old (by simpa using live)
      have hit : outKey p.packet (d'.table i).toSession = true := outKey_ends.mpr ⟨own.1,own.2.1,own.2.2.1⟩
      exact absurd (hit.symm.trans missed) (by decide)
    · exact unserved ⟨transport,m,fixed.1 ▸ member,valid,proto,dport,daddr⟩

end Room

-- A packet that opens a session is translated in full unless the table is full.
-- Then it goes out all the same, from port 0 if it has ports.
theorem all_or_nothing (run : Run natMax portmapMax past s) (p : Datagram) (opening : Opening p.packet)
    (on : inp.napt = true) (ran : ipNaptForward s.data now pcbs draws inp outp p.packet = .ok r) :
    AllOrNothing p.packet r ↔ Room natMax s.data now p.packet := by
  obtain ⟨a,sound⟩ := run_sound run
  obtain ⟨full,mapped,_⟩ := run_mapped run
  rcases forward_refines sound.represents now pcbs draws inp outp p.packet with ⟨stuck,_⟩ | ⟨r',a',ran',outcome,rep',fixed⟩
  · rw [ran] at stuck
    cases stuck
  · rw [ran] at ran'
    cases ran'
    have sound' : Sound natMax r.data a' :=
      ⟨rep',outcome.coherent sound.represents.slots_nodup sound.coherent,fixed.2.trans sound.size⟩
    obtain ⟨data,packet,err,unreach⟩ := r
    cases outcome with
    | off off => rw [off] at on; cases on
    | ignored _ other => exact absurd opening.outbound other
    | @mapped k m _ transport found =>
      obtain ⟨member,valid,proto,dport,daddr⟩ := portmapFindDest_some found
      refine iff_of_true (.inl ⟨rfl,.inr ⟨transport,m,fixed.1 ▸ member,valid,proto,dport,daddr,?_⟩⟩)
        (.inl ⟨transport,m,member,valid,proto,dport,daddr⟩)
      exact (toOutside_portSrc transport p.header).symm
    | registered _ _ unmapped added =>
      have unserved : ¬ Served s.data p.packet := by
        intro served
        obtain ⟨k,m,found⟩ := served_found mapped served
        rw [unmapped served.1] at found
        cases found
      rw [←added.mapsBack sound sound' fixed opening unserved]
      exact ⟨fun all => all.elim And.right fun no => absurd rfl no.1,fun back => .inl ⟨rfl,back⟩⟩
    | continued _ _ midway => exact absurd opening midway
    | refused _ _ midway => exact absurd opening midway

def crowded : List (Nat × Event) := [(0,.forward quiet [⟨0,0⟩] lan wan (.udp 0x0204a8c0 0x3905 0x08080808 0x3500))]
def latecomer : Datagram := .udp 0x0304a8c0 0x3905 0x08080808 0x3500

theorem latecomer_translated : ∃ (s : System) (r : Forwarded),
    ipNaptForward s.data 2001 quiet [⟨1,0⟩] lan wan latecomer.packet = .ok r ∧ AllOrNothing latecomer.packet r := by
  obtain ⟨s,deeds,path,_,asked⟩ := arrives_runs (fresh 1 0) crowded
    (fun s _ => activeChain s.data == [0] && expired 2001 (s.data.table 0).toSession &&
      (ipNaptForward s.data 2001 quiet [⟨1,0⟩] lan wan latecomer.packet).isOk) (by decide +kernel) (by decide)
  simp only [Bool.and_eq_true] at asked
  obtain ⟨⟨_,dead⟩,result⟩ := asked
  cases ran : ipNaptForward s.data 2001 quiet [⟨1,0⟩] lan wan latecomer.packet with
  | error fault => simp [ran,Except.isOk,Except.toBool] at result
  | ok r => exact ⟨s,r,ran,(all_or_nothing (fresh_run (by decide) path) latecomer (by decide) rfl ran).mpr
      (.inr (.inr ⟨0,by decide,.inr dead⟩))⟩

-- While the session of the first host is fresh, the second goes out from port 0.
theorem latecomer_lost : ∃ (past : List Deed) (s : System) (r : Forwarded),
    Run 1 0 past s ∧ Opening latecomer.packet ∧
    ipNaptForward s.data 1000 quiet [] lan wan latecomer.packet = .ok r ∧ r.err = .ok ∧
    iphSrc r.packet = 0x0200000a ∧ portSrc r.packet = 0 ∧ ¬ AllOrNothing latecomer.packet r := by
  obtain ⟨s,deeds,path,_,asked⟩ := arrives_runs (fresh 1 0) crowded
    (fun s _ => (ipNaptForward s.data 1000 quiet [] lan wan latecomer.packet).toOption.any fun r =>
      r.err == .ok && iphSrc r.packet == 0x0200000a && portSrc r.packet == 0 &&
        !decide (MapsBack r.data latecomer.packet r.packet)) (by decide +kernel) (by decide)
  cases ran : ipNaptForward s.data 1000 quiet [] lan wan latecomer.packet with
  | error fault => simp [ran,Except.toOption] at asked
  | ok r =>
    simp only [ran,Except.toOption,Option.any_some,Bool.and_eq_true,beq_iff_eq,Bool.not_eq_true',decide_eq_false_iff_not] at asked
    obtain ⟨⟨⟨ok,src⟩,port⟩,lost⟩ := asked
    exact ⟨deeds,s,r,fresh_run (by decide) path,by decide,ran,ok,src,port,
      fun all => all.elim (fun back => lost back.2) fun no => no.1 ok⟩

end NonosLinkLayer.Napt
