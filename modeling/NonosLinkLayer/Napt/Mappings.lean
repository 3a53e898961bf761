import NonosLinkLayer.Napt.Independence
import Mathlib.Data.Finmap

namespace NonosLinkLayer.Napt
open ByteMemory PackedTable Transitions

-- A port on the outside, and what it stands for. Ports are in host order.
structure Key where
  proto : UInt8
  mport : UInt16
  deriving DecidableEq, Repr

structure Target where
  maddr : UInt32
  daddr : UInt32
  dport : UInt16
  deriving DecidableEq, Repr

abbrev Mapping := Finmap fun _ : Key => Target

def PortmapTable.key (p : PortmapTable) : Key := ⟨p.proto,swap16 p.mport⟩
def PortmapTable.target (p : PortmapTable) : Target := ⟨p.maddr,p.daddr,swap16 p.dport⟩

inductive Call where
  | add (key : Key) (target : Target)
  | remove (key : Key)

def Call.run (d : NaptData) : Call → NaptData × UInt8
  | .add key target => ipPortmapAdd d key.proto target.maddr key.mport target.daddr target.dport
  | .remove key => ipPortmapRemove d key.proto key.mport

-- What the header says the calls do to a map with room for so many keys: the
-- same mapping registered again overwrites the old one.
def Call.spec (room : Nat) (m : Mapping) : Call → Mapping × UInt8
  | .add key target => if key ∈ m ∨ m.keys.card < room then (m.insert key target,1) else (m,0)
  | .remove key => if key ∈ m then (m.erase key,1) else (m,0)

-- The table is this map: a key has at most one valid entry, which holds its
-- target and is found for it.
structure Shows (room : Nat) (d : NaptData) (m : Mapping) : Prop where
  once : ∀ key, (d.portmapTable.filter fun p => p.valid && p.key == key).map PortmapTable.target = (m.lookup key).toList
  finds : ∀ key, (ipPortmapFind d key.proto (swap16 key.mport)).map (fun x => x.2.target) = m.lookup key
  fits : m.keys.card ≤ room

def Agrees (room : Nat) : NaptData → Mapping → List Call → Prop
  | d,m,[] => Shows room d m
  | d,m,call :: rest => Shows room d m ∧ (call.run d).2 = (call.spec room m).2 ∧
      Agrees room (call.run d).1 (call.spec room m).1 rest

def Call.fresh (d : NaptData) : Call → Prop
  | .add key _ => ipPortmapFind d key.proto (swap16 key.mport) = none
  | .remove _ => True

instance (d : NaptData) (call : Call) : Decidable (call.fresh d) :=
  match call with
  | .add key _ => inferInstanceAs (Decidable (ipPortmapFind d key.proto (swap16 key.mport) = none))
  | .remove _ => inferInstanceAs (Decidable True)

def Fresh : NaptData → List Call → Prop
  | _,[] => True
  | d,call :: rest => call.fresh d ∧ Fresh (call.run d).1 rest

def Pictures (full : List PortmapTable) (m : Mapping) : Prop :=
  ∀ key, (full.filter fun p => p.key == key).map PortmapTable.target = (m.lookup key).toList

section Pictures
variable {full before after : List PortmapTable} {m : Mapping} {d : NaptData} {key : Key} {target : Target} {p : PortmapTable}

theorem key_iff : p.proto = key.proto ∧ p.mport = swap16 key.mport ↔ p.key = key := by
  obtain ⟨proto,mport⟩ := key
  have port : p.mport = swap16 mport ↔ swap16 p.mport = mport := by
    rw [←swap16_inj,swap16_swap16]
  simp only [PortmapTable.key,Key.mk.injEq,port]

theorem key_matches (p : PortmapTable) (key : Key) :
    (p.proto == key.proto && p.mport == swap16 key.mport) = (p.key == key) := by
  apply Bool.eq_iff_iff.mpr
  simp only [Bool.and_eq_true,beq_iff_eq,key_iff]

theorem Pictures.mem (pictures : Pictures full m) : key ∈ m ↔ ∃ p ∈ full, p.key = key := by
  rw [←Finmap.lookup_isSome,Option.isSome_iff_ne_none,ne_eq,←Option.toList_eq_nil_iff,←pictures key,
    List.map_eq_nil_iff,List.filter_eq_nil_iff]
  simp

theorem Pictures.card (pictures : Pictures full m) : m.keys.card = full.length := by
  have distinct : (full.map PortmapTable.key).Nodup := by
    refine List.nodup_iff_count_le_one.mpr fun key => ?_
    have single := congrArg List.length (pictures key)
    rw [List.length_map,←List.countP_eq_length_filter] at single
    rw [List.count,List.countP_map]
    have few : (m.lookup key).toList.length ≤ 1 := by cases m.lookup key <;> simp
    exact single.trans_le few
  have same : m.keys = (full.map PortmapTable.key).toFinset := by
    ext key
    rw [Finmap.mem_keys,pictures.mem,List.mem_toFinset,List.mem_map]
  rw [same,List.toFinset_card_of_nodup distinct,List.length_map]

theorem Pictures.append (pictures : Pictures full m) (foreign : p.key ∉ m) :
    Pictures (full ++ [p]) (m.insert p.key p.target) := by
  intro key
  rw [List.filter_append,List.map_append,pictures key]
  by_cases same : p.key = key
  · subst same
    rw [Finmap.lookup_insert,Finmap.lookup_eq_none.mpr foreign]
    simp
  · rw [Finmap.lookup_insert_of_ne _ fun back => same back.symm]
    simp [same]

theorem Pictures.erase (pictures : Pictures (before ++ p :: after) m) : Pictures (before ++ after) (m.erase p.key) := by
  intro key
  have split := pictures key
  rw [List.filter_append,List.map_append] at split ⊢
  by_cases same : p.key = key
  · subst same
    rw [Finmap.lookup_erase]
    rw [List.filter_cons_of_pos (by simp),List.map_cons] at split
    cases looked : m.lookup p.key with
    | none => simp [looked] at split
    | some target =>
      rw [looked] at split
      rcases List.append_eq_cons_iff.mp split with ⟨none,rest⟩ | ⟨tail,_,impossible⟩
      · rw [none,(List.cons.inj rest).2]
        rfl
      · simp at impossible
  · rw [Finmap.lookup_erase_ne fun back => same back.symm,←split,List.filter_cons_of_neg (by simpa using same)]

theorem Mapped.keyed (mapped : Mapped d full) (key : Key) :
    (d.portmapTable.filter fun p => p.valid && p.key == key) = full.filter fun p => p.key == key := by
  rw [←mapped.filter,List.filter_filter]
  simp only [Bool.and_comm]

theorem Pictures.shows (pictures : Pictures full m) (mapped : Mapped d full) : Shows d.portmapTable.length d m := by
  refine ⟨fun key => ?_,fun key => ?_,?_⟩
  · rw [mapped.keyed,pictures key]
  · have found := mapped.find key.proto (swap16 key.mport)
    simp only [key_matches] at found
    have first := congrArg List.head? (pictures key)
    rw [List.head?_map,List.head?_filter,←found,Option.head?_toList,Option.map_map] at first
    exact first
  · rw [pictures.card]
    exact mapped.length_le

theorem renewed_foreign (foreign : ∀ p ∈ full, p.key ≠ key) (daddr : UInt32) (dport : UInt16) :
    full.map (·.renewed key.proto (swap16 key.mport) daddr dport) = full := by
  refine (List.map_congr_left fun p member => ?_).trans (List.map_id full)
  unfold PortmapTable.renewed
  rw [key_matches,if_neg (by simpa using foreign p member)]
  rfl

@[simp] theorem renewed_key (p : PortmapTable) : (p.renewed proto mport daddr dport).key = p.key := by
  unfold PortmapTable.renewed
  split_ifs <;> rfl

theorem renewed_maddr (p : PortmapTable) : (p.renewed proto mport daddr dport).maddr = p.maddr := by
  unfold PortmapTable.renewed
  split_ifs <;> rfl

theorem find_missing (mapped : Mapped d full) :
    ipPortmapFind d key.proto (swap16 key.mport) = none ↔ ∀ p ∈ full, p.key ≠ key := by
  unfold ipPortmapFind
  rw [Holds.scan_none mapped]
  simp only [key_matches,beq_eq_false_iff_ne]

end Pictures

theorem Agrees.shows (agrees : Agrees room d m calls) : Shows room d m := by
  cases calls with
  | nil => exact agrees
  | cons call rest => exact agrees.1

theorem run_length (d : NaptData) (call : Call) : (call.run d).1.portmapTable.length = d.portmapTable.length := by
  cases call with
  | add key target => exact portmapAdd_length d
  | remove key => exact portmapRemove_length d

section Steps
variable {full : List PortmapTable} {m : Mapping} {d : NaptData} {key : Key} {target : Target}

theorem add_fresh (mapped : Mapped d full) (pictures : Pictures full m) (fresh : Call.fresh d (.add key target)) :
    (Call.run d (.add key target)).2 = (Call.spec d.portmapTable.length m (.add key target)).2 ∧
    ∃ full', Mapped (Call.run d (.add key target)).1 full' ∧
      Pictures full' (Call.spec d.portmapTable.length m (.add key target)).1 := by
  have foreign := (find_missing mapped).mp fresh
  have absent : key ∉ m := fun known => by
    obtain ⟨p,member,same⟩ := pictures.mem.mp known
    exact foreign p member same
  have added := mapped.add key.proto target.maddr key.mport target.daddr target.dport
  rw [renewed_foreign foreign] at added
  simp only [Call.run,Call.spec,pictures.card]
  by_cases room : full.length < d.portmapTable.length
  · rw [if_pos room] at added
    rw [if_pos (.inr room)]
    have held := pictures.append (p:=⟨target.maddr,target.daddr,swap16 key.mport,swap16 target.dport,key.proto,true⟩)
      (by simpa [PortmapTable.key,swap16_swap16] using absent)
    simp only [PortmapTable.key,PortmapTable.target,swap16_swap16] at held
    exact ⟨added.1,_,added.2,held⟩
  · rw [if_neg room] at added
    rw [if_neg fun yes => yes.elim absent room]
    exact ⟨added.1,full,added.2,pictures⟩

theorem remove_pictured (mapped : Mapped d full) (pictures : Pictures full m) (key : Key) (room : Nat) :
    (Call.run d (.remove key)).2 = (Call.spec room m (.remove key)).2 ∧
    ∃ full', Mapped (Call.run d (.remove key)).1 full' ∧ Pictures full' (Call.spec room m (.remove key)).1 := by
  simp only [Call.run,Call.spec]
  rcases mapped.remove key.proto key.mport with ⟨ran,missing⟩ | ⟨before,p,after,split,proto,mport,one,mapped'⟩
  · have absent : key ∉ m := fun known => by
      obtain ⟨p,member,same⟩ := pictures.mem.mp known
      exact missing p member (key_iff.mpr same)
    rw [if_neg absent,ran]
    exact ⟨rfl,full,mapped,pictures⟩
  · have same := key_iff.mp ⟨proto,mport⟩
    rw [if_pos (pictures.mem.mpr ⟨p,by simp [split],same⟩)]
    subst split
    subst same
    exact ⟨one,_,mapped',pictures.erase⟩

-- A key registered again ends up in the table twice, or is turned away.
theorem add_known (mapped : Mapped d full) (pictures : Pictures full m) (known : ¬ Call.fresh d (.add key target))
    (same : (Call.run d (.add key target)).2 = (Call.spec d.portmapTable.length m (.add key target)).2)
    (shows : Shows d.portmapTable.length (Call.run d (.add key target)).1
      (Call.spec d.portmapTable.length m (.add key target)).1) : False := by
  have found : ¬ ∀ p ∈ full, p.key ≠ key := fun foreign => known ((find_missing mapped).mpr foreign)
  push Not at found
  obtain ⟨p,member,isKey⟩ := found
  have present : key ∈ m := pictures.mem.mpr ⟨p,member,isKey⟩
  have added := mapped.add key.proto target.maddr key.mport target.daddr target.dport
  simp only [Call.run,Call.spec,present,true_or,if_true] at same shows
  by_cases room : full.length < d.portmapTable.length
  · rw [if_pos room] at added
    have new : PortmapTable.key ⟨target.maddr,target.daddr,swap16 key.mport,swap16 target.dport,key.proto,true⟩ = key := by
      simp only [PortmapTable.key,swap16_swap16]
    have once := congrArg List.length (shows.once key)
    rw [added.2.keyed,List.filter_append,Finmap.lookup_insert] at once
    have gone : ∀ p ∈ full, p.key ≠ key := by simpa [new,renewed_key] using once
    exact gone p member isKey
  · rw [if_neg room,same] at added
    exact absurd added.1 (by decide)

end Steps

-- The table is a map exactly as long as no call registers a key it holds.
theorem mappings_agree (mapped : Mapped d full) (pictures : Pictures full m) (calls : List Call) :
    Agrees d.portmapTable.length d m calls ↔ Fresh d calls := by
  induction calls generalizing d m full with
  | nil => exact ⟨fun _ => trivial,fun _ => pictures.shows mapped⟩
  | cons call rest ih =>
    have shows := pictures.shows mapped
    have onward : ∀ {full'}, (call.run d).2 = (call.spec d.portmapTable.length m).2 → Mapped (call.run d).1 full' →
        Pictures full' (call.spec d.portmapTable.length m).1 →
        (Agrees d.portmapTable.length d m (call :: rest) ↔ Fresh (call.run d).1 rest) := by
      intro full' same mapped' pictures'
      have later := ih mapped' pictures'
      rw [run_length] at later
      rw [←later]
      exact ⟨fun agrees => agrees.2.2,fun agrees => ⟨shows,same,agrees⟩⟩
    by_cases fresh : call.fresh d
    · have kept : (call.run d).2 = (call.spec d.portmapTable.length m).2 ∧ ∃ full', Mapped (call.run d).1 full' ∧
          Pictures full' (call.spec d.portmapTable.length m).1 := by
        cases call with
        | add key target => exact add_fresh mapped pictures fresh
        | remove key => exact remove_pictured mapped pictures key _
      obtain ⟨same,full',mapped',pictures'⟩ := kept
      rw [onward same mapped' pictures']
      exact ⟨fun rest => ⟨fresh,rest⟩,fun rest => rest.2⟩
    · refine ⟨fun agrees => ?_,fun all => absurd all.1 fresh⟩
      cases call with
      | add key target => exact (add_known mapped pictures fresh agrees.2.1 agrees.2.2.shows).elim
      | remove key => exact absurd trivial fresh

theorem empty_pictures : Pictures [] ∅ := by
  intro key
  rfl

-- From the empty table on, calls keep it a map exactly when none of them
-- registers a key the table already holds.
theorem mappings_refined (natMax : UInt16) (portmapMax : UInt8) (calls : List Call) :
    Agrees portmapMax.toNat (emptyTables natMax portmapMax) ∅ calls ↔ Fresh (emptyTables natMax portmapMax) calls := by
  have agree := mappings_agree (empty_mapped natMax portmapMax) empty_pictures calls
  have size : (emptyTables natMax portmapMax).portmapTable.length = portmapMax.toNat := List.length_replicate
  rw [size] at agree
  exact agree

def webPort : Key := ⟨ipProtoTcp,8080⟩
def registeredTwice : List Call := [.add webPort ⟨0x0200000a,0x0204a8c0,80⟩,.add webPort ⟨0x0200000a,0x0304a8c0,80⟩]

def afterAll (d : NaptData) (calls : List Call) : NaptData := calls.foldl (fun d call => (Call.run d call).1) d

-- Both end up in the table, and the port is still taken after its removal.
theorem mapping_registered_twice :
    ¬ Agrees 2 (emptyTables 3 2) ∅ registeredTwice ∧
    ((afterAll (emptyTables 3 2) registeredTwice).portmapTable.filter fun p => p.valid && p.key == webPort).length = 2 ∧
    (Call.run (afterAll (emptyTables 3 2) registeredTwice) (.remove webPort)).2 = 1 ∧
    (ipPortmapFind (afterAll (emptyTables 3 2) (registeredTwice ++ [.remove webPort])) webPort.proto
      (swap16 webPort.mport)).isSome := by
  refine ⟨fun agrees => ?_,by decide,by decide,by decide⟩
  have fresh := (mappings_agree (empty_mapped 3 2) empty_pictures registeredTwice).mp agrees
  exact absurd fresh.2.1 (by decide)

theorem Changes.mappings (mapped : Mapped d full) (changes : Changes d a now event reply d' a') :
    ∃ full', Mapped d' full' ∧ ∀ m ∈ full', (∃ old ∈ full, m.maddr = old.maddr) ∨
      ∃ proto mport daddr dport, event = .portmapAdd proto m.maddr mport daddr dport := by
  cases changes with
  | received _ fixed =>
    unfold Mapped at mapped ⊢
    rw [←fixed.1] at mapped
    exact ⟨full,mapped,fun m member => .inl ⟨m,member,rfl⟩⟩
  | forwarded _ fixed =>
    unfold Mapped at mapped ⊢
    rw [←fixed.1] at mapped
    exact ⟨full,mapped,fun m member => .inl ⟨m,member,rfl⟩⟩
  | @mapped proto maddr mport daddr dport d' result ran =>
    have renewed : ∀ m ∈ full.map (·.renewed proto (swap16 mport) daddr (swap16 dport)), ∃ old ∈ full, m.maddr = old.maddr := by
      intro m member
      obtain ⟨old,inside,same⟩ := List.mem_map.mp member
      exact ⟨old,inside,by rw [←same,renewed_maddr]⟩
    have added := mapped.add proto maddr mport daddr dport
    rw [ran] at added
    split_ifs at added
    · refine ⟨_,added.2,fun m member => ?_⟩
      rcases List.mem_append.mp member with old | new
      · exact .inl (renewed m old)
      · cases List.mem_singleton.mp new
        exact .inr ⟨proto,mport,daddr,dport,rfl⟩
    · exact ⟨_,added.2,fun m member => .inl (renewed m member)⟩
  | @unmapped proto mport d' result ran =>
    rcases mapped.remove proto mport with ⟨ran',_⟩ | ⟨before,p,after,split,_,_,_,mapped'⟩
    · rw [ran'] at ran
      cases ran
      exact ⟨full,mapped,fun m member => .inl ⟨m,member,rfl⟩⟩
    · rw [ran] at mapped'
      refine ⟨_,mapped',fun m member => .inl ⟨m,?_,rfl⟩⟩
      rw [split]
      exact ((List.sublist_cons_self ..).append_left _).subset member

theorem run_mapped (run : Run natMax portmapMax past s) :
    ∃ full, Mapped s.data full ∧ ∀ m ∈ full, ∃ x ∈ past, ∃ proto mport daddr dport,
      x.event = .portmapAdd proto m.maddr mport daddr dport := by
  obtain ⟨calloc,start,ran,path⟩ := run
  obtain ⟨some,same⟩ := init_tables ran
  refine path.records (I:=fun past s => ∃ full, Mapped s.data full ∧ ∀ m ∈ full, ∃ x ∈ past,
    ∃ proto mport daddr dport, x.event = .portmapAdd proto m.maddr mport daddr dport) ?_ ?_
  · rw [same]
    exact ⟨[],empty_mapped natMax portmapMax,by simp⟩
  · intro past s x next prior held step
    obtain ⟨full,mapped,origin⟩ := held
    obtain ⟨a,sound⟩ := runs_sound (same ▸ empty_sound portmapMax some) prior
    obtain ⟨a',changes,_⟩ := sound.step step
    obtain ⟨full',mapped',origin'⟩ := changes.mappings mapped
    refine ⟨full',mapped',fun m member => ?_⟩
    rcases origin' m member with ⟨old,inside,sameAddr⟩ | new
    · obtain ⟨y,earlier,registered⟩ := origin old inside
      rw [sameAddr]
      exact ⟨y,List.mem_append_left _ earlier,registered⟩
    · exact ⟨x,by simp,new⟩

-- What the mapping table sends inside is answered from the port it came in by,
-- when no other port has the same target.
theorem mappings_answer (run : Run natMax portmapMax past s)
    (own : ∀ x ∈ past, ∀ proto maddr mport daddr dport, x.event = .portmapAdd proto maddr mport daddr dport → maddr = ext)
    (p : Datagram) (transport : Transport p.packet) (dest : iphDest p.packet = ext)
    (found : ipPortmapFind s.data (iphProto p.packet) (portDest p.packet) = some (k,m))
    (unique : ∀ m' ∈ s.data.portmapTable, m'.valid = true → m'.proto = m.proto → m'.daddr = m.daddr →
      m'.dport = m.dport → m'.mport = m.mport) :
    (∀ now, ∃ d' p', ipNaptRecv s.data now p.packet = .ok (d',p') ∧ iphDest p' = m.daddr ∧ portDest p' = m.dport) ∧
    ∀ d now pcbs draws inp outp, d.portmapTable = s.data.portmapTable → inp.napt = true → ∀ answer : Datagram,
      iphProto answer.packet = iphProto p.packet → iphSrc answer.packet = m.daddr → portSrc answer.packet = m.dport →
      ∃ r, ipNaptForward d now pcbs draws inp outp answer.packet = .ok r ∧ r.err = .ok ∧
        iphSrc r.packet = iphDest p.packet ∧ portSrc r.packet = portDest p.packet ∧
        iphDest r.packet = iphDest answer.packet ∧ portDest r.packet = portDest answer.packet := by
  obtain ⟨a,sound⟩ := run_sound run
  obtain ⟨full,mapped,origin⟩ := run_mapped run
  obtain ⟨member,valid,proto,mport⟩ := portmapFind_some found
  constructor
  · intro now
    obtain ⟨d',ran⟩ := recv_mapped sound.represents now transport found
    exact ⟨d',_,ran,toInside_dest (.inr transport),toInside_portDest transport p.header⟩
  · intro d now pcbs draws inp outp same on answer sameProto src sport
    have transport' : Transport answer.packet := by
      unfold Transport at transport ⊢
      rw [sameProto]
      exact transport
    have back : ∃ j n, ipPortmapFindDest d (iphProto answer.packet) (portSrc answer.packet) (iphSrc answer.packet) =
        some (j,n) := by
      cases found' : ipPortmapFindDest d (iphProto answer.packet) (portSrc answer.packet) (iphSrc answer.packet) with
      | some x => exact ⟨x.1,x.2,rfl⟩
      | none =>
        unfold ipPortmapFindDest at found'
        rw [same,Holds.scan_none mapped] at found'
        have missed := found' m (mapped.mem.mpr ⟨member,valid⟩)
        simp [proto,sameProto,src,sport] at missed
    obtain ⟨j,n,back⟩ := back
    obtain ⟨nMember,nValid,nProto,nDport,nDaddr⟩ := portmapFindDest_some back
    rw [same] at nMember
    have samePort : n.mport = m.mport := by
      refine unique n nMember nValid ?_ (nDaddr.trans src) (nDport.trans sport)
      rw [nProto,sameProto,proto]
    obtain ⟨x,inPast,_,_,_,_,registered⟩ := origin n (mapped.mem.mpr ⟨nMember,nValid⟩)
    have outside : n.maddr = ext := own x inPast _ _ _ _ _ registered
    obtain ⟨r,ran,ok,packet⟩ := forward_mapped d now pcbs draws outp on transport' back
    refine ⟨r,ran,ok,?_,?_,?_⟩
    · rw [packet,toOutside_src (.inr transport'),outside,dest]
    · rw [packet,toOutside_portSrc transport' answer.header,samePort,mport]
    · rw [packet]
      exact toOutside_receiver transport' answer.header

def webClient (mport : UInt16) : Datagram := .tcp 0x08080808 0x3905 0x0200000a mport tcpSyn
def webAnswer : Datagram := .tcp 0x0204a8c0 0x5000 0x08080808 0x3905 (tcpSyn ||| tcpAck)

theorem mapping_answers : ∃ (s : System) (d' : NaptData) (p' : Packet) (r : Forwarded),
    ipNaptRecv s.data 10 (webClient 0x901f).packet = .ok (d',p') ∧ iphDest p' = 0x0204a8c0 ∧ portDest p' = 0x5000 ∧
    ipNaptForward s.data 20 quiet [] lan wan webAnswer.packet = .ok r ∧
    iphSrc r.packet = 0x0200000a ∧ portSrc r.packet = 0x901f := by
  obtain ⟨s,deeds,path,ran,asked⟩ := arrives_runs (fresh 3 2) [(0,.portmapAdd ipProtoTcp 0x0200000a 8080 0x0204a8c0 80)]
    (fun s _ => s.data.portmapTable == [⟨0x0200000a,0x0204a8c0,0x901f,0x5000,ipProtoTcp,true⟩,PortmapTable.zero])
    (by decide +kernel) (by decide)
  have table := beq_iff_eq.mp asked
  have own : ∀ x ∈ deeds, ∀ proto maddr mport daddr dport,
      x.event = .portmapAdd proto maddr mport daddr dport → maddr = 0x0200000a := by
    intro x member proto maddr mport daddr dport registered
    have listed := List.mem_map_of_mem (f:=fun x : Deed => (x.now,x.event)) member
    rw [execute_events ran,registered] at listed
    have same := (Prod.mk.inj (List.mem_singleton.mp listed)).2
    cases same
    rfl
  have found : ipPortmapFind s.data ipProtoTcp 0x901f = some (0,⟨0x0200000a,0x0204a8c0,0x901f,0x5000,ipProtoTcp,true⟩) := by
    unfold ipPortmapFind
    rw [table]
    decide
  obtain ⟨inside,outside⟩ := mappings_answer (fresh_run (by decide) path) own (webClient 0x901f) (by decide) (by decide)
    found (by rw [table]; decide)
  obtain ⟨d',p',arrived,dest,port⟩ := inside 10
  obtain ⟨r,sent,_,src,sport,_⟩ := outside s.data 20 quiet [] lan wan rfl rfl webAnswer (by decide) (by decide) (by decide)
  exact ⟨s,d',p',r,arrived,dest,port,sent,src.trans (by decide),sport.trans (by decide)⟩

-- With 8081 registered for the same server, what came in there is answered from 8080.
theorem second_port_answered_from_first : ∃ (past : List Deed) (s : System) (d' : NaptData) (p' : Packet) (r : Forwarded),
    Run 3 2 past s ∧ past.map (fun x => (x.now,x.event)) =
      [(0,.portmapAdd ipProtoTcp 0x0200000a 8080 0x0204a8c0 80),(1,.portmapAdd ipProtoTcp 0x0200000a 8081 0x0204a8c0 80)] ∧
    ipNaptRecv s.data 10 (webClient 0x911f).packet = .ok (d',p') ∧ iphDest p' = 0x0204a8c0 ∧ portDest p' = 0x5000 ∧
    ipNaptForward d' 20 quiet [] lan wan webAnswer.packet = .ok r ∧
    portSrc r.packet = 0x901f ∧ portSrc r.packet ≠ portDest (webClient 0x911f).packet := by
  obtain ⟨s,deeds,path,ran,asked⟩ := arrives_runs (fresh 3 2)
    [(0,.portmapAdd ipProtoTcp 0x0200000a 8080 0x0204a8c0 80),(1,.portmapAdd ipProtoTcp 0x0200000a 8081 0x0204a8c0 80)]
    (fun s _ => (ipNaptRecv s.data 10 (webClient 0x911f).packet).toOption.any fun x =>
      iphDest x.2 == 0x0204a8c0 && portDest x.2 == 0x5000 &&
        (ipNaptForward x.1 20 quiet [] lan wan webAnswer.packet).toOption.any fun r => portSrc r.packet == 0x901f)
    (by decide +kernel) (by decide)
  cases received : ipNaptRecv s.data 10 (webClient 0x911f).packet with
  | error fault => simp [received,Except.toOption] at asked
  | ok x =>
    obtain ⟨d',p'⟩ := x
    simp only [received,Except.toOption,Option.any_some,Bool.and_eq_true,beq_iff_eq] at asked
    obtain ⟨⟨dest,port⟩,answered⟩ := asked
    cases sent : ipNaptForward d' 20 quiet [] lan wan webAnswer.packet with
    | error fault => simp [sent] at answered
    | ok r =>
      have first : portSrc r.packet = 0x901f := by simpa [sent] using answered
      refine ⟨deeds,s,d',p',r,fresh_run (by decide) path,execute_events ran,received,dest,port,sent,first,?_⟩
      rw [first]
      decide

end NonosLinkLayer.Napt
