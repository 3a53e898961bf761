import NonosLinkLayer.Napt.System

-- What NAPT does, without its table: sessions in a list, with room for so many more,
-- and port mappings in a list. No slots, links, counters or entries out of use.
namespace NonosLinkLayer.Napt
open ByteMemory

structure Search where
  ahead : List Session
  session : Option Session
  behind : List Session
  expired : Nat

def search (now : UInt32) (wanted : Session → Bool) : List Session → Search
  | [] => ⟨[],none,[],0⟩
  | e :: rest =>
    if expired now e then
      let r := search now wanted rest
      {r with expired := r.expired + 1}
    else if wanted e then ⟨[],some e,rest,0⟩
    else
      let r := search now wanted rest
      {r with ahead := e :: r.ahead}

structure Translator where
  sessions : List Session
  room : Nat
  mappings : List PortmapTable
  mappingsMax : Nat

namespace Translator

def start (natMax : UInt16) (portmapMax : UInt8) : Translator := ⟨[],natMax.toNat,[],portmapMax.toNat⟩

def mapping (s : Translator) (proto : UInt8) (mport : UInt16) : Option PortmapTable :=
  s.mappings.find? fun m => m.proto == proto && m.mport == mport

def mappingDest (s : Translator) (proto : UInt8) (dport : UInt16) (daddr : UInt32) : Option PortmapTable :=
  s.mappings.find? fun m => m.proto == proto && m.dport == dport && m.daddr == daddr

def used (s : Translator) (proto : UInt8) (port : UInt16) : Bool :=
  s.sessions.any fun e => e.proto = proto ∧ e.mport = port

def tcpListening (s : Translator) (pcbs : LocalPcbs) (port : UInt16) : Bool :=
  pcbs.tcpListen.contains port || (s.mapping ipProtoTcp port).isSome

def udpListening (s : Translator) (pcbs : LocalPcbs) (port : UInt16) : Bool :=
  pcbs.udp.contains port || (s.mapping ipProtoUdp port).isSome

def vacant (s : Translator) (pcbs : LocalPcbs) (proto : UInt8) (port : UInt16) : Bool :=
  !s.used proto port && !(proto = ipProtoTcp && s.tcpListening pcbs port) && !(proto = ipProtoUdp && s.udpListening pcbs port)

def drawPort (s : Translator) (pcbs : LocalPcbs) (proto : UInt8) (draws : List Draw) : Except Fault UInt16 :=
  match (draws.map drawnPort).find? (s.vacant pcbs proto) with
  | some port => .ok port
  | none => .error .draws

def newPort (s : Translator) (pcbs : LocalPcbs) (proto : UInt8) (port : UInt16) (draws : List Draw) : Except Fault UInt16 :=
  if (ipNaptPortRangeStart ≤ swap16 port ∧ swap16 port ≤ ipNaptPortRangeEnd) ∧
    s.used proto port = false ∧ s.tcpListening pcbs port = false then .ok port
  else s.drawPort pcbs proto draws

def register (s : Translator) (now : UInt32) (pcbs : LocalPcbs) (draws : List Draw) (proto : UInt8) (src : UInt32)
    (sport : UInt16) (dest : UInt32) (dport : UInt16) : Except Fault (Translator × UInt16) :=
  if s.room = 0 then .ok (s,0)
  else do
    let mport ← if proto = ipProtoTcp ∨ proto = ipProtoUdp then s.newPort pcbs proto sport draws else .ok sport
    return ({s with
      sessions := ⟨now,src,dest,sport,dport,mport,proto,false,false,false,false,false,false⟩ :: s.sessions,
      room := s.room - 1},mport)

def add (s : Translator) (now : UInt32) (pcbs : LocalPcbs) (draws : List Draw) (proto : UInt8) (src : UInt32) (sport : UInt16)
    (dest : UInt32) (dport : UInt16) : Except Fault (Translator × UInt16) :=
  let r := search now (lookedUp proto src sport 0 false) s.sessions
  match r.session with
  | some e =>
    .ok ({s with sessions := {e with last := now,dest := dest,dport := dport} :: (r.ahead ++ r.behind),room := s.room + r.expired},
      e.mport)
  | none => {s with sessions := r.ahead,room := s.room + r.expired}.register now pcbs draws proto src sport dest dport

def kept (s : Translator) (now : UInt32) (f : Session → Session) (r : Search) : Translator :=
  match r.session with
  | none => {s with sessions := r.ahead,room := s.room + r.expired}
  | some e => {s with sessions := r.ahead ++ f {e with last := now} :: r.behind,room := s.room + r.expired}

def recv (s : Translator) (now : UInt32) (p : Packet) : Translator × Packet :=
  if ¬ Inbound p then (s,p)
  else match if Transport p then s.mapping (iphProto p) (portDest p) else none with
    | some m => (s,toInside p m.dport m.daddr)
    | none =>
      let r := search now (inKey p) s.sessions
      match r.session with
      | none => (s.kept now id r,p)
      | some e => (s.kept now (noteInbound p (toInside p e.sport e.src)) r,toInside p e.sport e.src)

def forward (s : Translator) (now : UInt32) (pcbs : LocalPcbs) (draws : List Draw) (inp outp : Netif) (p : Packet) :
    Except Fault (Translator × Reply) :=
  if inp.napt = false ∨ ¬ Outbound p then .ok (s,.forwarded p .ok false)
  else match if Transport p then s.mappingDest (iphProto p) (portSrc p) (iphSrc p) else none with
    | some m => .ok (s,.forwarded (toOutside p m.mport m.maddr) .ok false)
    | none =>
      if Opening p then do
        let (s,mport) ← s.add now pcbs draws (iphProto p) (iphSrc p) (sender p) (iphDest p) (receiver p)
        return (s,.forwarded (toOutside p mport outp.ipAddr) .ok false)
      else
        let r := search now (outKey p) s.sessions
        match r.session with
        | none => .ok (s.kept now id r,.forwarded p .rte true)
        | some e =>
          if e.dest ≠ iphDest p ∨ e.dport ≠ portDest p then .ok (s.kept now id r,.forwarded p .rte true)
          else .ok (s.kept now (noteOutbound p) r,.forwarded (toOutside p e.mport outp.ipAddr) .ok false)

-- Every mapping of the key gets the new target, and the new mapping goes behind all.
def portmapAdd (s : Translator) (proto : UInt8) (maddr : UInt32) (mport : UInt16) (daddr : UInt32) (dport : UInt16) :
    Translator × UInt8 :=
  let renewed := s.mappings.map (·.renewed proto (swap16 mport) daddr (swap16 dport))
  if s.mappings.length < s.mappingsMax then
    ({s with mappings := renewed ++ [⟨maddr,daddr,swap16 mport,swap16 dport,proto,true⟩]},1)
  else ({s with mappings := renewed},0)

def portmapRemove (s : Translator) (proto : UInt8) (mport : UInt16) : Translator × UInt8 :=
  match s.mapping proto (swap16 mport) with
  | none => (s,0)
  | some _ => ({s with mappings := s.mappings.eraseP fun m => m.proto == proto && m.mport == swap16 mport},1)

def perform (s : Translator) (now : UInt32) : Event → Except Fault (Translator × Reply)
  | .recv p => .ok ((s.recv now p.packet).1,.received (s.recv now p.packet).2)
  | .forward pcbs draws inp outp p => s.forward now pcbs draws inp outp p.packet
  | .portmapAdd proto maddr mport daddr dport =>
    .ok ((s.portmapAdd proto maddr mport daddr dport).1,.done (s.portmapAdd proto maddr mport daddr dport).2)
  | .portmapRemove proto mport => .ok ((s.portmapRemove proto mport).1,.done (s.portmapRemove proto mport).2)

def replies (s : Translator) : List (Nat × Event) → Except Fault (List Reply)
  | [] => .ok []
  | (now,event) :: rest => do
    let (s,reply) ← s.perform (sysNow now) event
    let later ← s.replies rest
    return reply :: later

end Translator

structure Abstracts (d : NaptData) (a : Sessions) (s : Translator) : Prop where
  represents : Represents d a
  sessions : a.active.map Prod.snd = s.sessions
  room : a.free.length = s.room
  mappings : Mapped d s.mappings
  size : d.portmapTable.length = s.mappingsMax

inductive Follows {ρ : Type} : Except Fault (NaptData × ρ) → Except Fault (Translator × ρ) → Prop where
  | stuck (fault : Fault) : Follows (.error fault) (.error fault)
  | goes (abs : Abstracts d a s) (r : ρ) : Follows (.ok (d,r)) (.ok (s,r))

section Search
variable {now : UInt32} {wanted : Session → Bool} {a : Sessions}

inductive Searched (now : UInt32) : List (Nat × Session) → Option (Nat × Session) → Search → Prop where
  | missed (same : kept.map Prod.snd = r.ahead) (nobody : r.session = none) : Searched now kept none r
  | found {before after : List (Nat × Session)} (ahead : before.map Prod.snd = r.ahead) (here : r.session = some e)
      (behind : after.map Prod.snd = r.behind) : Searched now (before ++ (i,{e with last := now}) :: after) (some (i,e)) r

theorem Searched.behind {kept : List (Nat × Session)} {found : Option (Nat × Session)} {r : Search} (x : Nat × Session)
    (searched : Searched now kept found r) : Searched now (x :: kept) found {r with ahead := x.2 :: r.ahead} := by
  cases searched with
  | missed same nobody => exact .missed (congrArg (x.2 :: ·) same) nobody
  | found ahead here behind =>
    rw [←List.cons_append]
    exact .found (congrArg (x.2 :: ·) ahead) here behind

theorem Searched.counted {kept : List (Nat × Session)} {found : Option (Nat × Session)} {r : Search}
    (searched : Searched now kept found r) (expired : Nat) : Searched now kept found {r with expired} := by
  cases searched with
  | missed same nobody => exact .missed same nobody
  | found ahead here behind => exact .found ahead here behind

theorem Searched.hit {kept : List (Nat × Session)} {r : Search} (searched : Searched now kept (some (i,e)) r) :
    r.session = some e ∧ ∃ before after, kept = before ++ (i,{e with last := now}) :: after ∧
      before.map Prod.snd = r.ahead ∧ after.map Prod.snd = r.behind := by
  cases searched with
  | found ahead here behind => exact ⟨here,_,_,rfl,ahead,behind⟩

theorem scan_searched (active : List (Nat × Session)) :
    let r := ExpiringScan.scan (fun e : Nat × Session => expired now e.2) (fun e => wanted e.2)
      (fun e => (e.1,{e.2 with last := now})) active
    Searched now r.kept r.found (search now wanted (active.map Prod.snd)) ∧
      (search now wanted (active.map Prod.snd)).expired = r.dropped.length := by
  induction active with
  | nil => exact ⟨.missed rfl rfl,rfl⟩
  | cons x rest ih =>
    obtain ⟨searched,counted⟩ := ih
    rw [List.map_cons]
    unfold ExpiringScan.scan search
    by_cases gone : expired now x.2 = true
    · rw [if_pos gone,if_pos gone]
      exact ⟨searched.counted _,congrArg (· + 1) counted⟩
    rw [if_neg gone,if_neg gone]
    by_cases hit : wanted x.2 = true
    · rw [if_pos hit,if_pos hit]
      have first : Searched now ([] ++ (x.1,{x.2 with last := now}) :: rest) (some (x.1,x.2)) ⟨[],some x.2,rest.map Prod.snd,0⟩ :=
        .found rfl rfl rfl
      exact ⟨first,rfl⟩
    · rw [if_neg hit,if_neg hit]
      exact ⟨searched.behind x,counted⟩

theorem find_searched (a : Sessions) (now : UInt32) (wanted : Session → Bool) :
    Searched now (a.find now wanted).1.active (a.find now wanted).2 (search now wanted (a.active.map Prod.snd)) ∧
      (a.find now wanted).1.free.length = a.free.length + (search now wanted (a.active.map Prod.snd)).expired := by
  obtain ⟨searched,counted⟩ : _ ∧ (search now wanted (a.active.map Prod.snd)).expired = _ := scan_searched a.active
  refine ⟨searched,?_⟩
  rw [counted]
  simp [Sessions.find,Nat.add_comm]

end Search

namespace Abstracts
variable {d d' : NaptData} {a a' : Sessions} {s s' : Translator} {now : UInt32} {pcbs : LocalPcbs} {proto : UInt8}

theorem mapping (abs : Abstracts d a s) (proto : UInt8) (mport : UInt16) :
    (ipPortmapFind d proto mport).map Prod.snd = s.mapping proto mport := abs.mappings.find proto mport

theorem mappingDest (abs : Abstracts d a s) (proto : UInt8) (dport : UInt16) (daddr : UInt32) :
    (ipPortmapFindDest d proto dport daddr).map Prod.snd = s.mappingDest proto dport daddr := abs.mappings.scan_find

theorem moved (abs : Abstracts d a s) (rep : Represents d' a') (fixed : Fixed d d') (sessions : a'.active.map Prod.snd = s'.sessions)
    (room : a'.free.length = s'.room) (mappings : s'.mappings = s.mappings) (size : s'.mappingsMax = s.mappingsMax) :
    Abstracts d' a' s' := by
  refine ⟨rep,sessions,room,?_,?_⟩
  · unfold Mapped
    rw [fixed.1,mappings]
    exact abs.mappings
  · rw [fixed.1,size]
    exact abs.size

theorem used (abs : Abstracts d a s) (proto : UInt8) (port : UInt16) : ipNaptFindPort d proto port = .ok (s.used proto port) := by
  rw [findPort_exact abs.represents,Translator.used,←abs.sessions,List.any_map]
  rfl

theorem tcpListening (abs : Abstracts d a s) (pcbs : LocalPcbs) (port : UInt16) :
    Napt.tcpListening d pcbs port = s.tcpListening pcbs port := by
  unfold Napt.tcpListening Translator.tcpListening
  rw [←abs.mapping,Option.isSome_map]

theorem udpListening (abs : Abstracts d a s) (pcbs : LocalPcbs) (port : UInt16) :
    Napt.udpListening d pcbs port = s.udpListening pcbs port := by
  unfold Napt.udpListening Translator.udpListening
  rw [←abs.mapping,Option.isSome_map]

theorem drawPort (abs : Abstracts d a s) (pcbs : LocalPcbs) (proto : UInt8) (draws : List Draw) :
    newPortLoop d pcbs proto draws = s.drawPort pcbs proto draws := by
  unfold Translator.drawPort
  induction draws with
  | nil => rfl
  | cons draw draws ih =>
    unfold newPortLoop
    simp only [abs.used,abs.tcpListening,abs.udpListening,ok_then,List.map_cons]
    by_cases taken : s.used proto (drawnPort draw) = true
    · rw [if_pos taken,List.find?_cons_of_neg (by simp [Translator.vacant,taken])]
      exact ih
    rw [if_neg taken]
    by_cases tcp : proto = ipProtoTcp ∧ s.tcpListening pcbs (drawnPort draw) = true
    · rw [if_pos tcp,List.find?_cons_of_neg (by simp [Translator.vacant,tcp.1,tcp.2])]
      exact ih
    rw [if_neg tcp]
    by_cases udp : proto = ipProtoUdp ∧ s.udpListening pcbs (drawnPort draw) = true
    · rw [if_pos udp,List.find?_cons_of_neg (by simp [Translator.vacant,udp.1,udp.2])]
      exact ih
    · rw [if_neg udp,List.find?_cons_of_pos]
      · rfl
      · simp only [Translator.vacant,taken,Bool.not_false,Bool.true_and,Bool.and_eq_true,Bool.not_eq_true',Bool.and_eq_false_iff,
          decide_eq_false_iff_not]
        exact ⟨by simpa [imp_iff_not_or] using not_and.mp tcp,by simpa [imp_iff_not_or] using not_and.mp udp⟩

theorem newPort (abs : Abstracts d a s) (pcbs : LocalPcbs) (proto : UInt8) (port : UInt16) (draws : List Draw) :
    ipNaptNewPort d pcbs proto port draws = s.newPort pcbs proto port draws := by
  unfold ipNaptNewPort Translator.newPort
  simp only [abs.used,abs.tcpListening,abs.drawPort,ok_then]
  by_cases inside : ipNaptPortRangeStart ≤ swap16 port ∧ swap16 port ≤ ipNaptPortRangeEnd
  · rw [if_pos inside]
    by_cases free : s.used proto port = false ∧ s.tcpListening pcbs port = false
    · rw [if_pos (by simp [free.1,free.2]),if_pos ⟨inside,free⟩]
      rfl
    · rw [if_neg (by simpa using not_and.mp free),if_neg fun all => free all.2]
  · rw [if_neg inside,if_neg fun all => inside all.1]

theorem missed (abs : Abstracts d a s) {wanted : Session → Bool} (rep : Represents d' (a.find now wanted).1) (fixed : Fixed d d')
    (missing : (a.find now wanted).2 = none) (f : Session → Session) :
    (search now wanted s.sessions).session = none ∧
      Abstracts d' (a.find now wanted).1 (s.kept now f (search now wanted s.sessions)) := by
  obtain ⟨searched,room⟩ := find_searched a now wanted
  rw [abs.sessions,abs.room] at room
  rw [missing,abs.sessions] at searched
  generalize search now wanted s.sessions = r at searched room ⊢
  generalize (a.find now wanted).1 = b at rep searched room ⊢
  obtain ⟨active,free⟩ := b
  cases searched with
  | missed same nobody =>
    refine ⟨nobody,abs.moved rep fixed ?_ ?_ ?_ ?_⟩ <;> simp only [Translator.kept,nobody]
    · exact same
    · exact room

theorem found (abs : Abstracts d a s) {wanted : Session → Bool} {i : Nat} {e : Session} {f : Session → Session}
    (rep : Represents d' ((a.find now wanted).1.put i f)) (fixed : Fixed d d') (hit : (a.find now wanted).2 = some (i,e)) :
    (search now wanted s.sessions).session = some e ∧
      Abstracts d' ((a.find now wanted).1.put i f) (s.kept now f (search now wanted s.sessions)) := by
  obtain ⟨searched,room⟩ := find_searched a now wanted
  rw [abs.sessions,abs.room] at room
  rw [hit,abs.sessions] at searched
  have distinct := rep.slots_nodup
  rw [put_slots] at distinct
  generalize search now wanted s.sessions = r at searched room ⊢
  obtain ⟨here,before,after,split,ahead,behind⟩ := searched.hit
  have parts : (a.find now wanted).1 = ⟨before ++ (i,{e with last := now}) :: after,(a.find now wanted).1.free⟩ := by rw [←split]
  rw [parts] at distinct
  rw [parts,put_split distinct] at rep ⊢
  refine ⟨here,abs.moved rep fixed ?_ ?_ ?_ ?_⟩ <;> simp only [Translator.kept,here]
  · rw [List.map_append,List.map_cons,ahead,behind]
  · exact room

theorem unmapped (abs : Abstracts d a s) {p : Packet} (missing : Transport p → ipPortmapFind d (iphProto p) (portDest p) = none) :
    (if Transport p then s.mapping (iphProto p) (portDest p) else none) = none := by
  split_ifs with transport
  · rw [←abs.mapping,missing transport]
    rfl
  · rfl

theorem recv (abs : Abstracts d a s) (now : UInt32) (p : Packet) :
    ∃ d' a', ipNaptRecv d now p = .ok (d',(s.recv now p).2) ∧ Abstracts d' a' (s.recv now p).1 := by
  unfold Translator.recv
  by_cases other : Inbound p
  swap
  · rw [if_pos other]
    exact ⟨d,a,recv_ignored d now other,abs⟩
  rw [if_neg (not_not.mpr other)]
  obtain ⟨d',a',p',ran,outcome,rep,fixed⟩ := recv_refines abs.represents now p
  have mappings := abs.mapping (iphProto p) (portDest p)
  cases outcome with
  | ignored none => exact absurd other none
  | mapped transport found =>
    rw [found] at mappings
    rw [if_pos transport,←mappings]
    exact ⟨d',a,ran,abs.moved rep fixed abs.sessions abs.room rfl rfl⟩
  | unknown _ unmapped missing =>
    obtain ⟨nobody,after⟩ := abs.missed rep fixed missing id
    simp only [abs.unmapped unmapped,nobody]
    exact ⟨d',_,ran,after⟩
  | session _ unmapped found =>
    obtain ⟨here,after⟩ := abs.found rep fixed found
    simp only [abs.unmapped unmapped,here]
    exact ⟨d',_,ran,after⟩

theorem reused (abs : Abstracts d a s) {i : Nat} {e : Session} {wanted : Session → Bool} (rep : Represents d' (a.find now wanted).1)
    (fixed : Fixed d d') (hit : (a.find now wanted).2 = some (i,e)) (dest : UInt32) (dport : UInt16) :
    ∃ d₂ a₂, ipNaptInsert (ipNaptFree (d'.modify i fun t => {t with last := now,dest := dest,dport := dport}) i) i = .ok d₂ ∧
      (d₂.table i).mport = e.mport ∧ (search now wanted s.sessions).session = some e ∧
      Abstracts d₂ a₂ {s with
        sessions := {e with last := now,dest := dest,dport := dport} ::
          ((search now wanted s.sessions).ahead ++ (search now wanted s.sessions).behind),
        room := s.room + (search now wanted s.sessions).expired} := by
  obtain ⟨searched,room⟩ := find_searched a now wanted
  rw [abs.sessions,abs.room] at room
  rw [hit,abs.sessions] at searched
  have distinct := rep.slots_nodup
  obtain ⟨d₂,moved,rep₂,still,port⟩ := reuse_represents rep hit dest dport
  generalize search now wanted s.sessions = r at searched room ⊢
  obtain ⟨here,before,after,split,ahead,behind⟩ := searched.hit
  refine ⟨d₂,_,moved,port,here,abs.moved rep₂ (fixed.trans still) ?_ room rfl rfl⟩
  have parts : (a.find now wanted).1 = ⟨before ++ (i,{e with last := now}) :: after,(a.find now wanted).1.free⟩ := by rw [←split]
  rw [parts] at distinct ⊢
  unfold Sessions.front
  dsimp only
  rw [filter_slot distinct,List.map_cons,List.map_append,ahead,behind]

theorem opened (abs : Abstracts d a s) {i : Nat} {free : List Nat} (room : a.free = i :: free) (e : Session) :
    ∃ d' a', ipNaptInsert (d.modify i fun t => {t with toSession := e}) i = .ok d' ∧
      Abstracts d' a' {s with sessions := e :: s.sessions,room := s.room - 1} := by
  obtain ⟨d',ran,rep,fixed⟩ := open_free abs.represents room e
  have count := abs.room
  rw [room,List.length_cons] at count
  refine ⟨d',_,ran,abs.moved rep fixed ?_ ?_ rfl rfl⟩
  · exact congrArg (e :: ·) abs.sessions
  · change free.length = s.room - 1
    omega

theorem begun (abs : Abstracts d a s) {i : Nat} {free : List Nat} (room : a.free = i :: free) (now : UInt32) (proto : UInt8)
    (src : UInt32) (sport : UInt16) (dest : UInt32) (dport mport : UInt16) :
    Follows (do
      let d ← ipNaptInsert (d.modify i fun t => {t with
        last := now,src := src,dest := dest,sport := sport,dport := dport,mport := mport,proto := proto
        fin1 := false,fin2 := false,finack1 := false,finack2 := false,synack := false,rst := false}) i
      return (d,mport))
    (.ok ({s with
      sessions := ⟨now,src,dest,sport,dport,mport,proto,false,false,false,false,false,false⟩ :: s.sessions,
      room := s.room - 1},mport)) := by
  obtain ⟨d',a',ran,after⟩ := abs.opened room ⟨now,src,dest,sport,dport,mport,proto,false,false,false,false,false,false⟩
  rw [ran]
  exact .goes after mport

theorem register (abs : Abstracts d a s) (now : UInt32) (pcbs : LocalPcbs) (draws : List Draw) (proto : UInt8) (src : UInt32)
    (sport : UInt16) (dest : UInt32) (dport : UInt16) :
    Follows (if d.free = noIdx then return (d,0)
      else
        let t := d.free
        do
        let mport ← if proto = ipProtoTcp then ipNaptNewPort d pcbs ipProtoTcp sport draws else pure sport
        let mport ← if proto = ipProtoUdp then ipNaptNewPort d pcbs ipProtoUdp sport draws else pure mport
        let d := d.modify t fun t => {t with
          last := now,src := src,dest := dest,sport := sport,dport := dport,mport := mport,proto := proto
          fin1 := false,fin2 := false,finack1 := false,finack2 := false,synack := false,rst := false}
        let d ← ipNaptInsert d t
        return (d,mport)) (s.register now pcbs draws proto src sport dest dport) := by
  unfold Translator.register
  have atFree : d.free = a.free.head?.getD noIdx := abs.represents.shape.spare_first
  cases room : a.free with
  | nil =>
    have none : s.room = 0 := by rw [←abs.room,room,List.length_nil]
    rw [room,List.head?_nil,Option.getD_none] at atFree
    rw [if_pos atFree,if_pos none]
    exact .goes abs 0
  | cons i free =>
    have some : s.room ≠ 0 := by
      rw [←abs.room,room,List.length_cons]
      exact Nat.succ_ne_zero _
    rw [room,List.head?_cons,Option.getD_some] at atFree
    have real : i ≠ noIdx := abs.represents.shape.spares.cells_exist i (by simp [room])
    rw [if_neg (atFree ▸ real),if_neg some,atFree]
    by_cases tcp : proto = ipProtoTcp
    · subst tcp
      rw [if_pos rfl,if_pos (.inl rfl),abs.newPort]
      cases s.newPort pcbs ipProtoTcp sport draws with
      | error fault => exact .stuck fault
      | ok mport => exact abs.begun room now ipProtoTcp src sport dest dport mport
    by_cases udp : proto = ipProtoUdp
    · subst udp
      rw [if_neg tcp,if_pos (.inr rfl)]
      simp only [if_true,abs.newPort]
      cases s.newPort pcbs ipProtoUdp sport draws with
      | error fault => exact .stuck fault
      | ok mport => exact abs.begun room now ipProtoUdp src sport dest dport mport
    · rw [if_neg tcp,if_neg (not_or.mpr ⟨tcp,udp⟩)]
      simp only [udp,if_false]
      exact abs.begun room now proto src sport dest dport sport

theorem add (abs : Abstracts d a s) (now : UInt32) (pcbs : LocalPcbs) (draws : List Draw) (proto : UInt8) (src : UInt32)
    (sport : UInt16) (dest : UInt32) (dport : UInt16) :
    Follows (ipNaptAdd d now pcbs draws proto src sport dest dport) (s.add now pcbs draws proto src sport dest dport) := by
  obtain ⟨d',ran,rep,fixed⟩ := find_refines abs.represents now proto src sport 0 false
  unfold ipNaptAdd Translator.add
  rw [ran]
  cases found : (a.find now (lookedUp proto src sport 0 false)).2 with
  | some x =>
    obtain ⟨i,e⟩ := x
    obtain ⟨d₂,a₂,moved,port,here,after⟩ := abs.reused rep fixed found dest dport
    simp only [ok_then,Option.map_some,moved,here,pure,Except.pure,port]
    exact .goes after e.mport
  | none =>
    obtain ⟨nobody,after⟩ := abs.missed rep fixed found id
    simp only [Translator.kept,nobody] at after
    simp only [nobody]
    exact after.register now pcbs draws proto src sport dest dport

theorem opening (abs : Abstracts d a s) (now : UInt32) (pcbs : LocalPcbs) (draws : List Draw) (outp : Netif) (p : Packet) :
    Follows (do
      let r ← (do
        let (d,mport) ← ipNaptAdd d now pcbs draws (iphProto p) (iphSrc p) (sender p) (iphDest p) (receiver p)
        return (⟨d,toOutside p mport outp.ipAddr,.ok,false⟩ : Forwarded))
      return (r.data,Reply.forwarded r.packet r.err r.unreach))
    (do
      let (s,mport) ← s.add now pcbs draws (iphProto p) (iphSrc p) (sender p) (iphDest p) (receiver p)
      return (s,.forwarded (toOutside p mport outp.ipAddr) .ok false)) := by
  have added := abs.add now pcbs draws (iphProto p) (iphSrc p) (sender p) (iphDest p) (receiver p)
  generalize ipNaptAdd d now pcbs draws (iphProto p) (iphSrc p) (sender p) (iphDest p) (receiver p) = x at added ⊢
  generalize s.add now pcbs draws (iphProto p) (iphSrc p) (sender p) (iphDest p) (receiver p) = y at added ⊢
  cases added with
  | stuck fault => exact .stuck fault
  | goes after mport => exact .goes after _

theorem midway (abs : Abstracts d a s) (now : UInt32) (outp : Netif) {p : Packet} (transport : Transport p) :
    Follows (do
      let r ← (do
        let (d,t) ← ipNaptFind d now (iphProto p) (iphSrc p) (portSrc p) 0 false
        match t with
        | none => return (⟨d,p,.rte,true⟩ : Forwarded)
        | some t =>
          if (d.table t).dest ≠ iphDest p ∨ (d.table t).dport ≠ portDest p then return ⟨d,p,.rte,true⟩
          else return ⟨d.record t (noteOutbound p),toOutside p (d.table t).mport outp.ipAddr,.ok,false⟩)
      return (r.data,Reply.forwarded r.packet r.err r.unreach))
    (match (search now (outKey p) s.sessions).session with
      | none => .ok (s.kept now id (search now (outKey p) s.sessions),.forwarded p .rte true)
      | some e =>
        if e.dest ≠ iphDest p ∨ e.dport ≠ portDest p then
          .ok (s.kept now id (search now (outKey p) s.sessions),.forwarded p .rte true)
        else .ok (s.kept now (noteOutbound p) (search now (outKey p) s.sessions),
          .forwarded (toOutside p e.mport outp.ipAddr) .ok false)) := by
  have key : lookedUp (iphProto p) (iphSrc p) (portSrc p) 0 false = outKey p := by
    unfold outKey
    rw [sender_transport transport]
  obtain ⟨d',ran,rep,fixed⟩ := find_refines abs.represents now (iphProto p) (iphSrc p) (portSrc p) 0 false
  rw [key] at ran rep
  rw [ran]
  cases found : (a.find now (outKey p)).2 with
  | none =>
    obtain ⟨nobody,after⟩ := abs.missed rep fixed found id
    simp only [nobody,ok_then,Option.map_none]
    exact .goes after _
  | some x =>
    obtain ⟨i,e⟩ := x
    have held := found_entry rep found
    have still : Represents d' ((a.find now (outKey p)).1.put i id) := (put_id _ i).symm ▸ rep
    obtain ⟨here,after⟩ := abs.found still fixed found
    obtain ⟨_,noted⟩ := abs.found (record_represents rep i (noteOutbound_proto p)) fixed found
    simp only [here,ok_then,Option.map_some,held]
    split_ifs with foreign
    · exact .goes after _
    · exact .goes noted _

theorem forward (abs : Abstracts d a s) (now : UInt32) (pcbs : LocalPcbs) (draws : List Draw) (inp outp : Netif) (p : Packet) :
    Follows (do
      let r ← ipNaptForward d now pcbs draws inp outp p
      return (r.data,Reply.forwarded r.packet r.err r.unreach)) (s.forward now pcbs draws inp outp p) := by
  unfold Translator.forward
  by_cases idle : inp.napt = false ∨ ¬ Outbound p
  · rw [if_pos idle,forward_ignored d now pcbs draws outp idle]
    exact .goes abs _
  rw [if_neg idle]
  obtain ⟨on,outbound⟩ := not_or.mp idle
  have on : inp.napt = true := by simpa using on
  by_cases transport : Transport p
  · have mappings := abs.mappingDest (iphProto p) (portSrc p) (iphSrc p)
    rw [forward_transport d now pcbs draws outp on transport,if_pos transport,←mappings]
    cases ipPortmapFindDest d (iphProto p) (portSrc p) (iphSrc p) with
    | some x => exact .goes abs _
    | none =>
      dsimp only [Option.map_none]
      split_ifs with opens
      · exact abs.opening now pcbs draws outp p
      · exact abs.midway now outp transport
  · have echo : iphProto p = ipProtoIcmp ∧ iechoType p = icmpEcho := (not_not.mp outbound).resolve_right transport
    have opened := abs.opening now pcbs draws outp p
    rw [if_neg transport]
    dsimp only
    rw [if_pos (.inl echo)]
    unfold ipNaptForward
    rw [if_neg (by simp [on]),if_pos echo.1,if_pos echo.2]
    simp only [sender,receiver,echo.1,if_true,toOutside_icmp echo.1] at opened ⊢
    exact opened

theorem portmapAdd (abs : Abstracts d a s) (proto : UInt8) (maddr : UInt32) (mport : UInt16) (daddr : UInt32) (dport : UInt16) :
    Abstracts (ipPortmapAdd d proto maddr mport daddr dport).1 a (s.portmapAdd proto maddr mport daddr dport).1 ∧
      (ipPortmapAdd d proto maddr mport daddr dport).2 = (s.portmapAdd proto maddr mport daddr dport).2 := by
  have added := abs.mappings.add proto maddr mport daddr dport
  have rep := abs.represents.remapped (portmapAdd_remapped (rfl : ipPortmapAdd d proto maddr mport daddr dport = _))
  have length : (ipPortmapAdd d proto maddr mport daddr dport).1.portmapTable.length = d.portmapTable.length := portmapAdd_length d
  have size := length.trans abs.size
  rw [abs.size] at added
  unfold Translator.portmapAdd
  dsimp only
  split_ifs at added ⊢
  · exact ⟨⟨rep,abs.sessions,abs.room,added.2,size⟩,added.1⟩
  · exact ⟨⟨rep,abs.sessions,abs.room,added.2,size⟩,added.1⟩

theorem portmapRemove (abs : Abstracts d a s) (proto : UInt8) (mport : UInt16) :
    Abstracts (ipPortmapRemove d proto mport).1 a (s.portmapRemove proto mport).1 ∧
      (ipPortmapRemove d proto mport).2 = (s.portmapRemove proto mport).2 := by
  have mapping := abs.mapping proto (swap16 mport)
  unfold Translator.portmapRemove ipPortmapRemove
  rw [←mapping]
  cases found : ipPortmapFind d proto (swap16 mport) with
  | none => exact ⟨abs,rfl⟩
  | some r =>
    obtain ⟨k,m⟩ := r
    obtain ⟨before,after,split,place,passes,others⟩ := PackedTable.Holds.scan_split abs.mappings found
    have erased : s.mappings.eraseP (fun m => m.proto == proto && m.mport == swap16 mport) = before ++ after := by
      rw [split,List.eraseP_append_right _ fun x member => by simp [others x member],List.eraseP_cons,passes]
      rfl
    have mappings := abs.mappings
    unfold Mapped at mappings
    rw [split] at mappings
    refine ⟨⟨abs.represents.remapped ⟨_,rfl⟩,abs.sessions,abs.room,?_,?_⟩,rfl⟩
    · dsimp only [Option.map_some]
      rw [erased,place]
      exact mappings.shifted fun _ => rfl
    · exact (PackedTable.shift_length ..).trans abs.size

theorem perform (abs : Abstracts d a s) (now : UInt32) (event : Event) : Follows (Napt.perform d now event) (s.perform now event) := by
  cases event with
  | recv p =>
    obtain ⟨d',a',ran,after⟩ := abs.recv now p.packet
    simp only [Napt.perform,Translator.perform,ran,ok_then]
    exact .goes after _
  | forward pcbs draws inp outp p => exact abs.forward now pcbs draws inp outp p.packet
  | portmapAdd proto maddr mport daddr dport =>
    obtain ⟨after,same⟩ := abs.portmapAdd proto maddr mport daddr dport
    simp only [Napt.perform,Translator.perform,same]
    exact .goes after _
  | portmapRemove proto mport =>
    obtain ⟨after,same⟩ := abs.portmapRemove proto mport
    simp only [Napt.perform,Translator.perform,same]
    exact .goes after _

theorem replies (abs : Abstracts d a s) (clock : Nat) (events : List (Nat × Event)) :
    (execute ⟨clock,d⟩ events).map (fun r => r.2.map Deed.reply) = s.replies events := by
  induction events generalizing d a s clock with
  | nil => rfl
  | cons head rest ih =>
    obtain ⟨now,event⟩ := head
    unfold execute Translator.replies
    have step := abs.perform (sysNow now) event
    generalize Napt.perform d (sysNow now) event = x at step ⊢
    generalize s.perform (sysNow now) event = y at step ⊢
    cases step with
    | stuck fault => rfl
    | goes after reply =>
      rw [ok_then,ok_then]
      dsimp only
      rw [←ih after now]
      cases execute ⟨now,_⟩ rest with
      | error fault => rfl
      | ok r => rfl

end Abstracts

theorem empty_abstracts (portmapMax : UInt8) (some : 1 ≤ natMax) :
    Abstracts (emptyTables natMax portmapMax) ⟨[],List.range natMax.toNat⟩ (Translator.start natMax portmapMax) :=
  ⟨empty_represents portmapMax some,rfl,List.length_range,empty_mapped natMax portmapMax,List.length_replicate⟩

end NonosLinkLayer.Napt
