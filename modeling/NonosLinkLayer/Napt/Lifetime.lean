import NonosLinkLayer.Napt.Independence

namespace NonosLinkLayer.Napt
open ExpiringScan Transitions

structure Connection where
  src : UInt32
  sport : UInt16
  dest : UInt32
  dport : UInt16

def Connection.Owns (c : Connection) (e : Session) : Prop := e.proto = ipProtoTcp ∧ e.src = c.src ∧ e.sport = c.sport
def Connection.Reaches (c : Connection) (e : Session) : Prop := e.dest = c.dest ∧ e.dport = c.dport

-- The packets of the connection that are translated by its entry, not by a port
-- mapping: those from inside, and those from outside while the entry has not
-- expired.
def Outgoing (c : Connection) (s : System) (x : Deed) : Prop :=
  ∃ pcbs draws inp outp p, x.event = .forward pcbs draws inp outp p ∧ inp.napt = true ∧
    iphProto p.packet = ipProtoTcp ∧ iphSrc p.packet = c.src ∧ portSrc p.packet = c.sport ∧
    iphDest p.packet = c.dest ∧ portDest p.packet = c.dport ∧
    ipPortmapFindDest s.data ipProtoTcp c.sport c.src = none

def Incoming (c : Connection) (s : System) (x : Deed) : Prop :=
  ∃ p, x.event = .recv p ∧ iphProto p.packet = ipProtoTcp ∧ iphSrc p.packet = c.dest ∧ portSrc p.packet = c.dport ∧
    ipPortmapFind s.data ipProtoTcp (portDest p.packet) = none ∧
    ∃ i ∈ activeChain s.data, c.Owns (s.data.table i).toSession ∧ c.Reaches (s.data.table i).toSession ∧
      (s.data.table i).mport = portDest p.packet ∧ expired (sysNow x.now) (s.data.table i).toSession = false

def Rival (c : Connection) (s : System) (x : Deed) : Prop :=
  ∃ pcbs draws inp outp p, x.event = .forward pcbs draws inp outp p ∧ inp.napt = true ∧ Opening p.packet ∧
    iphProto p.packet = ipProtoTcp ∧ iphSrc p.packet = c.src ∧ portSrc p.packet = c.sport ∧
    ipPortmapFindDest s.data ipProtoTcp c.sport c.src = none ∧
    ¬ (iphDest p.packet = c.dest ∧ portDest p.packet = c.dport)

def Deed.flags (x : Deed) : UInt8 :=
  match x.event with
  | .recv p => tcphFlags p.packet
  | .forward _ _ _ _ p => tcphFlags p.packet
  | _ => 0

def Deed.closes (x : Deed) : Bool := x.flags &&& tcpFin != 0 || x.flags &&& tcpRst != 0
def Deed.answers (x : Deed) : Bool := x.flags &&& (tcpSyn ||| tcpAck) == tcpSyn ||| tcpAck

-- A run in which the connection is opened by a SYN, in a state and at a time
-- that are `fit` for it, and then lives on: its packets are at most
-- IP_NAPT_TIMEOUT_MS_TCP apart, none of them has FIN or RST, and no other
-- connection is opened from its inside end. Kept along are the time of its last
-- packet, and whether its SYN has been answered.
inductive Life (natMax : UInt16) (portmapMax : UInt8) (fit : NaptData → Nat → Prop) (c : Connection) :
    System → Nat → Bool → Prop where
  | syn {p : Datagram} (run : Run natMax portmapMax past s) (step : Step s x next) (out : Outgoing c s x)
      (isForward : x.event = .forward pcbs draws inp outp p) (opening : Opening p.packet) (fits : fit s.data x.now) :
      Life natMax portmapMax fit c next x.now false
  | outgoing (life : Life natMax portmapMax fit c s t answered) (step : Step s x next) (out : Outgoing c s x)
      (open_ : x.closes = false) (soon : x.now ≤ t + 1800000) : Life natMax portmapMax fit c next x.now answered
  | incoming (life : Life natMax portmapMax fit c s t answered) (step : Step s x next) (into : Incoming c s x)
      (open_ : x.closes = false) (soon : x.now ≤ t + 1800000) :
      Life natMax portmapMax fit c next x.now (answered || x.answers)
  | other (life : Life natMax portmapMax fit c s t answered) (step : Step s x next)
      (foreign : ¬ (Outgoing c s x ∨ Incoming c s x)) (alone : ¬ Rival c s x) :
      Life natMax portmapMax fit c next t answered

-- No connection of the inside end that both sides have closed still lingers.
def Unfinished (c : Connection) (d : NaptData) (now : Nat) : Prop :=
  ∀ i ∈ activeChain d, c.Owns (d.table i).toSession → expired (sysNow now) (d.table i).toSession = false →
    ¬ ((d.table i).fin1 = true ∧ (d.table i).fin2 = true)

def Acked (e : Session) : Prop := (e.finack1 = true → e.fin1 = true) ∧ (e.finack2 = true → e.fin2 = true)

theorem noteInbound_acked (acked : Acked e) (p p' : Packet) : Acked (noteInbound p p' e) := by
  unfold noteInbound
  split_ifs
  · rw [recordInbound_eq]
    unfold Acked at acked ⊢
    simp only [Bool.or_eq_true,Bool.and_eq_true]
    refine ⟨fun acked1 => .inl (acked.1 acked1),fun acked2 => ?_⟩
    cases acked2 with
    | inl before => exact acked.2 before
    | inr now => exact now.1
  · exact acked

theorem noteOutbound_acked (acked : Acked e) (p : Packet) : Acked (noteOutbound p e) := by
  unfold noteOutbound
  split_ifs
  · rw [recordOutbound_eq]
    unfold Acked at acked ⊢
    simp only [Bool.or_eq_true,Bool.and_eq_true]
    refine ⟨fun acked1 => ?_,fun acked2 => .inl (acked.2 acked2)⟩
    cases acked1 with
    | inl before => exact acked.1 before
    | inr now => exact now.1
  · exact acked

theorem Provenance.acked (all : ∀ x ∈ a.active, Acked x.2) (provenance : Provenance d a now event reply i e) :
    Acked e := by
  cases provenance with
  | kept member => exact all _ member
  | opened => exact ⟨fun no => (by cases no),fun no => (by cases no)⟩
  | touched member live touch =>
    have old := all _ member
    have marked : ∀ t : Session, Acked t → Acked {t with last := now} := fun _ acked => acked
    cases touch with
    | untouched => exact old
    | answered => exact noteInbound_acked (marked _ old) _ _
    | continued => exact noteOutbound_acked (marked _ old) _
    | refused => exact old
    | taken => exact old

-- The entry leads to the connection, and not both sides have closed it.
def Clean (c : Connection) (e : Session) : Prop := c.Reaches e ∧ ¬ (e.fin1 = true ∧ e.fin2 = true)

theorem noteInbound_fins (tcp : iphProto p = ipProtoTcp) (open_ : tcphFlags p' &&& tcpFin = 0) (e : Session) :
    (noteInbound p p' e).fin1 = e.fin1 ∧ (noteInbound p p' e).fin2 = e.fin2 := by
  rw [noteInbound_tcp tcp,recordInbound_eq]
  simp [open_]

theorem noteOutbound_fins (tcp : iphProto p = ipProtoTcp) (open_ : tcphFlags p &&& tcpFin = 0) (e : Session) :
    (noteOutbound p e).fin1 = e.fin1 ∧ (noteOutbound p e).fin2 = e.fin2 := by
  rw [noteOutbound_tcp tcp,recordOutbound_eq]
  simp [open_]

theorem noteInbound_synack (tcp : iphProto p = ipProtoTcp) (e : Session) : (noteInbound p p' e).synack =
    (e.synack || decide (tcphFlags p' &&& (tcpSyn ||| tcpAck) = tcpSyn ||| tcpAck)) := by
  rw [noteInbound_tcp tcp,recordInbound_eq]

theorem noteOutbound_synack (tcp : iphProto p = ipProtoTcp) (e : Session) : (noteOutbound p e).synack = e.synack := by
  rw [noteOutbound_tcp tcp,recordOutbound_eq]

theorem open_fin {x : Deed} (open_ : x.closes = false) : x.flags &&& tcpFin = 0 := by
  unfold Deed.closes at open_
  simp only [Bool.or_eq_false_iff,bne_eq_false_iff_eq] at open_
  exact open_.1

section Steps
variable {c : Connection} {s : System} {a : Sessions} {now : UInt32} {i : Nat} {e : Session}

theorem owns_flow (same : e'.flow = e.flow) : c.Owns e' ↔ c.Owns e := by
  have proto : e'.proto = e.proto := congrArg Flow.proto same
  have src : e'.src = e.src := congrArg Flow.src same
  have sport : e'.sport = e.sport := congrArg Flow.sport same
  unfold Connection.Owns
  rw [proto,src,sport]

theorem reaches_flow (same : e'.flow = e.flow) : c.Reaches e' ↔ c.Reaches e := by
  have dest : e'.dest = e.dest := congrArg Flow.dest same
  have dport : e'.dport = e.dport := congrArg Flow.dport same
  unfold Connection.Reaches
  rw [dest,dport]

theorem Clean.inbound (clean : Clean c e) (tcp : iphProto p = ipProtoTcp) (open_ : tcphFlags p' &&& tcpFin = 0) :
    Clean c (noteInbound p p' e) := by
  refine ⟨(reaches_flow (noteInbound_flow _ _ _)).mpr clean.1,?_⟩
  rw [(noteInbound_fins tcp open_ _).1,(noteInbound_fins tcp open_ _).2]
  exact clean.2

theorem Clean.outbound (clean : Clean c e) (tcp : iphProto p = ipProtoTcp) (open_ : tcphFlags p &&& tcpFin = 0) :
    Clean c (noteOutbound p e) := by
  refine ⟨(reaches_flow (noteOutbound_flow _ _)).mpr clean.1,?_⟩
  rw [(noteOutbound_fins tcp open_ _).1,(noteOutbound_fins tcp open_ _).2]
  exact clean.2

theorem opening_reaches {x : Deed} {p : Datagram} (alone : ¬ Rival c s x) (isForward : x.event = .forward pcbs draws inp outp p)
    (on : inp.napt = true) (opening : Opening p.packet) (tcp : iphProto p.packet = ipProtoTcp)
    (src : iphSrc p.packet = c.src) (sport : portSrc p.packet = c.sport)
    (free : ipPortmapFindDest s.data ipProtoTcp c.sport c.src = none) :
    iphDest p.packet = c.dest ∧ portDest p.packet = c.dport :=
  Classical.byContradiction fun other => alone ⟨pcbs,draws,inp,outp,p,isForward,on,opening,tcp,src,sport,free,other⟩

-- Neither a packet of the connection that does not close it nor any other event
-- makes its entry unclean.
theorem Provenance.clean {x : Deed} (sound : Sound natMax s.data a) (all : ∀ y ∈ a.active, c.Owns y.2 → Clean c y.2)
    (tame : Outgoing c s x ∨ Incoming c s x → x.closes = false) (alone : ¬ Rival c s x)
    (provenance : Provenance s.data a (sysNow x.now) x.event x.reply i e) (owns : c.Owns e) : Clean c e := by
  obtain ⟨time,event,reply⟩ := x
  cases provenance with
  | kept member => exact all _ member owns
  | @opened pcbs draws outp inp p mport isForward on opening unmapped =>
    obtain ⟨proto,src,sport⟩ := owns
    have transport : Transport p.packet := .inl proto
    simp only [sender_transport transport] at proto src sport
    have free := unmapped transport
    rw [proto,src,sport] at free
    refine ⟨?_,by simp⟩
    unfold Connection.Reaches
    simp only [receiver_transport transport]
    exact opening_reaches alone isForward on opening proto src sport free
  | @touched old _ member live touch =>
    obtain ⟨listed,stored⟩ := sound.listed member
    cases touch with
    | untouched => exact all _ member owns
    | @answered p inbound fits unmapped =>
      have ownsOld : c.Owns old := (owns_flow (noteInbound_flow p.packet _ {old with last := sysNow time})).mp owns
      have clean := all _ member ownsOld
      obtain ⟨proto,dest,dport,mport⟩ := lookedUp_outside fits
      have tcp : iphProto p.packet = ipProtoTcp := proto.symm.trans ownsOld.1
      rw [sender_transport (.inl tcp)] at dport
      rw [receiver_transport (.inl tcp)] at mport
      have free := unmapped (.inl tcp)
      rw [tcp] at free
      have open_ : tcphFlags p.packet &&& tcpFin = 0 := by
        refine open_fin (x:=⟨time,.recv p,_⟩) (tame (.inr ⟨p,rfl,tcp,?_,?_,free,i,listed,?_⟩))
        · rw [←dest]; exact clean.1.1
        · rw [←dport]; exact clean.1.2
        · rw [stored]
          exact ⟨ownsOld,clean.1,mport,live⟩
      exact Clean.inbound (e:={old with last := sysNow time}) clean tcp (by rw [toInside_flags tcp p.header]; exact open_)
    | @continued _ pcbs draws inp outp p on transport midway fits same unmapped =>
      have ownsOld : c.Owns old := (owns_flow (noteOutbound_flow p.packet {old with last := sysNow time})).mp owns
      have clean := all _ member ownsOld
      obtain ⟨proto,src,sport⟩ := lookedUp_inside fits
      have tcp : iphProto p.packet = ipProtoTcp := proto.symm.trans ownsOld.1
      rw [sender_transport transport] at sport
      rw [tcp,←sport,←src,ownsOld.2.1,ownsOld.2.2] at unmapped
      have open_ : tcphFlags p.packet &&& tcpFin = 0 := by
        refine open_fin (x:=⟨time,.forward pcbs draws inp outp p,_⟩)
          (tame (.inl ⟨pcbs,draws,inp,outp,p,rfl,on,tcp,?_,?_,?_,?_,unmapped⟩))
        · rw [←src]; exact ownsOld.2.1
        · rw [←sport]; exact ownsOld.2.2
        · rw [←same.1]; exact clean.1.1
        · rw [←same.2]; exact clean.1.2
      exact Clean.outbound (e:={old with last := sysNow time}) clean tcp open_
    | refused => exact all _ member owns
    | @taken _ pcbs draws inp outp p on opening fits unmapped =>
      have ownsOld : c.Owns old := owns
      obtain ⟨_,half⟩ := all _ member ownsOld
      obtain ⟨proto,src,sport⟩ := lookedUp_inside fits
      have tcp : iphProto p.packet = ipProtoTcp := proto.symm.trans ownsOld.1
      rw [sender_transport (.inl tcp)] at sport
      have free := unmapped (.inl tcp)
      rw [tcp,←sport,←src,ownsOld.2.1,ownsOld.2.2] at free
      refine ⟨?_,half⟩
      unfold Connection.Reaches
      simp only [receiver_transport (.inl tcp)]
      exact opening_reaches alone rfl on opening tcp (src.symm.trans ownsOld.2.1) (sport.symm.trans ownsOld.2.2) free

theorem Incoming.noted {x : Deed} (into : Incoming c s x) (sound : Sound natMax s.data a)
    (changes : Changes s.data a (sysNow x.now) x.event x.reply d' a') :
    ∃ i e p p', (i,e) ∈ a.active ∧ c.Owns e ∧ iphProto p = ipProtoTcp ∧ tcphFlags p' = x.flags ∧
      (i,noteInbound p p' {e with last := sysNow x.now}) ∈ a'.active := by
  obtain ⟨time,event,reply⟩ := x
  obtain ⟨p,isRecv,tcp,src,sport,unmapped,i,listed,owns,reaches,mport,live⟩ := into
  simp only at isRecv live changes
  subst isRecv
  have member := sound.entry listed
  have found := in_found sound member live (.inl tcp) ⟨by rw [tcp]; exact owns.1.symm,by rw [src]; exact reaches.1.symm,
    by rw [sport]; exact reaches.2.symm,mport.symm⟩
  cases changes with
  | received outcome =>
    cases outcome with
    | ignored other => exact absurd (.inr (.inl tcp)) other
    | mapped _ mapped => rw [tcp,unmapped] at mapped; cases mapped
    | unknown _ _ missing => rw [found] at missing; cases missing
    | session _ _ found' =>
      rw [found] at found'
      cases found'
      exact ⟨i,_,p.packet,_,member,owns,tcp,toInside_flags tcp p.header,put_here (found_here found) _⟩

theorem Outgoing.noted {x : Deed} (out : Outgoing c s x) (sound : Sound natMax s.data a)
    (changes : Changes s.data a (sysNow x.now) x.event x.reply d' a') (member : (i,e) ∈ a.active) (owns : c.Owns e)
    (reaches : c.Reaches e) (live : expired (sysNow x.now) e = false) :
    ∃ e', (i,e') ∈ a'.active ∧ e'.flow = e.flow ∧ e'.synack = e.synack ∧ e'.last = sysNow x.now := by
  obtain ⟨time,event,reply⟩ := x
  obtain ⟨pcbs,draws,inp,outp,p,isForward,on,tcp,src,sport,dest,dport,unmapped⟩ := out
  simp only at isForward live changes
  subst isForward
  rw [←tcp,←src,←sport] at unmapped
  have found := out_found sound member live (.inl tcp) ⟨by rw [tcp]; exact owns.1.symm,by rw [src]; exact owns.2.1.symm,
    by rw [sport]; exact owns.2.2.symm⟩
  cases changes with
  | forwarded outcome =>
    cases outcome with
    | off off => rw [on] at off; cases off
    | ignored _ other => exact absurd (.inr (.inl tcp)) other
    | mapped _ _ mapped => rw [unmapped] at mapped; cases mapped
    | registered _ _ _ added =>
      cases added with
      | reused found' =>
        change (a.find _ (outKey p.packet)).2 = _ at found'
        rw [found] at found'
        cases found'
        refine ⟨_,List.mem_cons_self ..,?_,rfl,rfl⟩
        unfold Session.flow
        simp only
        rw [dest,receiver_transport (.inl tcp),dport,reaches.1,reaches.2]
      | opened missing =>
        change (a.find _ (outKey p.packet)).2 = _ at missing
        rw [found] at missing
        cases missing
      | full missing =>
        change (a.find _ (outKey p.packet)).2 = _ at missing
        rw [found] at missing
        cases missing
    | continued _ _ _ _ found' =>
      rw [found] at found'
      cases found'
      exact ⟨_,put_here (found_here found) _,noteOutbound_flow _ _,noteOutbound_synack tcp _,noteOutbound_last _ _⟩
    | refused _ _ _ _ foreign =>
      refine absurd ⟨?_,?_⟩ (foreign _ _ found)
      · rw [dest]; exact reaches.1
      · rw [dport]; exact reaches.2

theorem Touch.answered_stays (touch : Touch d now e event reply e') (owns : c.Owns e) (synack : e.synack = true) :
    c.Owns e' ∧ e'.synack = true ∧ (e'.last = e.last ∨ e'.last = now) := by
  cases touch with
  | untouched => exact ⟨owns,synack,.inl rfl⟩
  | @answered p _ fits =>
    obtain ⟨proto,_⟩ := lookedUp_outside fits
    have tcp : iphProto p.packet = ipProtoTcp := proto.symm.trans owns.1
    refine ⟨(owns_flow (noteInbound_flow p.packet _ {e with last := now})).mpr owns,?_,.inr (noteInbound_last _ _ _)⟩
    rw [noteInbound_synack tcp]
    simp [synack]
  | @continued _ _ _ _ _ p _ _ _ fits =>
    obtain ⟨proto,_⟩ := lookedUp_inside fits
    have tcp : iphProto p.packet = ipProtoTcp := proto.symm.trans owns.1
    refine ⟨(owns_flow (noteOutbound_flow p.packet {e with last := now})).mpr owns,?_,.inr (noteOutbound_last _ _)⟩
    rw [noteOutbound_synack tcp]
    exact synack
  | refused => exact ⟨owns,synack,.inr rfl⟩
  | taken => exact ⟨owns,synack,.inr rfl⟩

theorem owner_unique (sound : Sound natMax d a) (one : (i,e) ∈ a.active) (two : (j,f) ∈ a.active) (ownsOne : c.Owns e)
    (ownsTwo : c.Owns f) : i = j ∧ e = f := by
  by_cases here : i = j
  · subst here
    exact ⟨rfl,slot_unique sound.represents.slots_nodup one two⟩
  · refine absurd ⟨?_,?_,?_⟩ (sound.coherent.apart one two here).1
    · exact ownsOne.1.trans ownsTwo.1.symm
    · exact ownsOne.2.1.trans ownsTwo.2.1.symm
    · exact ownsOne.2.2.trans ownsTwo.2.2.symm

end Steps

theorem answered_live (owns : c.Owns e) (clean : Clean c e) (acked : Acked e) (synack : e.synack = true)
    (last : e.last = sysNow u) (past : u ≤ now) (soon : now ≤ u + 1800000) : expired (sysNow now) e = false := by
  have elapsed := age past (by omega)
  have young : ¬ sysNow now - e.last > ipNaptTimeoutMsTcp := by
    intro late
    have late := UInt32.lt_iff_toNat_lt.mp late
    rw [last,elapsed,show ipNaptTimeoutMsTcp.toNat = 1800000 from rfl] at late
    omega
  have half : (e.finack1 && e.finack2) = false := by
    refine Bool.eq_false_iff.mpr fun both => ?_
    obtain ⟨one,two⟩ := Bool.and_eq_true_iff.mp both
    exact clean.2 ⟨acked.1 one,acked.2 two⟩
  have notUdp : (e.proto == ipProtoUdp) = false := by rw [owns.1]; decide
  have notIcmp : (e.proto == ipProtoIcmp) = false := by rw [owns.1]; decide
  unfold expired
  rw [half,synack,decide_eq_false young,notUdp,notIcmp]
  simp

structure Tended (natMax : UInt16) (c : Connection) (s : System) (a : Sessions) (t : Nat) (answered : Bool) : Prop where
  sound : Sound natMax s.data a
  acked : ∀ x ∈ a.active, Acked x.2
  clean : ∀ x ∈ a.active, c.Owns x.2 → Clean c x.2
  past : t ≤ s.clock
  held : answered = true → s.clock ≤ t + 1800000 → ∃ i e u, (i,e) ∈ a.active ∧ c.Owns e ∧ e.synack = true ∧
    e.last = sysNow u ∧ t ≤ u ∧ u ≤ s.clock

theorem Tended.live (tended : Tended natMax c s a t true) (ahead : s.clock ≤ now) (soon : now ≤ t + 1800000) :
    ∃ i e u, (i,e) ∈ a.active ∧ c.Owns e ∧ e.synack = true ∧ e.last = sysNow u ∧ t ≤ u ∧ u ≤ s.clock ∧
      expired (sysNow now) e = false := by
  obtain ⟨i,e,u,member,owns,synack,last,after,before⟩ := tended.held rfl (by omega)
  exact ⟨i,e,u,member,owns,synack,last,after,before,answered_live owns (tended.clean _ member owns)
    (tended.acked _ member) synack last (by omega) (by omega)⟩

theorem run_acked (run : Run natMax portmapMax past s) :
    ∃ a, Sound natMax s.data a ∧ ∀ x ∈ a.active, Acked x.2 := by
  obtain ⟨calloc,start,ran,path⟩ := run
  obtain ⟨some,same⟩ := init_tables ran
  refine path.keeps (I:=fun s => ∃ a, Sound natMax s.data a ∧ ∀ x ∈ a.active, Acked x.2) ?_ ?_
  · refine ⟨_,same ▸ empty_sound portmapMax some,?_⟩
    intro x member
    cases member
  · intro s x next held step
    obtain ⟨a,sound,acked⟩ := held
    obtain ⟨a',changes,after⟩ := sound.step step
    refine ⟨a',after,?_⟩
    intro y member
    exact (changes.provenance sound.represents.slots_nodup member).acked acked

-- The SYN of the connection leaves a clean entry, if it leaves one.
theorem syn_clean {p : Datagram} {x : Deed} (sound : Sound natMax s.data a) (sound' : Sound natMax d' a')
    (changes : Changes s.data a (sysNow x.now) x.event x.reply d' a') (out : Outgoing c s x)
    (isForward : x.event = .forward pcbs draws inp outp p) (opening : Opening p.packet)
    (unfinished : Unfinished c s.data x.now) : ∀ y ∈ a'.active, c.Owns y.2 → Clean c y.2 := by
  obtain ⟨time,event,reply⟩ := x
  obtain ⟨pcbs',draws',inp',outp',p',isForward',on,tcp,src,sport,dest,dport,unmapped⟩ := out
  simp only at isForward isForward' changes unfinished
  subst isForward
  cases isForward'
  intro y member owns
  cases changes with
  | forwarded outcome =>
    cases outcome with
    | off off => rw [on] at off; cases off
    | ignored _ other => exact absurd (.inr (.inl tcp)) other
    | mapped _ _ mapped => rw [tcp,src,sport,unmapped] at mapped; cases mapped
    | registered _ _ _ added =>
      have own := added.registered sound'.represents.slots_nodup sound'.coherent member ⟨by rw [tcp]; exact owns.1,
        by rw [src]; exact owns.2.1,by rw [sender_transport (.inl tcp),sport]; exact owns.2.2⟩
      have reaches : iphDest p.packet = c.dest ∧ receiver p.packet = c.dport :=
        ⟨dest,by rw [receiver_transport (.inl tcp)]; exact dport⟩
      rcases own with ⟨old,inside,live,renewed⟩ | new
      · obtain ⟨listed,stored⟩ := sound.listed inside
        have ownsOld : c.Owns old := by
          rw [renewed] at owns
          exact owns
        have half := unfinished y.1 listed (stored ▸ ownsOld) (stored ▸ live)
        rw [stored] at half
        rw [renewed]
        exact ⟨reaches,half⟩
      · rw [new]
        exact ⟨reaches,by simp⟩
    | continued _ _ midway => exact absurd opening midway
    | refused _ _ midway => exact absurd opening midway

theorem outgoing_alone {x : Deed} (out : Outgoing c s x) : ¬ Rival c s x := by
  obtain ⟨_,_,_,_,_,isForward,_,_,_,_,dest,dport,_⟩ := out
  intro rival
  obtain ⟨_,_,_,_,_,isForward',_,_,_,_,_,_,other⟩ := rival
  rw [isForward] at isForward'
  cases isForward'
  exact other ⟨dest,dport⟩

theorem incoming_alone {x : Deed} (into : Incoming c s x) : ¬ Rival c s x := by
  obtain ⟨_,isRecv,_⟩ := into
  intro rival
  obtain ⟨_,_,_,_,_,isForward,_⟩ := rival
  rw [isRecv] at isForward
  cases isForward

theorem Tended.onward {answered : Bool} {x : Deed} (tended : Tended natMax c s a t answered) (step : Step s x next)
    (tame : Outgoing c s x ∨ Incoming c s x → x.closes = false) (alone : ¬ Rival c s x) :
    ∃ a', Changes s.data a (sysNow x.now) x.event x.reply next.data a' ∧ Sound natMax next.data a' ∧
      (∀ y ∈ a'.active, Acked y.2) ∧ ∀ y ∈ a'.active, c.Owns y.2 → Clean c y.2 := by
  obtain ⟨a',changes,sound'⟩ := tended.sound.step step
  refine ⟨a',changes,sound',fun y member => ?_,fun y member owns => ?_⟩
  · exact (changes.provenance tended.sound.represents.slots_nodup member).acked tended.acked
  · exact (changes.provenance tended.sound.represents.slots_nodup member).clean tended.sound tended.clean tame alone owns

theorem Life.tended (life : Life natMax portmapMax (Unfinished c) c s t answered) :
    ∃ a, Tended natMax c s a t answered := by
  induction life with
  | syn run step out isForward opening fits =>
    obtain ⟨a,sound,acked⟩ := run_acked run
    obtain ⟨a',changes,sound'⟩ := sound.step step
    refine ⟨a',sound',?_,syn_clean sound sound' changes out isForward opening fits,Nat.le_of_eq step.2.1.symm,?_⟩
    · intro y member
      exact (changes.provenance sound.represents.slots_nodup member).acked acked
    · intro no
      cases no
  | outgoing life step out open_ soon ih =>
    obtain ⟨a,tended⟩ := ih
    obtain ⟨a',changes,sound',acked,clean⟩ := tended.onward step (fun _ => open_) (outgoing_alone out)
    refine ⟨a',sound',acked,clean,Nat.le_of_eq step.2.1.symm,?_⟩
    intro yes _
    subst yes
    obtain ⟨i,e,u,member,owns,synack,_,_,_,live⟩ := tended.live step.1 soon
    obtain ⟨e',member',flow,synack',last⟩ :=
      out.noted tended.sound changes member owns (tended.clean _ member owns).1 live
    exact ⟨i,e',_,member',(owns_flow flow).mpr owns,synack'.trans synack,last,Nat.le_refl _,Nat.le_of_eq step.2.1.symm⟩
  | incoming life step into open_ soon ih =>
    obtain ⟨a,tended⟩ := ih
    obtain ⟨a',changes,sound',acked,clean⟩ := tended.onward step (fun _ => open_) (incoming_alone into)
    refine ⟨a',sound',acked,clean,Nat.le_of_eq step.2.1.symm,?_⟩
    intro yes _
    obtain ⟨i,e,p,p',member,owns,tcp,flags,member'⟩ := into.noted tended.sound changes
    refine ⟨i,_,_,member',(owns_flow (noteInbound_flow p p' {e with last := _})).mpr owns,?_,noteInbound_last _ _ _,
      Nat.le_refl _,Nat.le_of_eq step.2.1.symm⟩
    rw [noteInbound_synack tcp,flags]
    cases Bool.or_eq_true_iff.mp yes with
    | inl before =>
      subst before
      obtain ⟨j,f,_,inside,ownsToo,synack,_⟩ := tended.live step.1 soon
      obtain ⟨_,same⟩ := owner_unique tended.sound member inside owns ownsToo
      simp [same,synack]
    | inr now =>
      unfold Deed.answers at now
      simp [beq_iff_eq.mp now]
  | other life step foreign alone ih =>
    obtain ⟨a,tended⟩ := ih
    obtain ⟨a',changes,sound',acked,clean⟩ := tended.onward step (fun own => absurd own foreign) alone
    have ahead := step.1
    have reached := step.2.1
    have past := tended.past
    refine ⟨a',sound',acked,clean,by omega,?_⟩
    intro yes soon
    subst yes
    obtain ⟨i,e,u,member,owns,synack,last,after,before,live⟩ := tended.live step.1 (by omega)
    obtain ⟨e',member',touch⟩ := changes.entry tended.sound.represents.slots_nodup member live
    obtain ⟨owns',synack',last'⟩ := touch.answered_stays owns synack
    cases last' with
    | inl same => exact ⟨i,e',u,member',owns',synack',same.trans last,after,by omega⟩
    | inr marked => exact ⟨i,e',_,member',owns',synack',marked,by omega,by omega⟩

-- An answered connection that opened on no half closed one keeps its entry: no
-- lookup within IP_NAPT_TIMEOUT_MS_TCP of its last packet drops it.
theorem connection_kept (life : Life natMax portmapMax (Unfinished c) c s t true) (ahead : s.clock ≤ now)
    (soon : now ≤ t + 1800000) :
    ∃ i ∈ activeChain s.data, c.Owns (s.data.table i).toSession ∧ c.Reaches (s.data.table i).toSession ∧
      expired (sysNow now) (s.data.table i).toSession = false ∧
      ∀ proto addr port mport dest, ∃ d' found,
        ipNaptFind s.data (sysNow now) proto addr port mport dest = .ok (d',found) ∧ i ∈ activeChain d' ∧
        (d'.table i).toSession.flow = (s.data.table i).toSession.flow := by
  obtain ⟨a,tended⟩ := life.tended
  obtain ⟨i,e,u,member,owns,_,_,_,_,live⟩ := tended.live ahead soon
  obtain ⟨listed,stored⟩ := tended.sound.listed member
  refine ⟨i,listed,stored ▸ owns,stored ▸ (tended.clean _ member owns).1,stored ▸ live,?_⟩
  intro proto addr port mport dest
  obtain ⟨d',ran,rep,fixed⟩ := find_refines tended.sound.represents (sysNow now) proto addr port mport dest
  refine ⟨d',_,ran,?_⟩
  have sound' : Sound natMax d' (a.find (sysNow now) (lookedUp proto addr port mport dest)).1 :=
    ⟨rep,tended.sound.coherent.sublist (find_flows ..),fixed.2.trans tended.sound.size⟩
  cases find_stays (lookedUp proto addr port mport dest) member live with
  | inl stays =>
    obtain ⟨listed',stored'⟩ := sound'.listed stays
    exact ⟨listed',by rw [stored',stored]⟩
  | inr marked =>
    obtain ⟨listed',stored'⟩ := sound'.listed marked.2
    exact ⟨listed',by rw [stored',stored]; rfl⟩

def browsing : Connection := ⟨0x0204a8c0,0x3905,0x08080808,0x5000⟩
def browsed (flags : UInt8) : Event := .forward quiet [⟨0,0⟩] lan wan (.tcp 0x0204a8c0 0x3905 0x08080808 0x5000 flags)
def served (flags : UInt8) : Event := .recv (.tcp 0x08080808 0x5000 0x0200000a 0xc0 flags)

def browsingAt (s : System) (last : UInt32) (finished synack : Bool) : Bool :=
  activeChain s.data == [0] && s.data.portmapTable == [] && (s.data.table 0).toSession ==
    ⟨last,0x0204a8c0,0x08080808,0x3905,0x5000,0xc0,ipProtoTcp,finished,finished,finished,finished,synack,false⟩

theorem browsingAt_parts (holds : browsingAt s last finished synack = true) :
    activeChain s.data = [0] ∧ s.data.portmapTable = [] ∧ (s.data.table 0).toSession =
      ⟨last,0x0204a8c0,0x08080808,0x3905,0x5000,0xc0,ipProtoTcp,finished,finished,finished,finished,synack,false⟩ := by
  unfold browsingAt at holds
  simp only [Bool.and_eq_true,beq_iff_eq] at holds
  exact ⟨holds.1.1,holds.1.2,holds.2⟩

theorem served_incoming (holds : browsingAt s last finished synack = true)
    (live : ∀ e : Session, e = (s.data.table 0).toSession → expired (sysNow now) e = false) :
    Incoming browsing s ⟨now,served (tcpSyn ||| tcpAck),reply⟩ := by
  obtain ⟨chain,table,entry⟩ := browsingAt_parts holds
  refine ⟨_,rfl,by decide,by decide,by decide,?_,0,by rw [chain]; decide,?_,?_,?_,live _ rfl⟩
  · unfold ipPortmapFind
    rw [table]
    rfl
  · rw [entry]
    exact ⟨rfl,rfl,rfl⟩
  · rw [entry]
    exact ⟨rfl,rfl⟩
  · rw [entry]
    have port : portDest (Datagram.tcp 0x08080808 0x5000 0x0200000a 0xc0 (tcpSyn ||| tcpAck)).packet = 0xc0 := by decide
    exact port.symm

theorem served_answers (now : Nat) (reply : Reply) : Deed.closes ⟨now,served (tcpSyn ||| tcpAck),reply⟩ = false ∧
    Deed.answers ⟨now,served (tcpSyn ||| tcpAck),reply⟩ = true := by
  have flags : Deed.flags ⟨now,served (tcpSyn ||| tcpAck),reply⟩ = 0x12 :=
    show tcphFlags (Datagram.tcp 0x08080808 0x5000 0x0200000a 0xc0 (tcpSyn ||| tcpAck)).packet = 0x12 by decide
  unfold Deed.closes Deed.answers
  rw [flags]
  decide

-- Half an hour after the answer to its first SYN the connection is still there.
theorem browsing_kept : ∃ (s : System) (i : Nat), i ∈ activeChain s.data ∧ browsing.Owns (s.data.table i).toSession ∧
    expired (sysNow 1800010) (s.data.table i).toSession = false := by
  obtain ⟨s1,r1,first,clock1,asked⟩ := tries_step (fresh 3 0) 0 (browsed tcpSyn)
    (fun s _ => browsingAt s 0 false false && tries s 10 (served (tcpSyn ||| tcpAck)) fun _ _ => true)
    (by decide +kernel) (by decide)
  obtain ⟨holds,answered⟩ := Bool.and_eq_true_iff.mp asked
  obtain ⟨s2,r2,second,clock2,_⟩ := tries_step _ _ _ _ answered (by omega)
  have opened : Life 3 0 (Unfinished browsing) browsing s1 0 false := by
    refine .syn (fresh_run (by decide) .nil) first ?_ rfl (by decide) ?_
    · exact ⟨_,_,_,_,_,rfl,rfl,by decide,by decide,by decide,by decide,by decide,by decide⟩
    · intro i member
      rw [show activeChain (fresh 3 0).data = [] by decide] at member
      cases member
  have live : ∀ e : Session, e = (s1.data.table 0).toSession → expired (sysNow 10) e = false := by
    intro e same
    rw [same,(browsingAt_parts holds).2.2]
    decide
  have life := opened.incoming second (served_incoming holds live) (served_answers 10 r2).1 (by simp only; omega)
  rw [(served_answers 10 r2).2,Bool.false_or] at life
  obtain ⟨i,member,owns,_,stays,_⟩ := connection_kept life (show s2.clock ≤ 1800010 by omega) (by simp only; omega)
  exact ⟨s2,i,member,owns,stays⟩

-- The same connection once closed and at once opened again: half a minute after
-- the answer to its second SYN its entry has expired, and its next packet is refused.
theorem closed_connection_lingers : ∃ (s : System) (r : Forwarded),
    Life 3 0 (fun _ _ => True) browsing s 1010 true ∧ s.clock ≤ 22000 ∧ 22000 ≤ 1010 + 1800000 ∧
    activeChain s.data = [0] ∧ browsing.Owns (s.data.table 0).toSession ∧ browsing.Reaches (s.data.table 0).toSession ∧
    expired (sysNow 22000) (s.data.table 0).toSession = true ∧
    ipNaptForward s.data (sysNow 22000) quiet [] lan wan
      (Datagram.tcp 0x0204a8c0 0x3905 0x08080808 0x5000 tcpAck).packet = .ok r ∧ r.err = .rte := by
  obtain ⟨s5,deeds,path,_,asked⟩ := arrives_runs (fresh 3 0)
    [(0,browsed tcpSyn),(10,served (tcpSyn ||| tcpAck)),(20,browsed (tcpFin ||| tcpAck)),
     (30,served (tcpFin ||| tcpAck)),(40,browsed tcpAck)]
    (fun s _ => s.clock == 40 && browsingAt s 40 true true && tries s 1000 (browsed tcpSyn) fun s _ =>
      browsingAt s 1000 true true && tries s 1010 (served (tcpSyn ||| tcpAck)) fun s _ =>
        browsingAt s 1010 true true &&
          (ipNaptForward s.data (sysNow 22000) quiet [] lan wan
            (Datagram.tcp 0x0204a8c0 0x3905 0x08080808 0x5000 tcpAck).packet).toOption.any fun r => r.err == .rte)
    (by decide +kernel) (by decide)
  simp only [Bool.and_eq_true,beq_iff_eq] at asked
  obtain ⟨⟨clock5,holds5⟩,again⟩ := asked
  obtain ⟨s6,r6,sixth,clock6,asked⟩ := tries_step _ _ _ _ again (by omega)
  obtain ⟨holds6,answered⟩ := Bool.and_eq_true_iff.mp asked
  obtain ⟨s7,r7,seventh,clock7,asked⟩ := tries_step _ _ _ _ answered (by omega)
  obtain ⟨holds7,refused⟩ := Bool.and_eq_true_iff.mp asked
  have opened : Life 3 0 (fun _ _ => True) browsing s6 1000 false := by
    refine .syn (fresh_run (by decide) path) sixth ?_ rfl (by decide) trivial
    refine ⟨_,_,_,_,_,rfl,rfl,by decide,by decide,by decide,by decide,by decide,?_⟩
    unfold ipPortmapFindDest
    rw [(browsingAt_parts holds5).2.1]
    rfl
  have live : ∀ e : Session, e = (s6.data.table 0).toSession → expired (sysNow 1010) e = false := by
    intro e same
    rw [same,(browsingAt_parts holds6).2.2]
    decide
  have life := opened.incoming seventh (served_incoming holds6 live) (served_answers 1010 r7).1 (by simp only; omega)
  rw [(served_answers 1010 r7).2,Bool.false_or] at life
  obtain ⟨chain,_,entry⟩ := browsingAt_parts holds7
  cases ran : ipNaptForward s7.data (sysNow 22000) quiet [] lan wan
      (Datagram.tcp 0x0204a8c0 0x3905 0x08080808 0x5000 tcpAck).packet with
  | error fault => simp [ran,Except.toOption] at refused
  | ok r =>
    refine ⟨s7,r,life,by omega,by omega,chain,?_,?_,?_,ran,by simpa [ran,Except.toOption] using refused⟩
    · rw [entry]
      exact ⟨rfl,rfl,rfl⟩
    · rw [entry]
      exact ⟨rfl,rfl⟩
    · rw [entry]
      decide

end NonosLinkLayer.Napt
