import NonosLinkLayer.Napt.Tracking

namespace NonosLinkLayer.Napt
open ExpiringScan Transitions

theorem age (past : t ≤ now) (near : now - t < 4294967296) : (sysNow now - sysNow t).toNat = now - t := by
  unfold sysNow
  rw [UInt32.toNat_sub,UInt32.toNat_ofNat',UInt32.toNat_ofNat']
  omega

theorem recent_live {e : Session} (last : e.last = sysNow t) (past : t ≤ now) (near : now ≤ t + 2000) :
    expired (sysNow now) e = false := by
  have elapsed := age past (by omega)
  have young : ∀ limit : UInt32, 2000 ≤ limit.toNat → ¬ sysNow now - e.last > limit := by
    intro limit enough late
    have late := UInt32.lt_iff_toNat_lt.mp late
    rw [last,elapsed] at late
    omega
  unfold expired
  simp [young ipNaptTimeoutMsTcpDiscon (by decide),young ipNaptTimeoutMsTcp (by decide),
    young ipNaptTimeoutMsUdp (by decide),young ipNaptTimeoutMsIcmp (by decide)]

def Displaces (f : Flow) (x : Deed) : Prop :=
  ∃ pcbs draws inp outp p, x.event = .forward pcbs draws inp outp p ∧ Opening p.packet ∧
    iphProto p.packet = f.proto ∧ iphSrc p.packet = f.src ∧ sender p.packet = f.sport ∧
    ¬ (iphDest p.packet = f.dest ∧ receiver p.packet = f.dport)

def Alive (natMax : UInt16) (f : Flow) (since : Nat) (s : System) : Prop :=
  ∃ a i e t, Sound natMax s.data a ∧ (i,e) ∈ a.active ∧ e.flow = f ∧ e.last = sysNow t ∧ since ≤ t ∧ t ≤ s.clock

theorem Alive.step (alive : Alive natMax f since s) (step : Step s x next) (soon : x.now ≤ since + 2000)
    (stays : ¬ Displaces f x) : Alive natMax f since next := by
  obtain ⟨a,i,e,t,sound,member,flow,last,used,before⟩ := alive
  have clock := step.1
  have now := step.2.1
  have later : since ≤ x.now := by omega
  have reached : x.now ≤ next.clock := by omega
  have live : expired (sysNow x.now) e = false := recent_live last (by omega) (by omega)
  obtain ⟨a',changes,sound'⟩ := sound.step step
  obtain ⟨e',member',touch⟩ := changes.entry sound.represents.slots_nodup member live
  obtain ⟨time,event,reply⟩ := x
  cases touch with
  | untouched => exact ⟨a',i,e,t,sound',member',flow,last,used,by omega⟩
  | answered =>
    refine ⟨a',i,_,time,sound',member',?_,?_,later,reached⟩
    · rw [noteInbound_flow]
      exact flow
    · exact noteInbound_last ..
  | continued =>
    refine ⟨a',i,_,time,sound',member',?_,?_,later,reached⟩
    · rw [noteOutbound_flow]
      exact flow
    · exact noteOutbound_last ..
  | refused => exact ⟨a',i,_,time,sound',member',flow,rfl,later,reached⟩
  | @taken _ pcbs draws inp outp p on opening fits unmapped =>
    refine ⟨a',i,_,time,sound',member',?_,rfl,later,reached⟩
    obtain ⟨proto,src,sport⟩ := lookedUp_inside fits
    have same : iphDest p.packet = f.dest ∧ receiver p.packet = f.dport := by
      refine Classical.byContradiction fun other => stays ?_
      rw [←flow] at other ⊢
      exact ⟨pcbs,draws,inp,outp,p,rfl,opening,proto.symm,src.symm,sport.symm,other⟩
    rw [same.1,same.2,←flow]
    rfl

theorem Alive.runs (alive : Alive natMax f since s) (path : Runs Step s later s') (soon : s'.clock ≤ since + 2000)
    (stay : ∀ x ∈ later, ¬ Displaces f x) : Alive natMax f since s' := by
  induction path with
  | nil => exact alive
  | step prior step ih =>
    have clock := step.1
    have now := step.2.1
    have earlier := ih (by omega) (fun x member => stay x (List.mem_append_left _ member))
    exact earlier.step step (by omega) (stay _ (by simp))

theorem Added.registered (distinct : a'.slots.Nodup) (coherent : Coherent a'.flows)
    (added : Added a now proto src sport dest dport a' mport) (member : (i,e) ∈ a'.active)
    (own : e.proto = proto ∧ e.src = src ∧ e.sport = sport) :
    (∃ old, (i,old) ∈ a.active ∧ expired now old = false ∧ e = {old with last := now,dest := dest,dport := dport}) ∨
    e = ⟨now,src,dest,sport,dport,mport,proto,false,false,false,false,false,false⟩ := by
  obtain ⟨isProto,isSrc,isSport⟩ := own
  have first : ∀ {j f}, (j,f) ∈ a'.active → f.proto = proto → f.src = src → f.sport = sport → j = i ∧ f = e := by
    intro j f listed proto src sport
    by_cases here : i = j
    · subst here
      exact ⟨rfl,slot_unique distinct listed member⟩
    · exact absurd ⟨isProto.trans proto.symm,isSrc.trans src.symm,isSport.trans sport.symm⟩
        (coherent.apart member listed here).1
  cases added with
  | @reused j f found =>
    obtain ⟨listed,live,hit,_⟩ := Sessions.find_some found
    obtain ⟨isProto,isSrc,isSport⟩ := lookedUp_inside hit
    obtain ⟨here,same⟩ := first (List.mem_cons_self ..) isProto isSrc isSport
    subst here same
    exact .inl ⟨f,listed,live,rfl⟩
  | opened =>
    obtain ⟨_,same⟩ := first (List.mem_cons_self ..) rfl rfl rfl
    exact .inr same.symm
  | full missing =>
    obtain ⟨foreign,listed⟩ := Sessions.find_none missing
    rw [listed] at member
    obtain ⟨old,live⟩ := List.mem_filter.mp member
    have missed := foreign _ old (by simpa using live)
    rw [←isProto,←isSrc,←isSport,lookedUp_inside_hit] at missed
    cases missed

def OpenedAt (natMax : UInt16) (portmapMax : UInt8) (f : Flow) (since : Nat) (s : System) : Prop :=
  ∃ past before pcbs draws inp outp q reply, Run natMax portmapMax past before ∧
    Step before ⟨since,.forward pcbs draws inp outp q,reply⟩ s ∧ inp.napt = true ∧
    Transport q.packet ∧ Opening q.packet ∧
    ipPortmapFindDest before.data (iphProto q.packet) (portSrc q.packet) (iphSrc q.packet) = none ∧
    iphProto q.packet = f.proto ∧ iphSrc q.packet = f.src ∧ portSrc q.packet = f.sport ∧
    iphDest q.packet = f.dest ∧ portDest q.packet = f.dport ∧
    ∃ i ∈ activeChain s.data, (s.data.table i).toSession.flow = f

theorem OpenedAt.alive (opened : OpenedAt natMax portmapMax f since s) : Alive natMax f since s := by
  obtain ⟨past,before,pcbs,draws,inp,outp,q,reply,run,step,on,transport,opening,unmapped,proto,src,sport,_,_,i,listed,flow⟩ :=
    opened
  obtain ⟨a,sound⟩ := run_sound run
  obtain ⟨a',changes,sound'⟩ := sound.step step
  have member := sound'.entry listed
  refine ⟨a',i,_,since,sound',member,flow,?_,Nat.le_refl _,Nat.le_of_eq step.2.1.symm⟩
  cases changes with
  | forwarded outcome =>
    cases outcome with
    | off off => rw [off] at on; cases on
    | ignored _ other => exact absurd opening.outbound other
    | mapped _ _ found => rw [unmapped] at found; cases found
    | registered _ _ _ added =>
      have own := added.registered sound'.represents.slots_nodup sound'.coherent member ⟨by rw [proto,←flow]; rfl,
        by rw [src,←flow]; rfl,by rw [sender_transport transport,sport,←flow]; rfl⟩
      rcases own with ⟨old,_,_,renewed⟩ | new
      · rw [renewed]
      · rw [new]
    | continued _ _ midway => exact absurd opening midway
    | refused _ _ midway => exact absurd opening midway

section Lookups
variable {d : NaptData} {a : Sessions} {p : Packet}

theorem recv_mapped (rep : Represents d a) (now : UInt32) (transport : Transport p)
    (found : ipPortmapFind d (iphProto p) (portDest p) = some (k,m)) :
    ∃ d', ipNaptRecv d now p = .ok (d',toInside p m.dport m.daddr) := by
  obtain ⟨d',a',p',ran,received,_⟩ := recv_refines rep now p
  refine ⟨d',?_⟩
  cases received with
  | ignored other => exact absurd (.inr transport) other
  | mapped _ found' =>
    rw [found] at found'
    cases found'
    exact ran
  | unknown _ unmapped => rw [unmapped transport] at found; cases found
  | session _ unmapped => rw [unmapped transport] at found; cases found

theorem forward_mapped (d : NaptData) (now : UInt32) (pcbs : LocalPcbs) (draws : List Draw) (outp : Netif)
    (on : inp.napt = true) (transport : Transport p)
    (found : ipPortmapFindDest d (iphProto p) (portSrc p) (iphSrc p) = some (k,m)) :
    ∃ r, ipNaptForward d now pcbs draws inp outp p = .ok r ∧ r.err = .ok ∧ r.packet = toOutside p m.mport m.maddr := by
  have icmp : iphProto p ≠ ipProtoIcmp := fun yes => icmp_no_transport yes transport
  unfold ipNaptForward
  rw [if_neg (by simp [on]),if_neg icmp]
  cases transport with
  | inl tcp =>
    rw [tcp] at found
    rw [if_pos tcp,found,toOutside_tcp tcp]
    exact ⟨_,rfl,rfl,rfl⟩
  | inr udp =>
    rw [udp] at found
    rw [if_neg (by rw [udp]; decide),if_pos udp,found,toOutside_udp udp]
    exact ⟨_,rfl,rfl,rfl⟩

theorem forward_session (sound : Sound natMax d a) (member : (i,e) ∈ a.active) (live : expired now e = false)
    (on : inp.napt = true) (transport : Transport p)
    (unmapped : ipPortmapFindDest d (iphProto p) (portSrc p) (iphSrc p) = none)
    (own : iphProto p = e.proto ∧ iphSrc p = e.src ∧ portSrc p = e.sport)
    (same : e.dest = iphDest p ∧ e.dport = portDest p) :
    ∃ r, ipNaptForward d now pcbs draws inp outp p = .ok r ∧ r.err = .ok ∧ r.packet = toOutside p e.mport outp.ipAddr := by
  have found := out_found sound member live transport own
  rcases forward_refines sound.represents now pcbs draws inp outp p with ⟨_,missing⟩ | ⟨r,a',ran,outcome,_⟩
  · rw [found] at missing
    cases missing
  · obtain ⟨data,packet,err,unreach⟩ := r
    refine ⟨_,ran,?_⟩
    cases outcome with
    | off off => rw [off] at on; cases on
    | ignored _ other => exact absurd (.inr transport) other
    | mapped _ _ mapped => rw [unmapped] at mapped; cases mapped
    | registered _ _ _ added =>
      cases added with
      | reused found' =>
        change (a.find now (outKey p)).2 = _ at found'
        rw [found] at found'
        cases found'
        exact ⟨rfl,rfl⟩
      | opened missing =>
        change (a.find now (outKey p)).2 = _ at missing
        rw [found] at missing
        cases missing
      | full missing =>
        change (a.find now (outKey p)).2 = _ at missing
        rw [found] at missing
        cases missing
    | continued _ _ _ _ found' =>
      rw [found] at found'
      cases found'
      exact ⟨rfl,rfl⟩
    | refused _ _ _ _ foreign => exact absurd same (foreign _ _ found)

end Lookups

theorem Alive.answer (alive : Alive natMax f since s) (clock : s.clock ≤ time) (recent : time ≤ since + 2000)
    (r : Datagram) (transport : Transport r.packet) (proto : iphProto r.packet = f.proto)
    (src : iphSrc r.packet = f.dest) (sport : portSrc r.packet = f.dport) (dport : portDest r.packet = f.mport) :
    ∃ d', ipNaptRecv s.data (sysNow time) r.packet = .ok (d',
      match ipPortmapFind s.data f.proto f.mport with
      | some (_,m) => toInside r.packet m.dport m.daddr
      | none => toInside r.packet f.sport f.src) := by
  obtain ⟨a,i,e,t,sound,member,flow,last,used,before⟩ := alive
  have live : expired (sysNow time) e = false := recent_live last (by omega) (by omega)
  rw [←flow] at proto src sport dport ⊢
  cases mapped : ipPortmapFind s.data e.flow.proto e.flow.mport with
  | some x =>
    rw [←proto,←dport] at mapped
    exact recv_mapped sound.represents _ transport mapped
  | none =>
    rw [←proto,←dport] at mapped
    exact recv_found sound.represents (.inr transport) (fun _ => mapped)
      (in_found sound member live transport ⟨proto,src,sport,dport⟩)

theorem Alive.sent (alive : Alive natMax f since s) (clock : s.clock ≤ time) (recent : time ≤ since + 2000)
    (o : Datagram) (transport : Transport o.packet) (proto : iphProto o.packet = f.proto)
    (src : iphSrc o.packet = f.src) (sport : portSrc o.packet = f.sport) (dest : iphDest o.packet = f.dest)
    (dport : portDest o.packet = f.dport) (pcbs : LocalPcbs) (draws : List Draw) (on : inp.napt = true) (outp : Netif) :
    ∃ r, ipNaptForward s.data (sysNow time) pcbs draws inp outp o.packet = .ok r ∧ r.err = .ok ∧
      r.packet = match ipPortmapFindDest s.data f.proto f.sport f.src with
        | some (_,m) => toOutside o.packet m.mport m.maddr
        | none => toOutside o.packet f.mport outp.ipAddr := by
  obtain ⟨a,i,e,t,sound,member,flow,last,used,before⟩ := alive
  have live : expired (sysNow time) e = false := recent_live last (by omega) (by omega)
  rw [←flow] at proto src sport dest dport ⊢
  cases mapped : ipPortmapFindDest s.data e.flow.proto e.flow.sport e.flow.src with
  | some x =>
    rw [←proto,←src,←sport] at mapped
    exact forward_mapped _ _ _ _ _ on transport mapped
  | none =>
    rw [←proto,←src,←sport] at mapped
    exact forward_session sound member live on transport mapped ⟨proto,src,sport⟩ ⟨dest.symm,dport.symm⟩

theorem forward_keeps_mappings (sound : Sound natMax s.data a)
    (step : Step s ⟨now,.forward pcbs draws inp outp p,reply⟩ next) : next.data.portmapTable = s.data.portmapTable := by
  obtain ⟨a',changes,_⟩ := sound.step step
  cases changes with
  | forwarded _ fixed => exact fixed.1

-- A packet from one inside end does not change how the session of another is
-- translated, as long as that one has not itself been opened anew to elsewhere.
theorem sessions_independent (opened : OpenedAt natMax portmapMax f since s1) (onward : Runs Step s1 later s2)
    (kept : ∀ x ∈ later, ¬ Displaces f x)
    (step : Step s2 ⟨now,.forward pcbs draws inp outp p,reply⟩ s3)
    (other : ¬ (iphProto p.packet = f.proto ∧ iphSrc p.packet = f.src ∧ sender p.packet = f.sport))
    (clock : s3.clock ≤ time) (recent : time < since + 2000) :
    (∀ r : Datagram, Transport r.packet → iphProto r.packet = f.proto → iphSrc r.packet = f.dest →
      portSrc r.packet = f.dport → portDest r.packet = f.mport →
      ∃ d2 d3 p', ipNaptRecv s2.data (sysNow time) r.packet = .ok (d2,p') ∧
        ipNaptRecv s3.data (sysNow time) r.packet = .ok (d3,p') ∧
        ((∀ m ∈ s3.data.portmapTable, m.valid = true → ¬ (m.proto = f.proto ∧ m.mport = f.mport)) →
          iphDest p' = f.src ∧ portDest p' = f.sport)) ∧
    (∀ o : Datagram, Transport o.packet → iphProto o.packet = f.proto → iphSrc o.packet = f.src →
      portSrc o.packet = f.sport → iphDest o.packet = f.dest → portDest o.packet = f.dport →
      ∀ pcbs draws inp outp, inp.napt = true →
      ∃ r2 r3, ipNaptForward s2.data (sysNow time) pcbs draws inp outp o.packet = .ok r2 ∧
        ipNaptForward s3.data (sysNow time) pcbs draws inp outp o.packet = .ok r3 ∧
        r2.packet = r3.packet ∧ r2.err = .ok ∧ r3.err = .ok ∧
        ((∀ m ∈ s3.data.portmapTable, m.valid = true →
            ¬ (m.proto = f.proto ∧ m.dport = f.sport ∧ m.daddr = f.src)) →
          iphSrc r3.packet = outp.ipAddr ∧ portSrc r3.packet = f.mport)) := by
  have ahead := step.1
  have reached := step.2.1
  simp only at ahead reached
  have two := opened.alive.runs onward (by omega) kept
  have three : Alive natMax f since s3 := by
    refine two.step step ?_ ?_
    · simp only
      omega
    · intro displaced
      obtain ⟨_,_,_,_,q,event,_,proto,src,sport,_⟩ := displaced
      cases event
      exact other ⟨proto,src,sport⟩
  have same : s3.data.portmapTable = s2.data.portmapTable := by
    obtain ⟨a,_,_,_,sound,_⟩ := two
    exact forward_keeps_mappings sound step
  have before2 : s2.clock ≤ time := by omega
  constructor
  · intro r transport proto src sport dport
    obtain ⟨d2,before⟩ := two.answer before2 (by omega) r transport proto src sport dport
    obtain ⟨d3,after⟩ := three.answer clock (by omega) r transport proto src sport dport
    have lookup : ipPortmapFind s2.data f.proto f.mport = ipPortmapFind s3.data f.proto f.mport := by
      unfold ipPortmapFind
      rw [same]
    rw [lookup] at before
    refine ⟨d2,d3,_,before,after,?_⟩
    intro unmapped
    rw [portmapFind_none unmapped]
    exact ⟨toInside_dest (.inr transport),toInside_portDest transport r.header⟩
  · intro o transport proto src sport dest dport pcbs draws inp outp on
    obtain ⟨r2,before,ok2,packet2⟩ :=
      two.sent before2 (by omega) o transport proto src sport dest dport pcbs draws on outp
    obtain ⟨r3,after,ok3,packet3⟩ :=
      three.sent clock (by omega) o transport proto src sport dest dport pcbs draws on outp
    have lookup : ipPortmapFindDest s2.data f.proto f.sport f.src = ipPortmapFindDest s3.data f.proto f.sport f.src := by
      unfold ipPortmapFindDest
      rw [same]
    rw [lookup] at packet2
    refine ⟨r2,r3,before,after,packet2.trans packet3.symm,ok2,ok3,?_⟩
    intro unmapped
    rw [packet3,portmapFindDest_none unmapped]
    exact ⟨toOutside_src (.inr transport),toOutside_portSrc transport o.header⟩

-- Two hosts with the same source port; the packet of the second comes in between.
theorem neighbours_independent : ∃ (s2 s3 : System) (d2 d3 : NaptData) (p' : Packet),
    ipNaptRecv s2.data (sysNow 20) (Datagram.udp 0x08080808 0x3500 0x0200000a 0xc0).packet = .ok (d2,p') ∧
    ipNaptRecv s3.data (sysNow 20) (Datagram.udp 0x08080808 0x3500 0x0200000a 0xc0).packet = .ok (d3,p') ∧
    iphDest p' = 0x0204a8c0 ∧ portDest p' = 0x3905 := by
  let f : Flow := ⟨ipProtoUdp,0x0204a8c0,0x3905,0x08080808,0x3500,0xc0⟩
  obtain ⟨s1,r1,first,clock1,asked⟩ := tries_step (fresh 3 0) 0
    (.forward quiet [⟨0,0⟩] lan wan (.udp 0x0204a8c0 0x3905 0x08080808 0x3500))
    (fun s _ => activeChain s.data == [0] && (s.data.table 0).toSession.flow == f &&
      tries s 10 (.forward quiet [⟨1,0⟩] lan wan (.udp 0x0304a8c0 0x3905 0x08080808 0x3500))
        fun s _ => s.data.portmapTable == []) (by decide +kernel) (by decide)
  simp only [Bool.and_eq_true,beq_iff_eq] at asked
  obtain ⟨⟨chain,entry⟩,second⟩ := asked
  obtain ⟨s3,r3,step,clock3,table⟩ := tries_step _ _ _ _ second (by omega)
  have opened : OpenedAt 3 0 f 0 s1 :=
    ⟨[],fresh 3 0,_,_,_,_,_,_,fresh_run (by decide) .nil,first,rfl,by decide,by decide,by decide,by decide,by decide,
      by decide,by decide,by decide,0,by rw [chain]; decide,entry⟩
  obtain ⟨answers,_⟩ := sessions_independent opened .nil (by simp) step (by decide)
    (show s3.clock ≤ 20 by omega) (by omega)
  obtain ⟨d2,d3,p',before,after,back⟩ := answers (.udp 0x08080808 0x3500 0x0200000a 0xc0) (by decide) (by decide)
    (by decide) (by decide) (by decide)
  have free := back (by rw [show s3.data.portmapTable = [] by simpa using table]; simp)
  exact ⟨s1,s3,d2,d3,p',before,after,free⟩

-- One inside end with two outside ends. Both sessions are younger than two
-- seconds, and no answer of the first one finds its way back.
theorem same_end_displaced : ∃ (past : List Deed) (s : System) (d' : NaptData) (p' : Packet),
    Run 3 0 past s ∧
    past.map (fun x => (x.now,x.event)) =
      [(0,.forward quiet [⟨0,0⟩] lan wan (.udp 0x0204a8c0 0x3905 0x08080808 0x3500)),
       (10,.forward quiet [] lan wan (.udp 0x0204a8c0 0x3905 0x09090909 0x3500)),
       (15,.forward quiet [] lan wan (.udp 0x0204a8c0 0x3905 0x09090909 0x3500))] ∧
    past.map (fun x => x.reply.sent) =
      [some (.ok,0x0200000a,0xc0),some (.ok,0x0200000a,0xc0),some (.ok,0x0200000a,0xc0)] ∧
    ipNaptRecv s.data (sysNow 20) (Datagram.udp 0x08080808 0x3500 0x0200000a 0xc0).packet = .ok (d',p') ∧
    ¬ (iphDest p' = 0x0204a8c0 ∧ portDest p' = 0x3905) := by
  obtain ⟨s,deeds,path,ran,asked⟩ := arrives_runs (fresh 3 0)
    [(0,.forward quiet [⟨0,0⟩] lan wan (.udp 0x0204a8c0 0x3905 0x08080808 0x3500)),
     (10,.forward quiet [] lan wan (.udp 0x0204a8c0 0x3905 0x09090909 0x3500)),
     (15,.forward quiet [] lan wan (.udp 0x0204a8c0 0x3905 0x09090909 0x3500))]
    (fun s deeds => deeds.map (fun x => x.reply.sent) ==
        [some (.ok,0x0200000a,0xc0),some (.ok,0x0200000a,0xc0),some (.ok,0x0200000a,0xc0)] &&
      match ipNaptRecv s.data (sysNow 20) (Datagram.udp 0x08080808 0x3500 0x0200000a 0xc0).packet with
      | .ok (_,p') => iphDest p' == 0x0200000a
      | .error _ => false) (by decide +kernel) (by decide)
  simp only [Bool.and_eq_true,beq_iff_eq] at asked
  obtain ⟨sent,result⟩ := asked
  cases received : ipNaptRecv s.data (sysNow 20) (Datagram.udp 0x08080808 0x3500 0x0200000a 0xc0).packet with
  | error fault => simp [received] at result
  | ok r =>
    obtain ⟨d',p'⟩ := r
    have dest : iphDest p' = 0x0200000a := by simpa [received] using result
    refine ⟨deeds,s,d',p',fresh_run (by decide) path,execute_events ran,sent,received,?_⟩
    intro back
    rw [dest] at back
    exact absurd back.1 (by decide)

end NonosLinkLayer.Napt
