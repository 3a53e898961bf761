import NonosLinkLayer.Napt.Replies

namespace NonosLinkLayer.Napt
open Transitions

def Translated (f : Flow) (x : Deed) : Prop :=
  ∃ pcbs draws inp outp q q' unreach, x.event = .forward pcbs draws inp outp q ∧ x.reply = .forwarded q' .ok unreach ∧
    inp.napt = true ∧ iphProto q.packet = f.proto ∧ iphSrc q.packet = f.src ∧ sender q.packet = f.sport ∧
    iphDest q.packet = f.dest ∧ receiver q.packet = f.dport ∧ iphSrc q' = outp.ipAddr ∧ sender q' = f.mport

def Recorded (past : List Deed) (a : Sessions) : Prop := ∀ f ∈ a.flows, ∃ x ∈ past, Translated f x

theorem opening_translated {x : Deed} (event : x.event = .forward pcbs draws inp outp q)
    (reply : x.reply = .forwarded q' .ok unreach) (coherent : Coherent flows) (member : f ∈ flows)
    (new : f.proto = iphProto q.packet ∧ f.src = iphSrc q.packet ∧ f.sport = sender q.packet ∧
      f.dest = iphDest q.packet ∧ f.dport = receiver q.packet)
    (opening : Opening q.packet) (on : inp.napt = true) (emitted : q' = toOutside q.packet f.mport outp.ipAddr) :
    Translated f x := by
  obtain ⟨proto,src,sport,dest,dport⟩ := new
  refine ⟨pcbs,draws,inp,outp,q,q',unreach,event,reply,on,proto.symm,src.symm,sport.symm,dest.symm,dport.symm,?_,?_⟩
  · rw [emitted]
    exact toOutside_src opening.outbound
  · rw [emitted]
    cases opening.outbound with
    | inl icmp =>
      have echo := (coherent.echoes f member (proto.trans icmp.1)).2
      rw [toOutside_icmp_sender icmp.1 q.header,echo,sport]
      unfold sender
      rw [if_pos icmp.1]
    | inr transport => exact toOutside_transport_sender transport q.header

theorem Recorded.step (recorded : Recorded past a) (distinct : a.slots.Nodup) (coherent : Coherent a'.flows)
    {x : Deed} (changes : Changes d a now x.event x.reply d' a') : Recorded (past ++ [x]) a' := by
  have older : ∀ f ∈ a.flows, ∃ y ∈ past ++ [x], Translated f y := by
    intro f member
    obtain ⟨y,inside,translated⟩ := recorded f member
    exact ⟨y,List.mem_append_left _ inside,translated⟩
  obtain ⟨time,event,reply⟩ := x
  intro f member
  cases changes with
  | received outcome => exact older f (outcome.origin.subset member)
  | forwarded outcome =>
    rcases outcome.origin distinct f member with old | ⟨proto,src,sport,dest,dport,opening,on,rfl,emitted⟩
    · exact older f old
    · exact ⟨_,List.mem_append_right past (List.mem_singleton.mpr rfl),
        opening_translated rfl rfl coherent member ⟨proto,src,sport,dest,dport⟩ opening on emitted⟩
  | mapped => exact older f member
  | unmapped => exact older f member

theorem run_recorded (run : Run natMax portmapMax past s) : ∃ a, Sound natMax s.data a ∧ Recorded past a := by
  obtain ⟨calloc,start,ran,path⟩ := run
  obtain ⟨some,same⟩ := init_tables ran
  refine path.records (I:=fun past s => ∃ a, Sound natMax s.data a ∧ Recorded past a) ?_ ?_
  · refine ⟨_,same ▸ empty_sound portmapMax some,?_⟩
    intro f member
    cases member
  · intro past s x next _ held step
    obtain ⟨a,sound,recorded⟩ := held
    obtain ⟨a',changes,after⟩ := sound.step step
    exact ⟨a',after,recorded.step sound.represents.slots_nodup after.coherent changes⟩

-- A packet from outside is only rewritten on its way in if its sender has been
-- sent to before, from the inside end it is rewritten to and from the port it
-- was sent to.
theorem answers_solicited (run : Run natMax portmapMax past s) (p : Datagram)
    (ran : ipNaptRecv s.data now p.packet = .ok (d',p')) (rewritten : p' ≠ p.packet)
    (unmapped : Transport p.packet → ∀ m ∈ s.data.portmapTable, m.valid = true →
      ¬ (m.proto = iphProto p.packet ∧ m.mport = portDest p.packet)) :
    ∃ time pcbs draws inp outp q q' unreach,
      ⟨time,.forward pcbs draws inp outp q,.forwarded q' .ok unreach⟩ ∈ past ∧ inp.napt = true ∧
      iphProto q.packet = iphProto p.packet ∧
      iphSrc q.packet = iphDest p' ∧ sender q.packet = receiver p' ∧
      iphDest q.packet = iphSrc p.packet ∧ receiver q.packet = sender p.packet ∧
      iphSrc q' = outp.ipAddr ∧ sender q' = receiver p.packet := by
  obtain ⟨a,sound,recorded⟩ := run_recorded run
  obtain ⟨d1,a',p1,ran1,received,_⟩ := recv_refines sound.represents now p.packet
  rw [ran] at ran1
  cases ran1
  cases received with
  | ignored => exact absurd rfl rewritten
  | mapped transport found =>
    rw [portmapFind_none (unmapped transport)] at found
    cases found
  | unknown => exact absurd rfl rewritten
  | @session i e inbound _ found =>
    obtain ⟨member,_,hit,_⟩ := Sessions.find_some found
    obtain ⟨proto,dest,dport,mport⟩ := lookedUp_outside hit
    have listed : e.flow ∈ a.flows := List.mem_map.mpr ⟨_,member,rfl⟩
    obtain ⟨x,inside,pcbs,draws,inp,outp,q,q',unreach,event,reply,on,qProto,qSrc,qSport,qDest,qDport,qOut,qPort⟩ :=
      recorded e.flow listed
    obtain ⟨time,_,_⟩ := x
    subst event reply
    refine ⟨time,pcbs,draws,inp,outp,q,q',unreach,inside,on,qProto.trans proto,?_,?_,qDest.trans dest,
      qDport.trans dport,qOut,qPort.trans mport⟩
    · rw [toInside_dest inbound]
      exact qSrc
    · cases inbound with
      | inl icmp =>
        have echo : e.dport = e.sport := (sound.coherent.echoes e.flow listed (proto.trans icmp.1)).1
        have id : sender p.packet = iechoId p.packet := by simp [sender,icmp.1]
        rw [toInside_icmp_receiver icmp.1 p.header,qSport]
        exact echo.symm.trans (dport.trans id)
      | inr transport =>
        rw [toInside_transport_receiver transport p.header]
        exact qSport

-- The answer of a name server, behind which stands a query.
theorem answer_solicited : ∃ (past : List Deed) (p' : Packet),
    iphDest p' = 0x0304a8c0 ∧
    ∃ time pcbs draws inp outp q q' unreach,
      ⟨time,.forward pcbs draws inp outp q,.forwarded q' .ok unreach⟩ ∈ past ∧ inp.napt = true ∧
      iphProto q.packet = ipProtoUdp ∧
      iphSrc q.packet = iphDest p' ∧ sender q.packet = receiver p' ∧
      iphDest q.packet = 0x08080808 ∧ receiver q.packet = 0x3500 ∧
      iphSrc q' = outp.ipAddr ∧ sender q' = 0x01c0 := by
  obtain ⟨s,deeds,path,_,asked⟩ := arrives_runs (fresh 3 0)
    [(0,.forward quiet [⟨0,0⟩] lan wan (.udp 0x0204a8c0 0x3905 0x08080808 0x3500)),
     (10,.forward quiet [⟨1,0⟩] lan wan (.udp 0x0304a8c0 0x3905 0x08080808 0x3500))]
    (fun s _ => s.data.portmapTable == [] &&
      match ipNaptRecv s.data 20 (Datagram.udp 0x08080808 0x3500 0x0200000a 0x01c0).packet with
      | .ok (_,p') => iphDest p' == 0x0304a8c0
      | .error _ => false) (by decide +kernel) (by decide)
  simp only [Bool.and_eq_true,beq_iff_eq] at asked
  obtain ⟨table,result⟩ := asked
  cases ran : ipNaptRecv s.data 20 (Datagram.udp 0x08080808 0x3500 0x0200000a 0x01c0).packet with
  | error fault => simp [ran] at result
  | ok r =>
    obtain ⟨d',p'⟩ := r
    have dest : iphDest p' = 0x0304a8c0 := by simpa [ran] using result
    have rewritten : p' ≠ (Datagram.udp 0x08080808 0x3500 0x0200000a 0x01c0).packet := by
      intro same
      rw [same] at dest
      exact absurd dest (by decide)
    have solicited := answers_solicited (fresh_run (by decide) path) _ ran rewritten (by rw [table]; simp)
    exact ⟨deeds,p',dest,solicited⟩

end NonosLinkLayer.Napt
