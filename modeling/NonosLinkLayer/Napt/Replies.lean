import NonosLinkLayer.Napt.Intact
import Mathlib.Data.List.Pairwise

namespace NonosLinkLayer.Napt
open ExpiringScan LinkPool Transitions

theorem find_first {a : Sessions} (split : a.active = before ++ (i,e) :: after) (live : expired now e = false)
    (hit : wanted e = true) (first : ∀ x ∈ before, expired now x.2 = false → wanted x.2 = false) :
    (a.find now wanted).2 = some (i,e) := by
  unfold Sessions.find
  rw [split]
  exact scan_first live hit first

section Entries
variable {d : NaptData} {a : Sessions}

theorem Sound.chain (sound : Sound natMax d a) : activeChain d = a.slots := by
  have rep := sound.represents
  have bound : a.slots.length ≤ d.naptMax := by
    unfold Sessions.slots
    rw [List.length_map]
    exact rep.length_bounded
  exact walk_path rep.shape.forward bound

theorem Sound.entry (sound : Sound natMax d a) (member : i ∈ activeChain d) : (i,(d.table i).toSession) ∈ a.active := by
  rw [sound.chain] at member
  obtain ⟨x,inside,same⟩ := List.mem_map.mp member
  have stored := sound.represents.stored x inside
  subst same
  rw [stored]
  exact inside

theorem Sound.listed (sound : Sound natMax d a) (member : (i,e) ∈ a.active) :
    i ∈ activeChain d ∧ (d.table i).toSession = e := by
  rw [sound.chain]
  exact ⟨List.mem_map_of_mem member,sound.represents.stored _ member⟩

theorem Coherent.apart (coherent : Coherent a.flows) (one : (i,e) ∈ a.active) (two : (j,f) ∈ a.active)
    (other : i ≠ j) : ¬ SharesEnd e.flow f.flow ∧ ¬ SharesPort e.flow f.flow := by
  have different : (i,e) ≠ (j,f) := fun same => other (congrArg Prod.fst same)
  have symmEnds : Std.Symm fun x y : Nat × Session => ¬ SharesEnd x.2.flow y.2.flow :=
    ⟨fun _ _ apart shared => apart shared.symm⟩
  have symmPorts : Std.Symm fun x y : Nat × Session => ¬ SharesPort x.2.flow y.2.flow :=
    ⟨fun _ _ apart shared => apart shared.symm⟩
  exact ⟨(List.pairwise_map.mp coherent.ends).forall one two different,
    (List.pairwise_map.mp coherent.ports).forall one two different⟩

theorem recv_found (rep : Represents d a) (inbound : Inbound p)
    (unmapped : Transport p → ipPortmapFind d (iphProto p) (portDest p) = none)
    (found : (a.find now (inKey p)).2 = some (i,e)) : ∃ d', ipNaptRecv d now p = .ok (d',toInside p e.sport e.src) := by
  obtain ⟨d',a',p',ran,received,_⟩ := recv_refines rep now p
  refine ⟨d',?_⟩
  cases received with
  | ignored other => exact absurd inbound other
  | mapped transport mapped =>
    rw [unmapped transport] at mapped
    cases mapped
  | unknown _ _ missing =>
    rw [found] at missing
    cases missing
  | session _ _ found' =>
    rw [found] at found'
    cases found'
    exact ran

end Entries

-- A session of TCP or UDP is the only one an answer to its port can fit.
theorem inKey_alone {a : Sessions} (coherent : Coherent a.flows) (split : a.active = before ++ (i,e) :: after)
    (proto : iphProto p = e.proto) (ported : e.proto = ipProtoTcp ∨ e.proto = ipProtoUdp)
    (receiver : receiver p = e.mport) : ∀ x ∈ before, inKey p x.2 = false := by
  intro x member
  cases hit : inKey p x.2 with
  | false => rfl
  | true =>
    obtain ⟨isProto,_,_,isPort⟩ := lookedUp_outside hit
    have ports := coherent.ports
    unfold Sessions.flows at ports
    rw [split,List.map_append,List.map_cons] at ports
    have apart := (List.pairwise_append.mp ports).2.2 x.2.flow (List.mem_map.mpr ⟨x,member,rfl⟩) e.flow (by simp)
    have sameProto : x.2.proto = e.proto := isProto.trans proto
    exact absurd ⟨by simpa [Session.flow,sameProto] using ported,sameProto,isPort.trans receiver⟩ apart

section Lookups
variable {d : NaptData} {a : Sessions} {p : Packet}

theorem out_found (sound : Sound natMax d a) (member : (i,e) ∈ a.active) (live : expired now e = false)
    (transport : Transport p) (own : iphProto p = e.proto ∧ iphSrc p = e.src ∧ portSrc p = e.sport) :
    (a.find now (outKey p)).2 = some (i,e) := by
  obtain ⟨proto,src,sport⟩ := own
  obtain ⟨before,after,split⟩ := List.append_of_mem member
  have fits : outKey p e = true := by
    unfold outKey
    rw [sender_transport transport,proto,src,sport]
    exact lookedUp_inside_hit e
  refine find_first split live fits ?_
  intro x inside _
  cases hit : outKey p x.2 with
  | false => rfl
  | true =>
    obtain ⟨xProto,xSrc,xSport⟩ := lookedUp_inside hit
    have ends := sound.coherent.ends
    unfold Sessions.flows at ends
    rw [split,List.map_append,List.map_cons] at ends
    have apart := (List.pairwise_append.mp ends).2.2 x.2.flow (List.mem_map.mpr ⟨x,inside,rfl⟩) e.flow (by simp)
    rw [sender_transport transport] at xSport
    exact absurd ⟨xProto.trans proto,xSrc.trans src,xSport.trans sport⟩ apart

theorem in_found (sound : Sound natMax d a) (member : (i,e) ∈ a.active) (live : expired now e = false)
    (transport : Transport p) (own : iphProto p = e.proto ∧ iphSrc p = e.dest ∧ portSrc p = e.dport ∧ portDest p = e.mport) :
    (a.find now (inKey p)).2 = some (i,e) := by
  obtain ⟨proto,src,sport,dport⟩ := own
  obtain ⟨before,after,split⟩ := List.append_of_mem member
  have receives : receiver p = e.mport := (receiver_transport transport).trans dport
  have ported : e.proto = ipProtoTcp ∨ e.proto = ipProtoUdp := by
    unfold Transport at transport
    rw [proto] at transport
    exact transport
  have fits : inKey p e = true := by
    unfold inKey
    rw [sender_transport transport,receives,proto,src,sport]
    exact lookedUp_outside_hit e
  exact find_first split live fits fun x inside _ => inKey_alone sound.coherent split proto ported receives x inside

end Lookups

-- Mapped ports of TCP and UDP are unique, and an answer to the port of a live
-- session goes back to the inside end of this session.
theorem answers_return (run : Run natMax portmapMax past s) :
    (∀ i ∈ activeChain s.data, ∀ j ∈ activeChain s.data, i ≠ j →
      (s.data.table i).proto = ipProtoTcp ∨ (s.data.table i).proto = ipProtoUdp →
      (s.data.table i).proto = (s.data.table j).proto → (s.data.table i).mport ≠ (s.data.table j).mport) ∧
    ∀ i ∈ activeChain s.data, ∀ now,
      (s.data.table i).proto = ipProtoTcp ∨ (s.data.table i).proto = ipProtoUdp →
      expired now (s.data.table i).toSession = false →
      (∀ m ∈ s.data.portmapTable, m.valid = true →
        ¬ (m.proto = (s.data.table i).proto ∧ m.mport = (s.data.table i).mport)) →
      ∀ p : Datagram, iphProto p.packet = (s.data.table i).proto → iphSrc p.packet = (s.data.table i).dest →
        portSrc p.packet = (s.data.table i).dport → portDest p.packet = (s.data.table i).mport →
        ∃ d' p', ipNaptRecv s.data now p.packet = .ok (d',p') ∧
          iphDest p' = (s.data.table i).src ∧ portDest p' = (s.data.table i).sport := by
  obtain ⟨a,sound⟩ := run_sound run
  constructor
  · intro i one j two other ported sameProto sameMport
    have apart := (sound.coherent.apart (sound.entry one) (sound.entry two) other).2
    exact apart ⟨ported,sameProto,sameMport⟩
  · intro i member now ported live unmapped p proto src sport dport
    have transport : Transport p.packet := by
      unfold Transport
      rw [proto]
      exact ported
    have free : ipPortmapFind s.data (iphProto p.packet) (portDest p.packet) = none := by
      rw [proto,dport]
      exact portmapFind_none unmapped
    obtain ⟨d',ran⟩ := recv_found sound.represents (.inr transport) (fun _ => free)
      (in_found sound (sound.entry member) live transport ⟨proto,src,sport,dport⟩)
    exact ⟨d',_,ran,toInside_dest (.inr transport),toInside_portDest transport p.header⟩

-- The second session of UDP, and an answer to it.
theorem answer_returns : ∃ (s : System) (d' : NaptData) (p' : Packet),
    ipNaptRecv s.data 2004 (Datagram.udp 0x08080808 0x3500 0x0200000a 0x01c0).packet = .ok (d',p') ∧
      iphDest p' = 0x0304a8c0 ∧ portDest p' = 0x3905 := by
  obtain ⟨s,deeds,path,_,asked⟩ := arrives_runs (fresh 3 2)
    [(0,.forward quiet [⟨0,0⟩] lan wan (.udp 0x0204a8c0 0x3905 0x08080808 0x3500)),
     (10,.forward quiet [⟨1,0⟩] lan wan (.udp 0x0304a8c0 0x3905 0x08080808 0x3500))]
    (fun s _ => s.data.list == 1 && activeChain s.data == [1,0] &&
      (s.data.table 1).toSession ==
        ⟨10,0x0304a8c0,0x08080808,0x3905,0x3500,0x01c0,ipProtoUdp,false,false,false,false,false,false⟩ &&
      s.data.portmapTable == [PortmapTable.zero,PortmapTable.zero]) (by decide +kernel) (by decide)
  simp only [Bool.and_eq_true,beq_iff_eq] at asked
  obtain ⟨⟨⟨_,chain⟩,entry⟩,table⟩ := asked
  obtain ⟨_,returns⟩ := answers_return (fresh_run (by decide) path)
  have unmapped : ∀ m ∈ s.data.portmapTable, m.valid = true →
      ¬ (m.proto = (s.data.table 1).proto ∧ m.mport = (s.data.table 1).mport) := by
    intro m member valid
    rw [table] at member
    have off : ∀ m ∈ [PortmapTable.zero,PortmapTable.zero], m.valid = false := by decide
    rw [off m member] at valid
    cases valid
  have returned := returns 1 (by rw [chain]; decide) 2004 (by rw [entry]; decide) (by rw [entry]; decide)
    unmapped (.udp 0x08080808 0x3500 0x0200000a 0x01c0)
  rw [entry] at returned
  obtain ⟨d',p',arrived⟩ := returned (by decide) (by decide) (by decide) (by decide)
  exact ⟨s,d',p',arrived⟩

-- Echo sessions keep the identifier of their request, so those of two hosts may
-- look the same from outside. A reply goes to the one in front, which is the
-- one whose host sent a request last.
theorem echo_replies_return (run : Run natMax portmapMax past s) :
    ∀ i ∈ activeChain s.data, ∀ now,
      (s.data.table i).proto = ipProtoIcmp → expired now (s.data.table i).toSession = false →
      (∀ j ∈ (activeChain s.data).takeWhile (· ≠ i), expired now (s.data.table j).toSession = false →
        (s.data.table j).proto = ipProtoIcmp →
        ¬ ((s.data.table j).dest = (s.data.table i).dest ∧ (s.data.table j).sport = (s.data.table i).sport)) →
      ∀ p : Datagram, iphProto p.packet = ipProtoIcmp → iechoType p.packet = icmpEr →
        iphSrc p.packet = (s.data.table i).dest → iechoId p.packet = (s.data.table i).sport →
        ∃ d' p', ipNaptRecv s.data now p.packet = .ok (d',p') ∧
          iphDest p' = (s.data.table i).src ∧ iechoId p' = iechoId p.packet := by
  obtain ⟨a,sound⟩ := run_sound run
  intro i member now icmp live first p isIcmp reply src id
  have stored := sound.entry member
  obtain ⟨before,after,split⟩ := List.append_of_mem stored
  have inbound : Inbound p.packet := .inl ⟨isIcmp,reply⟩
  have echo := fun x inside => sound.coherent.echoes x inside
  have own := echo (s.data.table i).flow (List.mem_map.mpr ⟨_,stored,rfl⟩) icmp
  have ends : sender p.packet = iechoId p.packet ∧ receiver p.packet = iechoId p.packet := by
    simp [sender,receiver,isIcmp]
  have fits : inKey p.packet (s.data.table i).toSession = true := by
    have sameDport : (s.data.table i).dport = (s.data.table i).sport := own.1
    have sameMport : (s.data.table i).mport = (s.data.table i).sport := own.2
    unfold inKey
    rw [ends.1,ends.2,src,id,isIcmp,←icmp]
    simp [lookedUp,sameDport,sameMport]
  have ahead : (activeChain s.data).takeWhile (· ≠ i) = before.map Prod.fst := by
    have distinct := sound.represents.slots_nodup
    rw [sound.chain]
    unfold Sessions.slots at distinct ⊢
    rw [split,List.map_append,List.map_cons] at distinct ⊢
    have foreign := (List.nodup_cons.mp (List.nodup_middle.mp distinct)).1
    rw [List.takeWhile_append_of_pos,List.takeWhile_cons_of_neg (by simp),List.append_nil]
    intro j inside
    have apart : j ≠ i := by
      rintro rfl
      exact foreign (List.mem_append_left _ inside)
    simpa using apart
  have alone : ∀ x ∈ before, expired now x.2 = false → inKey p.packet x.2 = false := by
    intro x inside stays
    have entry : (s.data.table x.1).toSession = x.2 := sound.represents.stored x (by rw [split]; simp [inside])
    cases hit : inKey p.packet x.2 with
    | false => rfl
    | true =>
      obtain ⟨xProto,xDest,xDport,_⟩ := lookedUp_outside hit
      rw [isIcmp] at xProto
      rw [ends.1,id] at xDport
      rw [src] at xDest
      have same := (echo x.2.flow (List.mem_map.mpr ⟨x,by rw [split]; simp [inside],rfl⟩) xProto).1
      refine absurd ⟨?_,?_⟩ (first x.1 (ahead ▸ List.mem_map_of_mem inside) (by rw [entry]; exact stays)
        (by rw [entry]; exact xProto))
      · rw [entry]; exact xDest
      · rw [entry]; exact same.symm.trans xDport
  obtain ⟨d',ran⟩ := recv_found sound.represents inbound
    (fun transport => absurd transport (icmp_no_transport isIcmp)) (find_first split live fits alone)
  refine ⟨d',_,ran,toInside_dest inbound,?_⟩
  rw [toInside_icmp isIcmp]
  exact ipNaptModifyAddr_iecho p.header ⟨by omega,by omega⟩

def twoEchoes : List (Nat × Event) :=
  [(0,.forward quiet [] lan wan (.echo icmpEcho 0x0204a8c0 0x08080808 7)),
   (10,.forward quiet [] lan wan (.echo icmpEcho 0x0304a8c0 0x08080808 7))]

theorem last_echo_returns : ∃ (s : System) (d' : NaptData) (p' : Packet),
    ipNaptRecv s.data 20 (Datagram.echo icmpEr 0x08080808 0x0200000a 7).packet = .ok (d',p') ∧
      iphDest p' = 0x0304a8c0 ∧ iechoId p' = 7 := by
  obtain ⟨s,deeds,path,_,asked⟩ := arrives_runs (fresh 3 2) twoEchoes
    (fun s _ => activeChain s.data == [1,0] && (s.data.table 1).toSession ==
      ⟨10,0x0304a8c0,0x08080808,7,7,7,ipProtoIcmp,false,false,false,false,false,false⟩) (by decide +kernel) (by decide)
  simp only [Bool.and_eq_true,beq_iff_eq] at asked
  obtain ⟨chain,entry⟩ := asked
  have returned := echo_replies_return (fresh_run (by decide) path) 1 (by rw [chain]; decide) 20 (by rw [entry])
    (by rw [entry]; decide) (by rw [chain]; intro j member; cases member)
    (.echo icmpEr 0x08080808 0x0200000a 7) (by decide) (by decide) (by rw [entry]; decide) (by rw [entry]; decide)
  rw [entry] at returned
  obtain ⟨d',p',arrived,dest,id⟩ := returned
  exact ⟨s,d',p',arrived,dest,id.trans (by decide)⟩

-- The session of the host that asked first is live, yet its reply goes to the other.
theorem first_echo_astray : ∃ (past : List Deed) (s : System) (i : Nat) (d' : NaptData) (p' : Packet),
    Run 3 2 past s ∧ i ∈ activeChain s.data ∧ (s.data.table i).proto = ipProtoIcmp ∧
    expired 20 (s.data.table i).toSession = false ∧ (s.data.table i).dest = 0x08080808 ∧ (s.data.table i).sport = 7 ∧
    ipNaptRecv s.data 20 (Datagram.echo icmpEr 0x08080808 0x0200000a 7).packet = .ok (d',p') ∧
    iphDest p' ≠ (s.data.table i).src := by
  obtain ⟨s,deeds,path,_,asked⟩ := arrives_runs (fresh 3 2) twoEchoes
    (fun s _ => activeChain s.data == [1,0] && (s.data.table 0).toSession ==
      ⟨0,0x0204a8c0,0x08080808,7,7,7,ipProtoIcmp,false,false,false,false,false,false⟩ &&
      match ipNaptRecv s.data 20 (Datagram.echo icmpEr 0x08080808 0x0200000a 7).packet with
      | .ok (_,p') => iphDest p' == 0x0304a8c0
      | .error _ => false) (by decide +kernel) (by decide)
  simp only [Bool.and_eq_true,beq_iff_eq] at asked
  obtain ⟨⟨chain,entry⟩,result⟩ := asked
  cases ran : ipNaptRecv s.data 20 (Datagram.echo icmpEr 0x08080808 0x0200000a 7).packet with
  | error fault => simp [ran] at result
  | ok r =>
    obtain ⟨d',p'⟩ := r
    have dest : iphDest p' = 0x0304a8c0 := by simpa [ran] using result
    refine ⟨deeds,s,0,d',p',fresh_run (by decide) path,by rw [chain]; decide,by rw [entry],by rw [entry]; decide,
      by rw [entry],by rw [entry],ran,?_⟩
    rw [dest,entry]
    decide

end NonosLinkLayer.Napt
