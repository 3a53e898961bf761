import NonosLinkLayer.Napt.Rules

namespace NonosLinkLayer.Napt
open ExpiringScan

structure Flow where
  proto : UInt8
  src : UInt32
  sport : UInt16
  dest : UInt32
  dport : UInt16
  mport : UInt16
  deriving DecidableEq, Repr

def Session.flow (t : Session) : Flow := ⟨t.proto,t.src,t.sport,t.dest,t.dport,t.mport⟩

def Sessions.flows (a : Sessions) : List Flow := a.active.map fun e => e.2.flow

def SharesEnd (e f : Flow) : Prop := e.proto = f.proto ∧ e.src = f.src ∧ e.sport = f.sport
def SharesPort (e f : Flow) : Prop :=
  (e.proto = ipProtoTcp ∨ e.proto = ipProtoUdp) ∧ e.proto = f.proto ∧ e.mport = f.mport

theorem SharesEnd.symm (shared : SharesEnd e f) : SharesEnd f e :=
  ⟨shared.1.symm,shared.2.1.symm,shared.2.2.symm⟩

theorem SharesPort.symm (shared : SharesPort e f) : SharesPort f e :=
  ⟨shared.2.1 ▸ shared.1,shared.2.1.symm,shared.2.2.symm⟩

-- Two sessions never share an inside end, nor a mapped port of TCP or UDP; an
-- echo session has its identifier in all three places.
structure Coherent (flows : List Flow) : Prop where
  ends : flows.Pairwise fun e f => ¬ SharesEnd e f
  ports : flows.Pairwise fun e f => ¬ SharesPort e f
  echoes : ∀ f ∈ flows, f.proto = ipProtoIcmp → f.dport = f.sport ∧ f.mport = f.sport

theorem Coherent.sublist (coherent : Coherent flows) (part : List.Sublist fewer flows) : Coherent fewer :=
  ⟨coherent.ends.sublist part,coherent.ports.sublist part,fun f member => coherent.echoes f (part.subset member)⟩

section Sublists
variable (a : Sessions) (now : UInt32) (wanted : Session → Bool)

theorem find_flows : (a.find now wanted).1.flows.Sublist a.flows := by
  unfold Sessions.find Sessions.flows
  refine scan_sublist (fun e => e.2.flow) ?_ a.active
  intro x
  rfl

theorem find_slots : (a.find now wanted).1.slots.Sublist a.slots := by
  unfold Sessions.find Sessions.slots
  refine scan_sublist Prod.fst ?_ a.active
  intro x
  rfl

theorem put_flows {f : Session → Session} (same : ∀ t, (f t).flow = t.flow) (i : Nat) :
    (a.put i f).flows = a.flows := by
  unfold Sessions.put Sessions.flows
  rw [List.map_map]
  apply List.map_congr_left
  intro x _
  simp only [Function.comp]
  split_ifs
  · exact same x.2
  · rfl

end Sublists

theorem noteInbound_flow (p p' : Packet) (t : Session) : (noteInbound p p' t).flow = t.flow := by
  unfold noteInbound
  split_ifs
  · rw [recordInbound_eq]; rfl
  · rfl

theorem noteOutbound_flow (p : Packet) (t : Session) : (noteOutbound p t).flow = t.flow := by
  unfold noteOutbound
  split_ifs
  · rw [recordOutbound_eq]; rfl
  · rfl

theorem noteInbound_last (p p' : Packet) (t : Session) : (noteInbound p p' t).last = t.last := by
  unfold noteInbound
  split_ifs
  · rw [recordInbound_eq]
  · rfl

theorem noteOutbound_last (p : Packet) (t : Session) : (noteOutbound p t).last = t.last := by
  unfold noteOutbound
  split_ifs
  · rw [recordOutbound_eq]
  · rfl

theorem front_flows {a : Sessions} (distinct : a.slots.Nodup) (split : a.active = before ++ (i,e) :: after)
    (e' : Session) : (a.front i e').flows = e'.flow :: (before ++ after).map fun x => x.2.flow := by
  unfold Sessions.front Sessions.flows
  unfold Sessions.slots at distinct
  rw [split] at distinct ⊢
  rw [List.map_cons,filter_slot distinct]

theorem Coherent.front (coherent : Coherent (before ++ e :: after)) (proto : e'.proto = e.proto) (src : e'.src = e.src)
    (sport : e'.sport = e.sport) (mport : e'.mport = e.mport)
    (echo : e'.proto = ipProtoIcmp → e'.dport = e'.sport) : Coherent (e' :: (before ++ after)) := by
  obtain ⟨ends,restEnds⟩ := List.pairwise_cons.mp
    ((List.pairwise_middle fun apart shared => apart shared.symm).mp coherent.ends)
  obtain ⟨ports,restPorts⟩ := List.pairwise_cons.mp
    ((List.pairwise_middle fun apart shared => apart shared.symm).mp coherent.ports)
  refine ⟨List.pairwise_cons.mpr ⟨?_,restEnds⟩,List.pairwise_cons.mpr ⟨?_,restPorts⟩,?_⟩
  · intro f member
    unfold SharesEnd
    rw [proto,src,sport]
    exact ends f member
  · intro f member
    unfold SharesPort
    rw [proto,mport]
    exact ports f member
  · intro f member icmp
    cases member with
    | head =>
      have old := coherent.echoes e (by simp) (proto ▸ icmp)
      exact ⟨echo icmp,by rw [mport,sport]; exact old.2⟩
    | tail _ old =>
      refine coherent.echoes f ?_ icmp
      exact ((List.sublist_cons_self ..).append_left _).subset old

theorem lookedUp_inside {e : Session} (hit : lookedUp proto src sport mport false e = true) :
    e.proto = proto ∧ e.src = src ∧ e.sport = sport := by
  unfold lookedUp at hit
  simpa [and_assoc] using hit

theorem lookedUp_outside {e : Session} (hit : lookedUp proto dest dport mport true e = true) :
    e.proto = proto ∧ e.dest = dest ∧ e.dport = dport ∧ e.mport = mport := by
  unfold lookedUp at hit
  simpa [and_assoc] using hit

theorem lookedUp_inside_hit (e : Session) : lookedUp e.proto e.src e.sport mport false e = true := by
  simp [lookedUp]

theorem lookedUp_outside_hit (e : Session) : lookedUp e.proto e.dest e.dport e.mport true e = true := by
  simp [lookedUp]

section Added
variable {a : Sessions} {now : UInt32} {proto : UInt8} {src : UInt32} {sport : UInt16} {dest : UInt32} {dport : UInt16}

theorem Added.origin (distinct : a.slots.Nodup) (added : Added a now proto src sport dest dport a' mport) :
    ∀ f ∈ a'.flows, f ∈ a.flows ∨ f = ⟨proto,src,sport,dest,dport,mport⟩ := by
  have fewer := find_flows a now (lookedUp proto src sport 0 false)
  intro f member
  cases added with
  | @reused i e found =>
    obtain ⟨_,_,hit,before,after,split⟩ := Sessions.find_some found
    obtain ⟨isProto,isSrc,isSport⟩ := lookedUp_inside hit
    rw [front_flows (distinct.sublist (find_slots ..)) split] at member
    cases member with
    | head => right; simp [Session.flow,isProto,isSrc,isSport]
    | tail _ old =>
      left
      apply fewer.subset
      unfold Sessions.flows
      rw [split]
      obtain ⟨x,inside,same⟩ := List.mem_map.mp old
      exact List.mem_map.mpr ⟨x,((List.sublist_cons_self ..).append_left _).subset inside,same⟩
  | opened missing room unused kept =>
    cases member with
    | head => exact .inr rfl
    | tail _ old => exact .inl (fewer.subset old)
  | full missing room => exact .inl (fewer.subset member)

theorem Added.coherent (distinct : a.slots.Nodup) (coherent : Coherent a.flows)
    (added : Added a now proto src sport dest dport a' mport) (echo : proto = ipProtoIcmp → dport = sport) :
    Coherent a'.flows := by
  have kept := coherent.sublist (find_flows a now (lookedUp proto src sport 0 false))
  cases added with
  | @reused i e found =>
    obtain ⟨_,_,hit,before,after,split⟩ := Sessions.find_some found
    obtain ⟨isProto,_,isSport⟩ := lookedUp_inside hit
    have listed : Sessions.flows (a.find now (lookedUp proto src sport 0 false)).1 =
        before.map (fun x => x.2.flow) ++ e.flow :: after.map (fun x => x.2.flow) := by
      unfold Sessions.flows
      rw [split,List.map_append,List.map_cons]
      rfl
    rw [front_flows (distinct.sublist (find_slots ..)) split,List.map_append]
    rw [listed] at kept
    refine kept.front rfl rfl rfl rfl ?_
    intro icmp
    calc dport
      _ = sport := echo (isProto.symm.trans icmp)
      _ = e.sport := isSport.symm
  | @opened i free mport missing room unused fixed =>
    obtain ⟨foreign,listed⟩ := Sessions.find_none missing
    refine ⟨List.pairwise_cons.mpr ⟨?_,kept.ends⟩,List.pairwise_cons.mpr ⟨?_,kept.ports⟩,?_⟩
    · intro f member shared
      obtain ⟨x,inside,same⟩ := List.mem_map.mp member
      rw [listed] at inside
      obtain ⟨old,live⟩ := List.mem_filter.mp inside
      have missed := foreign x old (by simpa using live)
      rw [←same] at shared
      obtain ⟨sameProto,sameSrc,sameSport⟩ := shared
      simp only [Session.flow] at sameProto sameSrc sameSport
      rw [sameProto,sameSrc,sameSport,lookedUp_inside_hit] at missed
      cases missed
    · intro f member shared
      obtain ⟨x,inside,same⟩ := List.mem_map.mp member
      rw [←same] at shared
      exact unused shared.1 x inside shared.2.1.symm shared.2.2.symm
    · intro f member icmp
      cases member with
      | head =>
        have isIcmp : proto = ipProtoIcmp := icmp
        exact ⟨echo isIcmp,fixed (by rw [isIcmp]; decide) (by rw [isIcmp]; decide)⟩
      | tail _ old => exact kept.echoes f old icmp
  | full missing room => exact kept

end Added

section Steps
variable {d : NaptData} {a : Sessions} {now : UInt32} {p : Packet}

theorem Received.origin (received : Received d a now p a' p') : a'.flows.Sublist a.flows := by
  cases received with
  | ignored => exact List.Sublist.refl _
  | mapped => exact List.Sublist.refl _
  | unknown => exact find_flows ..
  | session =>
    rw [put_flows _ (noteInbound_flow _ _)]
    exact find_flows ..

theorem ForwardedAs.origin (distinct : a.slots.Nodup) (forwarded : ForwardedAs d a now inp outp p a' p' err) :
    ∀ f ∈ a'.flows, f ∈ a.flows ∨ f.proto = iphProto p ∧ f.src = iphSrc p ∧ f.sport = sender p ∧
      f.dest = iphDest p ∧ f.dport = receiver p ∧ Opening p ∧ inp.napt = true ∧ err = .ok ∧
      p' = toOutside p f.mport outp.ipAddr := by
  intro f member
  cases forwarded with
  | off => exact .inl member
  | ignored => exact .inl member
  | mapped => exact .inl member
  | registered on opening unmapped added =>
    cases added.origin distinct f member with
    | inl old => exact .inl old
    | inr new => exact .inr (by rw [new]; exact ⟨rfl,rfl,rfl,rfl,rfl,opening,on,rfl,rfl⟩)
  | continued =>
    rw [put_flows _ (noteOutbound_flow _)] at member
    exact .inl ((find_flows ..).subset member)
  | refused => exact .inl ((find_flows ..).subset member)

theorem Received.coherent (coherent : Coherent a.flows) (received : Received d a now p a' p') : Coherent a'.flows :=
  coherent.sublist received.origin

theorem ForwardedAs.coherent (distinct : a.slots.Nodup) (coherent : Coherent a.flows)
    (forwarded : ForwardedAs d a now inp outp p a' p' err) : Coherent a'.flows := by
  cases forwarded with
  | off => exact coherent
  | ignored => exact coherent
  | mapped => exact coherent
  | registered _ _ _ added =>
    refine added.coherent distinct coherent ?_
    intro icmp
    simp [sender,receiver,icmp]
  | continued =>
    rw [put_flows _ (noteOutbound_flow _)]
    exact coherent.sublist (find_flows ..)
  | refused => exact coherent.sublist (find_flows ..)

end Steps
end NonosLinkLayer.Napt
