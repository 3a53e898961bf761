import NonosLinkLayer.Napt.Lifetime
import NonosLinkLayer.Base.PastTime

namespace NonosLinkLayer.Napt
open ExpiringScan PastTime Transitions

-- What an entry of TCP sees of its connection: a packet from outside or from inside that
-- is translated with it, a SYN from inside that is forwarded with it, or one from inside
-- to somewhere else, which is dropped.
inductive Mark where
  | inbound (flags : UInt8)
  | outbound (flags : UInt8)
  | opening (dest : UInt32) (dport : UInt16)
  | refused
  deriving DecidableEq

def marks (d : NaptData) (e : Session) : Event → Option Mark
  | .recv p =>
    let p := p.packet
    if iphProto p = ipProtoTcp ∧ ipPortmapFind d ipProtoTcp (portDest p) = none ∧
        iphSrc p = e.dest ∧ portSrc p = e.dport ∧ portDest p = e.mport then
      some (.inbound (tcphFlags p))
    else none
  | .forward _ _ inp _ p =>
    let p := p.packet
    if inp.napt = true ∧ iphProto p = ipProtoTcp ∧ ipPortmapFindDest d ipProtoTcp (portSrc p) (iphSrc p) = none ∧
        iphSrc p = e.src ∧ portSrc p = e.sport then
      if Opening p then some (.opening (iphDest p) (portDest p))
      else if e.dest = iphDest p ∧ e.dport = portDest p then some (.outbound (tcphFlags p))
      else some .refused
    else none
  | _ => none

def Mark.applied (now : UInt32) (e : Session) : Mark → Session
  | .inbound flags => recordInbound flags {e with last := now}
  | .outbound flags => recordOutbound flags {e with last := now}
  | .opening dest dport => {e with last := now,dest := dest,dport := dport}
  | .refused => {e with last := now}

-- A run in which an entry of TCP is opened on a slot and not given away since, with all
-- the marks left in it, oldest first, and the time of the last of them.
inductive Traced (natMax : UInt16) (portmapMax : UInt8) (i : Nat) : System → List Mark → Nat → Prop where
  | opened (run : Run natMax portmapMax past s) (step : Step s x next)
      (fresh : i ∈ activeChain s.data → expired (sysNow x.now) (s.data.table i).toSession = true)
      (listed : i ∈ activeChain next.data) (tcp : (next.data.table i).proto = ipProtoTcp)
      (new : (next.data.table i).last = sysNow x.now) : Traced natMax portmapMax i next [] x.now
  | marked (traced : Traced natMax portmapMax i s log t) (step : Step s x next)
      (live : expired (sysNow x.now) (s.data.table i).toSession = false)
      (mark : marks s.data (s.data.table i).toSession x.event = some m) : Traced natMax portmapMax i next (log ++ [m]) x.now
  | other (traced : Traced natMax portmapMax i s log t) (step : Step s x next)
      (live : expired (sysNow x.now) (s.data.table i).toSession = false)
      (mark : marks s.data (s.data.table i).toSession x.event = none) : Traced natMax portmapMax i next log t
  | lingers (traced : Traced natMax portmapMax i s log t) (step : Step s x next)
      (gone : expired (sysNow x.now) (s.data.table i).toSession = true) (listed : i ∈ activeChain next.data)
      (same : (next.data.table i).toSession = (s.data.table i).toSession) : Traced natMax portmapMax i next log t

def Mark.arrives (test : UInt8 → Prop) : Mark → Prop
  | .inbound flags => test flags
  | _ => False

def Mark.leaves (test : UInt8 → Prop) : Mark → Prop
  | .outbound flags => test flags
  | _ => False

def Mark.opens : Mark → Prop
  | .opening .. => True
  | _ => False

def HasFin (flags : UInt8) : Prop := flags &&& tcpFin ≠ 0
def HasAck (flags : UInt8) : Prop := flags &&& tcpAck ≠ 0
def HasRst (flags : UInt8) : Prop := flags &&& tcpRst ≠ 0
def HasSynAck (flags : UInt8) : Prop := flags &&& (tcpSyn ||| tcpAck) = tcpSyn ||| tcpAck

-- A RST was translated in either direction; FINs in both directions were each followed
-- by an ACK from the other side; the SYN was answered.
def Reset (log : List Mark) : Prop := Once (fun m => m.arrives HasRst ∨ m.leaves HasRst) log
def Closed (log : List Mark) : Prop :=
  Followed (Mark.arrives HasFin) (Mark.leaves HasAck) log ∧ Followed (Mark.leaves HasFin) (Mark.arrives HasAck) log
def Answered (log : List Mark) : Prop := Once (Mark.arrives HasSynAck) log

def Terminated : List Mark → Prop := Lately Mark.opens fun log => Reset log ∨ Closed log

def Scanned (d : NaptData) (now : UInt32) (wanted : Session → Bool) (i : Nat) : Prop :=
  ∃ before after, activeChain d = before ++ i :: after ∧
    ∀ j ∈ before, expired now (d.table j).toSession = false → wanted (d.table j).toSession = false

structure Told (e : Session) (log : List Mark) (t : Nat) : Prop where
  proto : e.proto = ipProtoTcp
  last : e.last = sysNow t
  fin1 : e.fin1 = true ↔ Once (Mark.arrives HasFin) log
  fin2 : e.fin2 = true ↔ Once (Mark.leaves HasFin) log
  finack1 : e.finack1 = true ↔ Followed (Mark.arrives HasFin) (Mark.leaves HasAck) log
  finack2 : e.finack2 = true ↔ Followed (Mark.leaves HasFin) (Mark.arrives HasAck) log
  synack : e.synack = true ↔ Answered log
  rst : e.rst = true ↔ Reset log

section Marks
variable {d : NaptData} {a : Sessions} {now : UInt32} {i : Nat} {e : Session}

theorem Told.applied (told : Told e log t) (m : Mark) (u : Nat) : Told (m.applied (sysNow u) e) (log ++ [m]) u := by
  obtain ⟨proto,_,fin1,fin2,finack1,finack2,synack,rst⟩ := told
  unfold Answered at synack
  unfold Reset at rst
  cases m with
  | inbound flags =>
    change Told (recordInbound flags {e with last := sysNow u}) _ u
    rw [recordInbound_eq]
    constructor <;> simp [once_snoc,followed_snoc,Answered,Reset,Mark.arrives,Mark.leaves,HasFin,HasAck,HasRst,HasSynAck, *]
  | outbound flags =>
    change Told (recordOutbound flags {e with last := sysNow u}) _ u
    rw [recordOutbound_eq]
    constructor <;> simp [once_snoc,followed_snoc,Answered,Reset,Mark.arrives,Mark.leaves,HasFin,HasAck,HasRst, *]
  | opening => constructor <;> simp [Mark.applied,once_snoc,followed_snoc,Answered,Reset,Mark.arrives,Mark.leaves, *]
  | refused => constructor <;> simp [Mark.applied,once_snoc,followed_snoc,Answered,Reset,Mark.arrives,Mark.leaves, *]

theorem told_new {src dest : UInt32} {sport dport mport : UInt16} (tcp : proto = ipProtoTcp) :
    Told ⟨sysNow t,src,dest,sport,dport,mport,proto,false,false,false,false,false,false⟩ [] t := by
  constructor <;> simp [tcp,once_nil,followed_nil,Answered,Reset]

theorem unwanted_stays {wanted : Session → Bool} (member : (i,e) ∈ a.active) (live : expired now e = false)
    (unwanted : wanted e = false) : (i,e) ∈ (a.find now wanted).1.active := by
  rcases find_stays wanted member live with stays | ⟨found,_⟩
  · exact stays
  · rw [(Sessions.find_some found).2.2.1] at unwanted
    cases unwanted

theorem Received.marked {p : Datagram} (sound : Sound natMax d a) (member : (i,e) ∈ a.active) (tcp : e.proto = ipProtoTcp)
    (live : expired now e = false) (received : Received d a now p.packet a' p') :
    (i,(marks d e (.recv p)).elim e (Mark.applied now e)) ∈ a'.active := by
  have distinct := sound.represents.slots_nodup
  unfold marks
  dsimp only
  split_ifs with own
  · obtain ⟨isTcp,unmapped,src,sport,mport⟩ := own
    have found := in_found sound member live (.inl isTcp) ⟨isTcp.trans tcp.symm,src,sport,mport⟩
    cases received with
    | ignored other => exact absurd (.inr (.inl isTcp)) other
    | mapped _ mapped => rw [isTcp,unmapped] at mapped; cases mapped
    | unknown _ _ missing => rw [found] at missing; cases missing
    | session _ _ found' =>
      rw [found] at found'
      cases found'
      have noted := put_here (found_here found) (noteInbound p.packet (toInside p.packet e.sport e.src))
      rw [noteInbound_tcp isTcp,toInside_flags isTcp p.header] at noted ⊢
      exact noted
  · obtain ⟨e',stays,touch⟩ := received.entry distinct member live
    cases touch with
    | untouched => exact stays
    | answered _ fits unmapped =>
      obtain ⟨proto,src,sport,mport⟩ := lookedUp_outside fits
      have isTcp : iphProto p.packet = ipProtoTcp := proto.symm.trans tcp
      rw [sender_transport (.inl isTcp)] at sport
      rw [receiver_transport (.inl isTcp)] at mport
      have free := unmapped (.inl isTcp)
      rw [isTcp] at free
      exact absurd ⟨isTcp,free,src.symm,sport.symm,mport.symm⟩ own

section Forward
variable {pcbs : LocalPcbs} {draws : List Draw} {inp outp : Netif} {p : Datagram}

theorem outKey_own (tcp : e.proto = ipProtoTcp) : outKey p.packet e = true ↔
    iphProto p.packet = ipProtoTcp ∧ iphSrc p.packet = e.src ∧ portSrc p.packet = e.sport := by
  constructor
  · intro fits
    obtain ⟨proto,src,sport⟩ := lookedUp_inside fits
    have isTcp : iphProto p.packet = ipProtoTcp := proto.symm.trans tcp
    rw [sender_transport (.inl isTcp)] at sport
    exact ⟨isTcp,src.symm,sport.symm⟩
  · rintro ⟨isTcp,src,sport⟩
    unfold outKey
    rw [sender_transport (.inl isTcp),isTcp,src,sport,←tcp]
    exact lookedUp_inside_hit e

theorem marks_foreign (tcp : e.proto = ipProtoTcp) (foreign : outKey p.packet e = false) :
    marks d e (.forward pcbs draws inp outp p) = none := by
  refine if_neg fun own => ?_
  rw [(outKey_own tcp).mpr ⟨own.2.1,own.2.2.2⟩] at foreign
  cases foreign

theorem marks_own (tcp : e.proto = ipProtoTcp) (own : outKey p.packet e = true) (on : inp.napt = true)
    (unmapped : ipPortmapFindDest d (iphProto p.packet) (portSrc p.packet) (iphSrc p.packet) = none) :
    marks d e (.forward pcbs draws inp outp p) = some
      (if Opening p.packet then .opening (iphDest p.packet) (portDest p.packet)
      else if e.dest = iphDest p.packet ∧ e.dport = portDest p.packet then .outbound (tcphFlags p.packet)
      else .refused) := by
  obtain ⟨isTcp,src,sport⟩ := (outKey_own tcp).mp own
  rw [isTcp] at unmapped
  unfold marks
  dsimp only
  rw [if_pos ⟨on,isTcp,unmapped,src,sport⟩]
  split_ifs <;> rfl

theorem ForwardedAs.marked (sound : Sound natMax d a) (member : (i,e) ∈ a.active) (tcp : e.proto = ipProtoTcp)
    (live : expired now e = false) (forwarded : ForwardedAs d a now inp outp p.packet a' p' err) :
    (i,(marks d e (.forward pcbs draws inp outp p)).elim e (Mark.applied now e)) ∈ a'.active := by
  have distinct := sound.represents.slots_nodup
  have found (own : outKey p.packet e = true) : (a.find now (outKey p.packet)).2 = some (i,e) := by
    obtain ⟨isTcp,src,sport⟩ := (outKey_own tcp).mp own
    exact out_found sound member live (.inl isTcp) ⟨isTcp.trans tcp.symm,src,sport⟩
  have transport (own : outKey p.packet e = true) : Transport p.packet := .inl ((outKey_own tcp).mp own).1
  cases own : outKey p.packet e with
  | false =>
    rw [marks_foreign tcp own]
    cases forwarded with
    | off => exact member
    | ignored => exact member
    | mapped => exact member
    | registered _ _ _ added =>
      rcases added.stays distinct member live with stays | ⟨fits,_⟩
      · exact stays
      · cases own.symm.trans fits
    | continued _ _ _ _ other =>
      rcases find_put distinct member live other (noteOutbound p.packet) with ⟨_,stays⟩ | ⟨_,same,_⟩
      · exact stays
      · rw [←same,(Sessions.find_some other).2.2.1] at own
        cases own
    | refused => exact unwanted_stays member live own
  | true =>
    cases forwarded with
    | off off => simpa [marks,off] using member
    | ignored _ other => exact absurd (.inr (transport own)) other
    | mapped _ _ mapped =>
      obtain ⟨isTcp,_⟩ := (outKey_own tcp).mp own
      rw [isTcp] at mapped
      simpa [marks,mapped] using member
    | registered on opening unmapped added =>
      rw [marks_own tcp own on (unmapped (transport own)),if_pos opening]
      cases added with
      | reused found' =>
        cases (found own).symm.trans found'
        simp [Sessions.front,Mark.applied,receiver_transport (transport own)]
      | opened missing => cases (found own).symm.trans missing
      | full missing => cases (found own).symm.trans missing
    | continued on _ midway unmapped found' same =>
      cases (found own).symm.trans found'
      rw [marks_own tcp own on unmapped,if_neg midway,if_pos same]
      have noted := put_here (found_here (found own)) (noteOutbound p.packet)
      rw [noteOutbound_tcp ((outKey_own tcp).mp own).1] at noted ⊢
      exact noted
    | refused on _ midway unmapped foreign =>
      rw [marks_own tcp own on unmapped,if_neg midway,if_neg (foreign i e (found own))]
      exact found_here (found own)

end Forward

theorem Changes.marked (sound : Sound natMax d a) (member : (i,e) ∈ a.active) (tcp : e.proto = ipProtoTcp)
    (live : expired now e = false) (changes : Changes d a now event reply d' a') :
    (i,(marks d e event).elim e (Mark.applied now e)) ∈ a'.active := by
  cases changes with
  | received outcome => exact outcome.marked sound member tcp live
  | forwarded outcome => exact outcome.marked sound member tcp live
  | mapped => exact member
  | unmapped => exact member

end Marks

theorem Traced.told (traced : Traced natMax portmapMax i s log t) :
    t ≤ s.clock ∧ ∃ a e, Sound natMax s.data a ∧ (i,e) ∈ a.active ∧ Told e log t := by
  induction traced with
  | @opened past s x next run step fresh listed tcp new =>
    obtain ⟨a,sound⟩ := run_sound run
    obtain ⟨a',changes,sound'⟩ := sound.step step
    refine ⟨Nat.le_of_eq step.2.1.symm,a',_,sound',sound'.entry listed,?_⟩
    -- An entry the slot held before is not the one it holds now.
    have gone (e : Session) (member : (i,e) ∈ a.active) : expired (sysNow x.now) e = true := by
      obtain ⟨listed,stored⟩ := sound.listed member
      exact stored ▸ fresh listed
    have origin := changes.provenance sound.represents.slots_nodup (sound'.entry listed)
    generalize same : (next.data.table i).toSession = e at origin
    cases origin with
    | kept member =>
      have live := recent_live (same ▸ new) (Nat.le_refl x.now) (by omega)
      rw [gone e member] at live
      cases live
    | touched member live =>
      rw [gone _ member] at live
      cases live
    | opened => exact told_new ((congrArg Session.proto same).symm.trans tcp)
  | marked traced step live mark ih =>
    obtain ⟨_,a,e,sound,member,told⟩ := ih
    obtain ⟨a',changes,sound'⟩ := sound.step step
    obtain ⟨_,stored⟩ := sound.listed member
    rw [stored] at live mark
    have after := changes.marked sound member told.proto live
    rw [mark] at after
    exact ⟨Nat.le_of_eq step.2.1.symm,a',_,sound',after,told.applied _ _⟩
  | other traced step live mark ih =>
    obtain ⟨past,a,e,sound,member,told⟩ := ih
    obtain ⟨a',changes,sound'⟩ := sound.step step
    obtain ⟨_,stored⟩ := sound.listed member
    rw [stored] at live mark
    have after := changes.marked sound member told.proto live
    rw [mark] at after
    exact ⟨Nat.le_trans past (Nat.le_trans step.1 (Nat.le_of_eq step.2.1.symm)),a',e,sound',after,told⟩
  | lingers traced step gone listed same ih =>
    obtain ⟨past,a,e,sound,member,told⟩ := ih
    obtain ⟨a',changes,sound'⟩ := sound.step step
    obtain ⟨_,stored⟩ := sound.listed member
    have after := sound'.entry listed
    rw [same,stored] at after
    exact ⟨Nat.le_trans past (Nat.le_trans step.1 (Nat.le_of_eq step.2.1.symm)),a',e,sound',after,told⟩

theorem Touch.proto (touch : Touch d now e event reply e') : e'.proto = e.proto := by
  cases touch with
  | untouched => rfl
  | answered => exact noteInbound_proto _ _ _
  | continued => exact noteOutbound_proto _ _
  | refused => rfl
  | taken => rfl

theorem run_traced (run : Run natMax portmapMax past s) (listed : i ∈ activeChain s.data)
    (tcp : (s.data.table i).proto = ipProtoTcp) : ∃ log t, Traced natMax portmapMax i s log t := by
  obtain ⟨calloc,start,ran,path⟩ := run
  induction path with
  | nil =>
    obtain ⟨some,same⟩ := init_tables ran
    have sound : Sound natMax start.data ⟨[],List.range natMax.toNat⟩ := same ▸ empty_sound portmapMax some
    rw [sound.chain] at listed
    cases listed
  | @step past s x next path step ih =>
    have run : Run natMax portmapMax past s := ⟨calloc,start,ran,path⟩
    obtain ⟨a,sound⟩ := run_sound run
    obtain ⟨a',changes,sound'⟩ := sound.step step
    have distinct := sound.represents.slots_nodup
    by_cases old : i ∈ activeChain s.data ∧ expired (sysNow x.now) (s.data.table i).toSession = false
    · obtain ⟨before,live⟩ := old
      obtain ⟨e',member,touch⟩ := changes.entry distinct (sound.entry before) live
      obtain ⟨_,stored⟩ := sound'.listed member
      obtain ⟨log,t,traced⟩ := ih before (touch.proto.symm.trans ((congrArg Session.proto stored).symm.trans tcp))
      cases mark : marks s.data (s.data.table i).toSession x.event with
      | none => exact ⟨_,_,traced.other step live mark⟩
      | some m => exact ⟨_,_,traced.marked step live mark⟩
    · have gone (before : i ∈ activeChain s.data) : expired (sysNow x.now) (s.data.table i).toSession = true := by
        simpa [before] using old
      have origin := changes.provenance distinct (sound'.entry listed)
      generalize same : (next.data.table i).toSession = e at origin
      cases origin with
      | kept member =>
        obtain ⟨before,stored⟩ := sound.listed member
        have unchanged := same.trans stored.symm
        obtain ⟨log,t,traced⟩ := ih before ((congrArg Session.proto unchanged).symm.trans tcp)
        exact ⟨_,_,traced.lingers step (gone before) listed unchanged⟩
      | touched member live =>
        obtain ⟨before,stored⟩ := sound.listed member
        rw [←stored,gone before] at live
        cases live
      | opened => exact ⟨_,_,.opened run step gone listed tcp (congrArg Session.last same)⟩

theorem find_drops {a : Sessions} {now : UInt32} {wanted : Session → Bool} (distinct : a.slots.Nodup)
    (split : a.active = before ++ (i,e) :: after) (gone : expired now e = true)
    (unwanted : ∀ x ∈ before, expired now x.2 = false → wanted x.2 = false) : i ∉ (a.find now wanted).1.slots := by
  unfold Sessions.slots at distinct ⊢
  rw [split,List.map_append,List.map_cons] at distinct
  obtain ⟨_,later,apart⟩ := List.nodup_append.mp distinct
  unfold Sessions.find
  dsimp only
  rw [split,scan_drops,List.map_append]
  · intro member
    rcases List.mem_append.mp member with early | late
    · obtain ⟨x,inside,same⟩ := List.mem_map.mp early
      exact apart i (List.mem_map.mpr ⟨x,(List.mem_filter.mp inside).1,same⟩) i (List.mem_cons_self ..) rfl
    · have kept : i ∈ after.map Prod.fst := (find_slots (a:=⟨after,a.free⟩) now wanted).subset late
      exact (List.nodup_cons.mp later).1 kept
  · exact gone
  · exact unwanted

theorem scanned_iff (sound : Sound natMax d a) (member : (i,e) ∈ a.active) (scanned : Scanned d now wanted i) :
    i ∉ (a.find now wanted).1.slots ↔ expired now e = true := by
  constructor
  · intro gone
    refine Classical.byContradiction fun live => gone ?_
    rcases find_stays wanted member (by simpa using live) with stays | ⟨_,marked⟩
    · exact List.mem_map_of_mem stays
    · exact List.mem_map_of_mem marked
  · intro gone
    obtain ⟨before,after,split,unwanted⟩ := scanned
    rw [sound.chain] at split
    obtain ⟨early,late,same,rfl,rest⟩ := List.map_eq_append_iff.mp split
    obtain ⟨x,later,rfl,rfl,_⟩ := List.map_eq_cons_iff.mp rest
    have here : x.2 = e := slot_unique sound.represents.slots_nodup (by rw [same]; simp) member
    refine find_drops sound.represents.slots_nodup same (here ▸ gone) ?_
    intro y inside
    rw [←sound.represents.stored y (by rw [same]; simp [inside])]
    exact unwanted y.1 (List.mem_map_of_mem inside)

-- Once IP_NAPT_TIMEOUT_MS_TCP_DISCON has passed since its last mark, an entry has
-- expired if both FINs were acknowledged, if its SYN was never answered, or if
-- IP_NAPT_TIMEOUT_MS_TCP has passed as well.
theorem Told.expired_iff (told : Told e log t) (late : t + 20000 < now) (near : now < t + 4294967296) :
    expired (sysNow now) e = true ↔ Closed log ∨ ¬ Answered log ∨ t + 1800000 < now := by
  have elapsed := age (show t ≤ now by omega) (by omega)
  rw [←told.last] at elapsed
  have waited : sysNow now - e.last > ipNaptTimeoutMsTcpDiscon := by
    refine UInt32.lt_iff_toNat_lt.mpr ?_
    rw [elapsed,show ipNaptTimeoutMsTcpDiscon.toNat = 20000 from rfl]
    omega
  have old : sysNow now - e.last > ipNaptTimeoutMsTcp ↔ t + 1800000 < now := by
    refine UInt32.lt_iff_toNat_lt.trans ?_
    rw [elapsed,show ipNaptTimeoutMsTcp.toNat = 1800000 from rfl]
    omega
  have closed : e.finack1 = true ∧ e.finack2 = true ↔ Closed log := and_congr told.finack1 told.finack2
  have unanswered : e.synack = false ↔ ¬ Answered log := by rw [←told.synack]; simp
  have notUdp : (e.proto == ipProtoUdp) = false := by rw [told.proto]; decide
  have notIcmp : (e.proto == ipProtoIcmp) = false := by rw [told.proto]; decide
  unfold expired
  rw [notUdp,notIcmp,←closed,←unanswered,←old]
  simp [told.proto,waited,or_assoc]

-- A lookup that comes to a terminated entry later than that frees it, unless all that
-- terminated it was a RST.
theorem terminated_freed (traced : Traced natMax portmapMax i s log t) (late : t + 20000 < now) (near : now < t + 4294967296)
    (proto : UInt8) (addr : UInt32) (port mport : UInt16) (dest : Bool)
    (scanned : Scanned s.data (sysNow now) (lookedUp proto addr port mport dest) i) :
    ∃ d' found, ipNaptFind s.data (sysNow now) proto addr port mport dest = .ok (d',found) ∧
      ((Terminated log → i ∉ activeChain d') ↔
        (Lately Mark.opens Reset log → Closed log ∨ ¬ Answered log ∨ t + 1800000 < now)) := by
  obtain ⟨_,a,e,sound,member,told⟩ := traced.told
  obtain ⟨d',ran,rep,fixed⟩ := find_refines sound.represents (sysNow now) proto addr port mport dest
  have sound' : Sound natMax d' (a.find (sysNow now) (lookedUp proto addr port mport dest)).1 :=
    ⟨rep,sound.coherent.sublist (find_flows ..),fixed.2.trans sound.size⟩
  refine ⟨d',_,ran,?_⟩
  rw [sound'.chain,scanned_iff sound member scanned,told.expired_iff late near]
  constructor
  · intro frees reset
    exact frees (reset.weaken fun _ => .inl)
  · rintro frees ⟨before,after,rfl,old,reset | closed⟩
    · exact frees ⟨before,after,rfl,old,reset⟩
    · exact .inl ⟨closed.1.append before,closed.2.append before⟩

def follows (i : Nat) (asked : System → Bool) : System → List (Nat × Event × Mark) → Bool
  | s,[] => asked s
  | s,(now,event,m) :: rest =>
    decide (s.clock ≤ now) && !expired (sysNow now) (s.data.table i).toSession &&
      marks s.data (s.data.table i).toSession event == some m && tries s now event fun next _ => follows i asked next rest

theorem follows_traced {asked : System → Bool} {events : List (Nat × Event × Mark)} (traced : Traced natMax portmapMax i s log t)
    (computed : follows i asked s events = true) :
    ∃ s', Traced natMax portmapMax i s' (log ++ events.map fun x => x.2.2) ((events.map Prod.fst).getLastD t) ∧
      asked s' = true := by
  induction events generalizing s log t with
  | nil => exact ⟨s,by simpa using traced,computed⟩
  | cons head rest ih =>
    obtain ⟨now,event,m⟩ := head
    unfold follows at computed
    simp only [Bool.and_eq_true,decide_eq_true_eq,Bool.not_eq_true',beq_iff_eq] at computed
    obtain ⟨⟨⟨ahead,live⟩,mark⟩,onward⟩ := computed
    obtain ⟨next,reply,step,_,asked'⟩ := tries_step s now event _ onward ahead
    obtain ⟨s',traced',holds⟩ := ih (traced.marked step live mark) asked'
    refine ⟨s',?_,holds⟩
    simpa only [List.map_cons,List.getLastD_cons,List.append_assoc,List.singleton_append] using traced'

def bare (s : System) : Bool := activeChain s.data == [0]

theorem bare_scanned (holds : bare s = true) (now : UInt32) (wanted : Session → Bool) : Scanned s.data now wanted 0 :=
  ⟨[],[],beq_iff_eq.mp holds,fun _ none => nomatch none⟩

def closing : List (Nat × Event × Mark) :=
  [(10,served (tcpSyn ||| tcpAck),.inbound (tcpSyn ||| tcpAck)),(20,browsed (tcpFin ||| tcpAck),.outbound (tcpFin ||| tcpAck)),
   (30,served (tcpFin ||| tcpAck),.inbound (tcpFin ||| tcpAck)),(40,browsed tcpAck,.outbound tcpAck)]
def resetting : List (Nat × Event × Mark) :=
  [(10,served (tcpSyn ||| tcpAck),.inbound (tcpSyn ||| tcpAck)),(20,served tcpRst,.inbound tcpRst)]

def browses (events : List (Nat × Event × Mark)) (asked : System → Bool) : Bool :=
  tries (fresh 3 0) 0 (browsed tcpSyn) fun s _ =>
    bare s && (s.data.table 0).proto == ipProtoTcp && (s.data.table 0).last == 0 && follows 0 asked s events

theorem browses_traced (events : List (Nat × Event × Mark)) (asked : System → Bool) (computed : browses events asked = true) :
    ∃ s, Traced 3 0 0 s (events.map fun x => x.2.2) ((events.map Prod.fst).getLastD 0) ∧ asked s = true := by
  obtain ⟨s,reply,step,_,asked'⟩ := tries_step _ _ _ _ computed (Nat.le_refl 0)
  simp only [Bool.and_eq_true,beq_iff_eq] at asked'
  obtain ⟨⟨⟨alone,tcp⟩,last⟩,onward⟩ := asked'
  have listed : 0 ∈ activeChain s.data := by rw [beq_iff_eq.mp alone]; simp
  have unused : 0 ∈ activeChain (fresh 3 0).data → expired (sysNow 0) ((fresh 3 0).data.table 0).toSession = true := by
    rw [show activeChain (fresh 3 0).data = [] by decide]
    intro member
    cases member
  exact follows_traced (.opened (fresh_run (by decide) .nil) step unused listed tcp last) onward

-- Both sides close it, and twenty seconds later its entry is freed.
theorem closing_freed : ∃ (s : System) (log : List Mark), Traced 3 0 0 s log 40 ∧ Terminated log ∧
    ∃ d' found, ipNaptFind s.data (sysNow 20041) ipProtoUdp 0 0 0 false = .ok (d',found) ∧ 0 ∉ activeChain d' := by
  obtain ⟨s,traced,alone⟩ := browses_traced closing bare (by decide +kernel)
  have closed : Closed (closing.map fun x => x.2.2) := by
    constructor
    · refine ⟨[_,_,_],[_],rfl,⟨.inbound (tcpFin ||| tcpAck),by simp,?_⟩,.outbound tcpAck,by simp,?_⟩
      · exact show (tcpFin ||| tcpAck) &&& tcpFin ≠ 0 by decide
      · exact show tcpAck &&& tcpAck ≠ 0 by decide
    · refine ⟨[_,_],[_,_],rfl,⟨.outbound (tcpFin ||| tcpAck),by simp,?_⟩,.inbound (tcpFin ||| tcpAck),by simp,?_⟩
      · exact show (tcpFin ||| tcpAck) &&& tcpFin ≠ 0 by decide
      · exact show (tcpFin ||| tcpAck) &&& tcpAck ≠ 0 by decide
  have terminated : Terminated (closing.map fun x => x.2.2) := ⟨[],_,rfl,by simp [Mark.opens],.inr closed⟩
  obtain ⟨d',found,ran,frees⟩ :=
    terminated_freed traced (show 40 + 20000 < 20041 by decide) (by decide) ipProtoUdp 0 0 0 false (bare_scanned alone _ _)
  exact ⟨s,_,traced,terminated,d',found,ran,frees.mpr (fun _ => .inl closed) terminated⟩

-- The server resets it, and its entry outlives that by more than twenty seconds.
theorem reset_lingers : ∃ (s : System) (log : List Mark), Traced 3 0 0 s log 20 ∧ Terminated log ∧
    Scanned s.data (sysNow 20021) (lookedUp ipProtoUdp 0 0 0 false) 0 ∧
    ∃ d' found, ipNaptFind s.data (sysNow 20021) ipProtoUdp 0 0 0 false = .ok (d',found) ∧ 0 ∈ activeChain d' := by
  obtain ⟨s,traced,asked⟩ := browses_traced resetting
    (fun s => bare s && (ipNaptFind s.data (sysNow 20021) ipProtoUdp 0 0 0 false).toOption.any fun r => activeChain r.1 == [0])
    (by decide +kernel)
  obtain ⟨alone,computed⟩ := Bool.and_eq_true_iff.mp asked
  have reset : Reset (resetting.map fun x => x.2.2) := by
    refine ⟨.inbound tcpRst,by simp [resetting],.inl ?_⟩
    exact show tcpRst &&& tcpRst ≠ 0 by decide
  refine ⟨s,_,traced,⟨[],_,rfl,by simp [Mark.opens],.inl reset⟩,bare_scanned alone _ _,?_⟩
  cases ran : ipNaptFind s.data (sysNow 20021) ipProtoUdp 0 0 0 false with
  | error fault => simp [ran,Except.toOption] at computed
  | ok r =>
    have stays : activeChain r.1 = [0] := by simpa [ran,Except.toOption] using computed
    exact ⟨r.1,r.2,rfl,by rw [stays]; simp⟩

end NonosLinkLayer.Napt
