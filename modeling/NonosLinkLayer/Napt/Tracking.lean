import NonosLinkLayer.Napt.History

namespace NonosLinkLayer.Napt
open ExpiringScan Transitions

inductive Touch (d : NaptData) (now : UInt32) (e : Session) : Event → Reply → Session → Prop where
  | untouched : Touch d now e event reply e
  | answered (inbound : Inbound p.packet) (fits : inKey p.packet e = true)
      (unmapped : Transport p.packet → ipPortmapFind d (iphProto p.packet) (portDest p.packet) = none) :
      Touch d now e (.recv p) (.received (toInside p.packet e.sport e.src))
        (noteInbound p.packet (toInside p.packet e.sport e.src) {e with last := now})
  | continued {pcbs : LocalPcbs} {draws : List Draw} {inp outp : Netif} {p : Datagram} (on : inp.napt = true)
      (transport : Transport p.packet) (midway : ¬ Opening p.packet) (fits : outKey p.packet e = true)
      (same : e.dest = iphDest p.packet ∧ e.dport = portDest p.packet)
      (unmapped : ipPortmapFindDest d (iphProto p.packet) (portSrc p.packet) (iphSrc p.packet) = none) :
      Touch d now e (.forward pcbs draws inp outp p) (.forwarded (toOutside p.packet e.mport outp.ipAddr) .ok unreach)
        (noteOutbound p.packet {e with last := now})
  | refused (fits : outKey p.packet e = true) (foreign : ¬ (e.dest = iphDest p.packet ∧ e.dport = portDest p.packet)) :
      Touch d now e (.forward pcbs draws inp outp p) (.forwarded p.packet .rte unreach) {e with last := now}
  | taken {pcbs : LocalPcbs} {draws : List Draw} {inp outp : Netif} {p : Datagram} (on : inp.napt = true)
      (opening : Opening p.packet) (fits : outKey p.packet e = true)
      (unmapped : Transport p.packet →
        ipPortmapFindDest d (iphProto p.packet) (portSrc p.packet) (iphSrc p.packet) = none) :
      Touch d now e (.forward pcbs draws inp outp p) (.forwarded (toOutside p.packet e.mport outp.ipAddr) .ok unreach)
        {e with last := now,dest := iphDest p.packet,dport := receiver p.packet}

section Entries
variable {a : Sessions} {now : UInt32} {wanted : Session → Bool} {i : Nat} {e : Session}

theorem find_stays (wanted : Session → Bool) (member : (i,e) ∈ a.active) (live : expired now e = false) :
    (i,e) ∈ (a.find now wanted).1.active ∨
      (a.find now wanted).2 = some (i,e) ∧ (i,{e with last := now}) ∈ (a.find now wanted).1.active := by
  unfold Sessions.find
  exact scan_live member live

theorem find_origin (member : (i,e) ∈ (a.find now wanted).1.active) :
    (i,e) ∈ a.active ∨ ∃ old, (i,old) ∈ a.active ∧ (a.find now wanted).2 = some (i,old) ∧ e = {old with last := now} := by
  unfold Sessions.find at member ⊢
  cases scan_origin member with
  | inl old => exact .inl old
  | inr touched =>
    obtain ⟨⟨j,old⟩,inside,found,same⟩ := touched
    cases same
    exact .inr ⟨old,inside,found,rfl⟩

theorem put_here (member : (i,e) ∈ a.active) (f : Session → Session) : (i,f e) ∈ (a.put i f).active :=
  List.mem_map.mpr ⟨(i,e),member,if_pos rfl⟩

theorem put_there (member : (i,e) ∈ a.active) (other : i ≠ j) (f : Session → Session) : (i,e) ∈ (a.put j f).active :=
  List.mem_map.mpr ⟨(i,e),member,if_neg other⟩

theorem put_origin {f : Session → Session} (member : (i,e) ∈ (a.put j f).active) :
    i ≠ j ∧ (i,e) ∈ a.active ∨ i = j ∧ ∃ old, (i,old) ∈ a.active ∧ e = f old := by
  obtain ⟨x,inside,same⟩ := List.mem_map.mp member
  by_cases here : x.1 = j
  · rw [if_pos here] at same
    cases same
    exact .inr ⟨rfl,x.2,here ▸ inside,rfl⟩
  · rw [if_neg here] at same
    subst same
    exact .inl ⟨here,inside⟩

theorem slot_unique (distinct : a.slots.Nodup) (one : (i,e) ∈ a.active) (two : (i,f) ∈ a.active) : e = f := by
  have same := List.inj_on_of_nodup_map distinct one two rfl
  exact congrArg Prod.snd same

theorem found_unique (distinct : a.slots.Nodup) (member : (i,e) ∈ a.active)
    (found : (a.find now wanted).2 = some (i,f)) : f = e :=
  slot_unique distinct (Sessions.find_some found).1 member

theorem found_here (found : (a.find now wanted).2 = some (i,e)) :
    (i,{e with last := now}) ∈ (a.find now wanted).1.active := by
  obtain ⟨_,_,_,before,after,split⟩ := Sessions.find_some found
  rw [split]
  simp

theorem find_put (distinct : a.slots.Nodup) (member : (i,e) ∈ a.active) (live : expired now e = false)
    (found : (a.find now wanted).2 = some (j,f)) (g : Session → Session) :
    i ≠ j ∧ (i,e) ∈ ((a.find now wanted).1.put j g).active ∨
    i = j ∧ f = e ∧ (i,g {e with last := now}) ∈ ((a.find now wanted).1.put j g).active := by
  by_cases here : i = j
  · subst here
    have same := found_unique distinct member found
    subst same
    exact .inr ⟨rfl,rfl,put_here (found_here found) g⟩
  · cases find_stays wanted member live with
    | inl stays => exact .inl ⟨here,put_there stays here g⟩
    | inr touched =>
      rw [found] at touched
      cases touched.1
      exact absurd rfl here

theorem Added.stays (distinct : a.slots.Nodup) (member : (i,e) ∈ a.active) (live : expired now e = false)
    (added : Added a now proto src sport dest dport a' mport) :
    (i,e) ∈ a'.active ∨ lookedUp proto src sport 0 false e = true ∧ mport = e.mport ∧
      (i,{e with last := now,dest := dest,dport := dport}) ∈ a'.active := by
  cases added with
  | @reused j f found =>
    cases find_stays (lookedUp proto src sport 0 false) member live with
    | inl stays =>
      by_cases here : i = j
      · subst here
        have same := found_unique distinct member found
        subst same
        exact .inr ⟨(Sessions.find_some found).2.2.1,rfl,List.mem_cons_self ..⟩
      · refine .inl (List.mem_cons_of_mem _ (List.mem_filter.mpr ⟨stays,?_⟩))
        simpa using here
    | inr touched =>
      rw [found] at touched
      cases touched.1
      exact .inr ⟨(Sessions.find_some found).2.2.1,rfl,List.mem_cons_self ..⟩
  | opened missing =>
    cases find_stays (lookedUp proto src sport 0 false) member live with
    | inl stays => exact .inl (List.mem_cons_of_mem _ stays)
    | inr touched => rw [missing] at touched; cases touched.1
  | full missing =>
    cases find_stays (lookedUp proto src sport 0 false) member live with
    | inl stays => exact .inl stays
    | inr touched => rw [missing] at touched; cases touched.1

end Entries

section Steps
variable {d : NaptData} {a : Sessions} {now : UInt32} {i : Nat} {e : Session}

theorem Received.entry {p : Datagram} (distinct : a.slots.Nodup) (member : (i,e) ∈ a.active)
    (live : expired now e = false) (received : Received d a now p.packet a' p') :
    ∃ e', (i,e') ∈ a'.active ∧ Touch d now e (.recv p) (.received p') e' := by
  cases received with
  | ignored => exact ⟨e,member,.untouched⟩
  | mapped => exact ⟨e,member,.untouched⟩
  | unknown _ _ missing =>
    cases find_stays (inKey p.packet) member live with
    | inl stays => exact ⟨e,stays,.untouched⟩
    | inr touched => rw [missing] at touched; cases touched.1
  | @session j f inbound unmapped found =>
    rcases find_put distinct member live found (noteInbound p.packet (toInside p.packet f.sport f.src)) with
      ⟨_,stays⟩ | ⟨_,same,noted⟩
    · exact ⟨e,stays,.untouched⟩
    · subst same
      exact ⟨_,noted,.answered inbound (Sessions.find_some found).2.2.1 unmapped⟩

theorem ForwardedAs.entry {p : Datagram} (distinct : a.slots.Nodup) (member : (i,e) ∈ a.active)
    (live : expired now e = false) (forwarded : ForwardedAs d a now inp outp p.packet a' p' err) :
    ∃ e', (i,e') ∈ a'.active ∧ Touch d now e (.forward pcbs draws inp outp p) (.forwarded p' err unreach) e' := by
  cases forwarded with
  | off => exact ⟨e,member,.untouched⟩
  | ignored => exact ⟨e,member,.untouched⟩
  | mapped => exact ⟨e,member,.untouched⟩
  | registered on opening unmapped added =>
    rcases added.stays distinct member live with stays | ⟨fits,same,taken⟩
    · exact ⟨e,stays,.untouched⟩
    · subst same
      exact ⟨_,taken,.taken on opening fits unmapped⟩
  | @continued j f on transport midway unmapped found same =>
    rcases find_put distinct member live found (noteOutbound p.packet) with ⟨_,stays⟩ | ⟨_,isE,noted⟩
    · exact ⟨e,stays,.untouched⟩
    · subst isE
      exact ⟨_,noted,.continued on transport midway (Sessions.find_some found).2.2.1 same unmapped⟩
  | refused on transport midway unmapped foreign =>
    cases find_stays (outKey p.packet) member live with
    | inl stays => exact ⟨e,stays,.untouched⟩
    | inr touched =>
      obtain ⟨found,marked⟩ := touched
      exact ⟨_,marked,.refused (Sessions.find_some found).2.2.1 (foreign i e found)⟩

-- An entry that has not expired stays on its slot whatever happens.
theorem Changes.entry (distinct : a.slots.Nodup) (member : (i,e) ∈ a.active) (live : expired now e = false)
    (changes : Changes d a now event reply d' a') : ∃ e', (i,e') ∈ a'.active ∧ Touch d now e event reply e' := by
  cases changes with
  | received outcome => exact outcome.entry distinct member live
  | forwarded outcome => exact outcome.entry distinct member live
  | mapped => exact ⟨e,member,.untouched⟩
  | unmapped => exact ⟨e,member,.untouched⟩

end Steps

-- Where an entry comes from: from the entry its slot held before, which an event
-- changes only while it has not expired, or from a packet that opens a session.
inductive Provenance (d : NaptData) (a : Sessions) (now : UInt32) (event : Event) (reply : Reply) (i : Nat) :
    Session → Prop where
  | kept (member : (i,e) ∈ a.active) : Provenance d a now event reply i e
  | touched (member : (i,e) ∈ a.active) (live : expired now e = false) (touch : Touch d now e event reply e') :
      Provenance d a now event reply i e'
  | opened {inp : Netif} {p : Datagram} {mport : UInt16} (isForward : event = .forward pcbs draws inp outp p)
      (on : inp.napt = true) (opening : Opening p.packet)
      (unmapped : Transport p.packet →
        ipPortmapFindDest d (iphProto p.packet) (portSrc p.packet) (iphSrc p.packet) = none) :
      Provenance d a now event reply i ⟨now,iphSrc p.packet,iphDest p.packet,sender p.packet,receiver p.packet,mport,
        iphProto p.packet,false,false,false,false,false,false⟩

section Provenance
variable {d : NaptData} {a : Sessions} {now : UInt32} {wanted : Session → Bool} {i : Nat} {e : Session}

theorem found_origin (distinct : a.slots.Nodup) (found : (a.find now wanted).2 = some (j,f))
    (member : (i,e) ∈ (a.find now wanted).1.active) :
    i ≠ j ∧ (i,e) ∈ a.active ∨ i = j ∧ e = {f with last := now} := by
  by_cases here : i = j
  · subst here
    exact .inr ⟨rfl,slot_unique (distinct.sublist (find_slots ..)) member (found_here found)⟩
  · cases find_origin member with
    | inl old => exact .inl ⟨here,old⟩
    | inr marked =>
      obtain ⟨old,_,found',_⟩ := marked
      rw [found] at found'
      cases found'
      exact absurd rfl here

theorem missing_origin (missing : (a.find now wanted).2 = none) (member : (i,e) ∈ (a.find now wanted).1.active) :
    (i,e) ∈ a.active := by
  cases find_origin member with
  | inl old => exact old
  | inr marked =>
    obtain ⟨_,_,found,_⟩ := marked
    rw [missing] at found
    cases found

theorem noted_origin {f : Session → Session} (distinct : a.slots.Nodup) (found : (a.find now wanted).2 = some (j,e'))
    (member : (i,e) ∈ ((a.find now wanted).1.put j f).active) :
    (i,e) ∈ a.active ∨ i = j ∧ e = f {e' with last := now} := by
  rcases put_origin member with ⟨apart,old⟩ | ⟨here,old,inside,noted⟩
  · rcases found_origin distinct found old with ⟨_,old⟩ | ⟨here,_⟩
    · exact .inl old
    · exact absurd here apart
  · rcases found_origin distinct found inside with ⟨apart,_⟩ | ⟨_,marked⟩
    · exact absurd here apart
    · exact .inr ⟨here,marked ▸ noted⟩

theorem Received.provenance {p : Datagram} (distinct : a.slots.Nodup) (received : Received d a now p.packet a' p')
    (member : (i,e) ∈ a'.active) : Provenance d a now (.recv p) (.received p') i e := by
  cases received with
  | ignored => exact .kept member
  | mapped => exact .kept member
  | unknown _ _ missing => exact .kept (missing_origin missing member)
  | @session j f inbound unmapped found =>
    obtain ⟨listed,live,fits,_⟩ := Sessions.find_some found
    rcases noted_origin distinct found member with old | ⟨rfl,rfl⟩
    · exact .kept old
    · exact .touched listed live (.answered inbound fits unmapped)

theorem Added.provenance (distinct : a.slots.Nodup) (added : Added a now proto src sport dest dport a' mport)
    (member : (i,e) ∈ a'.active) :
    (i,e) ∈ a.active ∨
    (∃ old, (i,old) ∈ a.active ∧ expired now old = false ∧ lookedUp proto src sport 0 false old = true ∧
      mport = old.mport ∧ e = {old with last := now,dest := dest,dport := dport}) ∨
    e = ⟨now,src,dest,sport,dport,mport,proto,false,false,false,false,false,false⟩ := by
  cases added with
  | @reused j f found =>
    obtain ⟨listed,live,fits,_⟩ := Sessions.find_some found
    cases member with
    | head => exact .inr (.inl ⟨f,listed,live,fits,rfl,rfl⟩)
    | tail _ old =>
      obtain ⟨inside,other⟩ := List.mem_filter.mp old
      rcases found_origin distinct found inside with ⟨_,old⟩ | ⟨here,_⟩
      · exact .inl old
      · simp [here] at other
  | opened missing =>
    cases member with
    | head => exact .inr (.inr rfl)
    | tail _ old => exact .inl (missing_origin missing old)
  | full missing => exact .inl (missing_origin missing member)

theorem ForwardedAs.provenance {p : Datagram} (distinct : a.slots.Nodup)
    (forwarded : ForwardedAs d a now inp outp p.packet a' p' err) (member : (i,e) ∈ a'.active) :
    Provenance d a now (.forward pcbs draws inp outp p) (.forwarded p' err unreach) i e := by
  cases forwarded with
  | off => exact .kept member
  | ignored => exact .kept member
  | mapped => exact .kept member
  | registered on opening unmapped added =>
    rcases added.provenance distinct member with old | ⟨old,listed,live,fits,same,taken⟩ | new
    · exact .kept old
    · subst same taken
      exact .touched listed live (.taken on opening fits unmapped)
    · subst new
      exact .opened rfl on opening unmapped
  | @continued j f on transport midway unmapped found same =>
    obtain ⟨listed,live,fits,_⟩ := Sessions.find_some found
    rcases noted_origin distinct found member with old | ⟨rfl,rfl⟩
    · exact .kept old
    · exact .touched listed live (.continued on transport midway fits same unmapped)
  | refused on transport midway unmapped foreign =>
    cases found : (a.find now (outKey p.packet)).2 with
    | none => exact .kept (missing_origin found member)
    | some x =>
      obtain ⟨j,f⟩ := x
      obtain ⟨listed,live,fits,_⟩ := Sessions.find_some found
      rcases found_origin distinct found member with ⟨_,old⟩ | ⟨here,marked⟩
      · exact .kept old
      · subst here marked
        exact .touched listed live (.refused fits (foreign _ _ found))

theorem Changes.provenance (distinct : a.slots.Nodup) (changes : Changes d a now event reply d' a')
    (member : (i,e) ∈ a'.active) : Provenance d a now event reply i e := by
  cases changes with
  | received outcome => exact outcome.provenance distinct member
  | forwarded outcome => exact outcome.provenance distinct member
  | mapped => exact .kept member
  | unmapped => exact .kept member

end Provenance
end NonosLinkLayer.Napt
