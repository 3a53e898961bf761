import NonosLinkLayer.Napt.Sessions
import NonosLinkLayer.Base.LinkPool
import Mathlib.Data.List.Perm.Subperm

namespace NonosLinkLayer.Napt
open LinkPool

def links (d : NaptData) : Pool Nat where
  next i := (d.table i).next
  prev i := (d.table i).prev
  head := d.list
  last := d.listLast
  spare := d.free

-- The tables hold exactly these sessions: both chains are whole, every slot is
-- on one of them, and the counters count.
structure Represents (d : NaptData) (a : Sessions) : Prop where
  shape : Shape noIdx (links d) a.slots a.free
  stored : ∀ e ∈ a.active, (d.table e.1).toSession = e.2
  covers : ∀ i, i ∈ a.slots ∨ i ∈ a.free ↔ i < d.naptMax
  tcp : d.nrActiveTcp = (a.active.countP (·.2.proto = ipProtoTcp) : Int)
  udp : d.nrActiveUdp = (a.active.countP (·.2.proto = ipProtoUdp) : Int)
  icmp : d.nrActiveIcmp = (a.active.countP (·.2.proto = ipProtoIcmp) : Int)

def Fixed (before after : NaptData) : Prop :=
  after.portmapTable = before.portmapTable ∧ after.naptMax = before.naptMax

theorem Fixed.refl (d : NaptData) : Fixed d d := ⟨rfl,rfl⟩
theorem Fixed.trans (ab : Fixed a b) (bc : Fixed b c) : Fixed a c :=
  ⟨bc.1.trans ab.1,bc.2.trans ab.2⟩

section Counters
variable (d : NaptData) (proto : UInt8) (delta : Int)

theorem count_links : links (d.count proto delta) = links d := by
  unfold NaptData.count links
  split_ifs <;> rfl

@[simp] theorem count_table : (d.count proto delta).table = d.table := by
  unfold NaptData.count
  split_ifs <;> rfl

theorem count_fixed : Fixed d (d.count proto delta) := by
  unfold NaptData.count Fixed
  split_ifs <;> exact ⟨rfl,rfl⟩

theorem count_tcp : (d.count proto delta).nrActiveTcp = d.nrActiveTcp + if proto = ipProtoTcp then delta else 0 := by
  unfold NaptData.count
  split_ifs <;> simp_all

theorem count_udp : (d.count proto delta).nrActiveUdp = d.nrActiveUdp + if proto = ipProtoUdp then delta else 0 := by
  unfold NaptData.count
  split_ifs <;> simp_all

theorem count_icmp : (d.count proto delta).nrActiveIcmp = d.nrActiveIcmp + if proto = ipProtoIcmp then delta else 0 := by
  unfold NaptData.count
  split_ifs <;> simp_all

end Counters

-- The tables with other links. ip_napt_insert and ip_napt_free do nothing else
-- but count.
def relink (d : NaptData) (p : Pool Nat) : NaptData :=
  {d with
    table := fun i => {d.table i with next := p.next i,prev := p.prev i}
    list := p.head
    listLast := p.last
    free := p.spare}

section Relink
variable (d : NaptData) (p : Pool Nat) (i x : Nat)

theorem relink_head (c : Prop) [Decidable c] : (if c then {relink d p with list := x} else relink d p) =
    relink d {p with head := if c then x else p.head} := by
  split_ifs <;> rfl

theorem relink_last (c : Prop) [Decidable c] : (if c then {relink d p with listLast := x} else relink d p) =
    relink d {p with last := if c then x else p.last} := by
  split_ifs <;> rfl

theorem relink_prev : (relink d p).modify i (fun t => {t with prev := x}) =
    relink d {p with prev := Function.update p.prev i x} := by
  unfold NaptData.modify relink
  congr 1
  funext j
  by_cases same : j = i
  · subst same; simp
  · simp [same]

theorem relink_next : (relink d p).modify i (fun t => {t with next := x}) =
    relink d {p with next := Function.update p.next i x} := by
  unfold NaptData.modify relink
  congr 1
  funext j
  by_cases same : j = i
  · subst same; simp
  · simp [same]

theorem relink_prev_unless : (if i ≠ noIdx then (relink d p).modify i (fun t => {t with prev := x}) else relink d p) =
    relink d {p with prev := if i = noIdx then p.prev else Function.update p.prev i x} := by
  rw [relink_prev]
  split_ifs <;> first | rfl | contradiction

theorem relink_next_unless : (if i ≠ noIdx then (relink d p).modify i (fun t => {t with next := x}) else relink d p) =
    relink d {p with next := if i = noIdx then p.next else Function.update p.next i x} := by
  rw [relink_next]
  split_ifs <;> first | rfl | contradiction

theorem free_relink : ipNaptFree (relink d p) i = (relink d (p.release noIdx i)).count (d.table i).proto (-1) := by
  unfold ipNaptFree Pool.release
  extract_lets d1 d2 d3 d4 d5 d6 d7 p1 p2 p3 p4 p5 p6
  have one : d1 = relink d p1 := relink_head ..
  have two : d2 = relink d p2 := by simp only [d2,one]; exact relink_last ..
  have three : d3 = relink d p3 := by simp only [d3,two]; exact relink_prev_unless ..
  have four : d4 = relink d p4 := by simp only [d4,three]; exact relink_next_unless ..
  have five : d5 = relink d p5 := by simp only [d5,four]; exact relink_prev ..
  have six : d6 = relink d p6 := by simp only [d6,five]; exact relink_next ..
  simp only [d7,six]
  rfl

theorem insert_relink (atSpare : i = p.spare) : ipNaptInsert (relink d p) i =
    .ok ((relink d (p.acquire noIdx i)).count (d.table i).proto 1) := by
  unfold ipNaptInsert Pool.acquire
  have fits : ¬ i ≠ (relink d p).free := not_not.mpr atSpare
  rw [if_neg fits]
  extract_lets d1 d2 d3 d4 d5 d6 p1 p2 p3 p4 p5
  have one : d1 = relink d p1 := rfl
  have two : d2 = relink d p2 := by simp only [d2,one]; exact relink_prev ..
  have three : d3 = relink d p3 := by simp only [d3,two]; exact relink_next ..
  have four : d4 = relink d p4 := by simp only [d4,three]; exact relink_prev_unless ..
  have five : d5 = relink d p5 := by simp only [d5,four]; rfl
  have six : d6 = relink d {p5 with last := if p5.last = noIdx then i else p5.last} := by
    simp only [d6,five]; exact relink_last ..
  rw [six]
  rfl

end Relink

def KeepsSessions (before after : NaptData) : Prop :=
  Fixed before after ∧ ∀ j, (after.table j).toSession = (before.table j).toSession

theorem relinked_keeps (d : NaptData) (p : Pool Nat) (proto : UInt8) (delta : Int) :
    KeepsSessions d ((relink d p).count proto delta) := by
  refine ⟨(Fixed.trans ⟨rfl,rfl⟩ (count_fixed (relink d p) proto delta)),fun j => ?_⟩
  rw [count_table]
  rfl

theorem slots_split : Sessions.slots ⟨before ++ (i,e) :: after,free⟩ =
    before.map Prod.fst ++ i :: after.map Prod.fst := by
  simp [Sessions.slots]

theorem filter_slot (distinct : ((before ++ (i,e) :: after).map Prod.fst : List Nat).Nodup) :
    (before ++ (i,e) :: after : List (Nat × Session)).filter (·.1 ≠ i) = before ++ after := by
  rw [List.map_append,List.map_cons] at distinct
  obtain ⟨foreign,_⟩ := List.nodup_cons.mp (List.nodup_middle.mp distinct)
  rw [List.filter_append,List.filter_cons_of_neg (by simp)]
  congr 1
  all_goals
    refine List.filter_eq_self.mpr fun x member => ?_
    have apart : x.1 ≠ i := by
      rintro rfl
      exact foreign (by simp [List.mem_map_of_mem member])
    simpa using apart

theorem tally_split (q : UInt8) : ((before ++ (i,e) :: after : List (Nat × Session)).countP (·.2.proto = q) : Int) =
    (before ++ after).countP (·.2.proto = q) + if e.proto = q then 1 else 0 := by
  simp only [List.countP_append,List.countP_cons]
  split_ifs <;> simp_all
  omega

theorem tally_front (i : Nat) (e : Session) (active : List (Nat × Session)) (q : UInt8) :
    (((i,e) :: active).countP (·.2.proto = q) : Int) = active.countP (·.2.proto = q) + if e.proto = q then 1 else 0 := by
  rw [←List.nil_append ((i,e) :: active),tally_split,List.nil_append]

namespace Represents
variable {d : NaptData} {a : Sessions}

theorem slots_nodup (rep : Represents d a) : a.slots.Nodup := (List.nodup_append.mp rep.shape.apart).1

theorem length_bounded (rep : Represents d a) : a.active.length ≤ d.naptMax := by
  have inside : a.slots ⊆ List.range d.naptMax := fun i member =>
    List.mem_range.mpr ((rep.covers i).mp (.inl member))
  have fits := (List.subperm_of_subset rep.slots_nodup inside).length_le
  simpa [Sessions.slots] using fits

theorem free_split (rep : Represents d ⟨before ++ (i,e) :: after,free⟩) :
    Represents (ipNaptFree d i) ⟨before ++ after,i :: free⟩ ∧ KeepsSessions d (ipNaptFree d i) := by
  have same : ipNaptFree d i = _ := free_relink d (links d) i
  have stored : (d.table i).toSession = e := rep.stored (i,e) (by simp)
  have stored_proto : (d.table i).proto = e.proto := by rw [←stored]
  have keeps : KeepsSessions d (ipNaptFree d i) := same ▸ relinked_keeps ..
  have shape := rep.shape
  rw [slots_split] at shape
  have parted := shape.release
  refine ⟨⟨?_,?_,?_,?_,?_,?_⟩,keeps⟩
  · rw [same,count_links]
    have linked : links (relink d ((links d).release noIdx i)) = (links d).release noIdx i := rfl
    simpa [Sessions.slots,linked] using parted
  · intro x member
    rw [keeps.2]
    refine rep.stored x ?_
    simp only [List.mem_append,List.mem_cons] at member ⊢
    tauto
  · intro j
    rw [keeps.1.2,←rep.covers j]
    simp only [Sessions.slots,List.map_append,List.map_cons,List.mem_append,List.mem_cons]
    tauto
  · rw [same,count_tcp,stored_proto]
    have counted : d.nrActiveTcp = _ := rep.tcp.trans (tally_split _)
    simp only [relink,counted]
    split_ifs <;> omega
  · rw [same,count_udp,stored_proto]
    have counted : d.nrActiveUdp = _ := rep.udp.trans (tally_split _)
    simp only [relink,counted]
    split_ifs <;> omega
  · rw [same,count_icmp,stored_proto]
    have counted : d.nrActiveIcmp = _ := rep.icmp.trans (tally_split _)
    simp only [relink,counted]
    split_ifs <;> omega

theorem insert_front (rep : Represents d ⟨active,i :: free⟩) :
    ∃ d', ipNaptInsert d i = .ok d' ∧ Represents d' ⟨(i,(d.table i).toSession) :: active,free⟩ ∧
      KeepsSessions d d' := by
  have atSpare : i = (links d).spare := rep.shape.spare_first.symm
  have same := insert_relink d (links d) i atSpare
  refine ⟨_,same,?_,relinked_keeps ..⟩
  have keeps := relinked_keeps d ((links d).acquire noIdx i) (d.table i).proto 1
  have acquired := rep.shape.acquire
  refine ⟨?_,?_,?_,?_,?_,?_⟩
  · rw [count_links]
    exact acquired
  · intro x member
    rw [keeps.2]
    rcases List.mem_cons.mp member with rfl | old
    · rfl
    · exact rep.stored x old
  · intro j
    rw [keeps.1.2,←rep.covers j]
    simp only [Sessions.slots,List.map_cons,List.mem_cons]
    tauto
  · rw [count_tcp]
    have counted := rep.tcp
    have more := tally_front i (d.table i).toSession active ipProtoTcp
    simp only [relink,counted,more]
  · rw [count_udp]
    have counted := rep.udp
    have more := tally_front i (d.table i).toSession active ipProtoUdp
    simp only [relink,counted,more]
  · rw [count_icmp]
    have counted := rep.icmp
    have more := tally_front i (d.table i).toSession active ipProtoIcmp
    simp only [relink,counted,more]

end Represents

theorem links_modify (d : NaptData) (i : Nat) {f : NaptTable → NaptTable}
    (next : ∀ t, (f t).next = t.next) (prev : ∀ t, (f t).prev = t.prev) : links (d.modify i f) = links d := by
  unfold links NaptData.modify
  congr 1 <;> funext j <;> by_cases same : j = i
  · subst same; simp [next]
  · simp [same]
  · subst same; simp [prev]
  · simp [same]

theorem put_slots (a : Sessions) (i : Nat) (g : Session → Session) : (a.put i g).slots = a.slots := by
  unfold Sessions.put Sessions.slots
  rw [List.map_map]
  congr 1
  funext x
  by_cases same : x.1 = i <;> simp [same]

theorem put_tally {g : Session → Session} (proto : ∀ e, (g e).proto = e.proto) (a : Sessions) (i : Nat) (q : UInt8) :
    (a.put i g).active.countP (·.2.proto = q) = a.active.countP (·.2.proto = q) := by
  unfold Sessions.put
  rw [List.countP_map]
  congr 1
  funext x
  by_cases same : x.1 = i <;> simp [same,proto]

theorem put_split (distinct : ((before ++ (i,e) :: after).map Prod.fst : List Nat).Nodup) (g : Session → Session) :
    Sessions.put ⟨before ++ (i,e) :: after,free⟩ i g = ⟨before ++ (i,g e) :: after,free⟩ := by
  rw [List.map_append,List.map_cons] at distinct
  obtain ⟨foreign,_⟩ := List.nodup_cons.mp (List.nodup_middle.mp distinct)
  unfold Sessions.put
  rw [List.map_append,List.map_cons]
  have still : ∀ part : List (Nat × Session), (∀ x ∈ part, x.1 ≠ i) →
      part.map (fun e => if e.1 = i then (i,g e.2) else e) = part := by
    intro part apart
    calc part.map (fun e => if e.1 = i then (i,g e.2) else e)
      _ = part.map id := List.map_congr_left fun x member => if_neg (apart x member)
      _ = part := List.map_id part
  have one : ∀ x ∈ before, x.1 ≠ i := by
    rintro x member rfl
    exact foreign (by simp [List.mem_map_of_mem member])
  have two : ∀ x ∈ after, x.1 ≠ i := by
    rintro x member rfl
    exact foreign (by simp [List.mem_map_of_mem member])
  simp [still before one,still after two]

namespace Represents
variable {d : NaptData} {a : Sessions}

theorem modify_active (rep : Represents d a) (i : Nat) {f : NaptTable → NaptTable} {g : Session → Session}
    (next : ∀ t, (f t).next = t.next) (prev : ∀ t, (f t).prev = t.prev)
    (content : ∀ t, (f t).toSession = g t.toSession) (proto : ∀ e, (g e).proto = e.proto) :
    Represents (d.modify i f) (a.put i g) := by
  refine ⟨?_,?_,?_,?_,?_,?_⟩
  · rw [links_modify d i next prev,put_slots]
    exact rep.shape
  · intro x member
    obtain ⟨old,oldMember,rfl⟩ := List.mem_map.mp member
    have stored := rep.stored old oldMember
    by_cases same : old.1 = i
    · simp [NaptData.modify,same,content,←stored]
    · simpa [NaptData.modify,same] using stored
  · intro j
    rw [put_slots]
    exact rep.covers j
  · rw [put_tally proto]; exact rep.tcp
  · rw [put_tally proto]; exact rep.udp
  · rw [put_tally proto]; exact rep.icmp

theorem modify_free (rep : Represents d a) (member : i ∈ a.free) {f : NaptTable → NaptTable}
    (next : ∀ t, (f t).next = t.next) (prev : ∀ t, (f t).prev = t.prev) : Represents (d.modify i f) a := by
  refine ⟨?_,?_,rep.covers,rep.tcp,rep.udp,rep.icmp⟩
  · rw [links_modify d i next prev]
    exact rep.shape
  · intro x active
    have apart : x.1 ≠ i := by
      rintro rfl
      exact List.disjoint_of_nodup_append rep.shape.apart (List.mem_map_of_mem active) member
    simpa [NaptData.modify,apart] using rep.stored x active

end Represents

-- The loop of ip_napt_find, started anywhere on the chain, is a scan of the
-- sessions from there on. The induction is on these sessions; an expired one
-- leaves the chain behind the loop, any other stays.
theorem findLoop_refines (now : UInt32) (wanted : Session → Bool) (rest : List (Nat × Session)) :
    ∀ (turns : Nat) (d : NaptData) (behind : List (Nat × Session)) (free : List Nat),
    Represents d ⟨behind ++ rest,free⟩ → rest.length ≤ turns →
    let r := ExpiringScan.scan (fun e : Nat × Session => expired now e.2) (fun e => wanted e.2)
      (fun e => (e.1,{e.2 with last := now})) rest
    ∃ d', findLoop now wanted turns d ((rest.map Prod.fst).head?.getD noIdx) = .ok (d',r.found.map Prod.fst) ∧
      Represents d' ⟨behind ++ r.kept,(r.dropped.map Prod.fst).reverse ++ free⟩ ∧ Fixed d d' := by
  induction rest with
  | nil =>
    intro turns d behind free rep _
    refine ⟨d,?_,by simpa [ExpiringScan.scan] using rep,Fixed.refl d⟩
    unfold findLoop
    simp [ExpiringScan.scan]
  | cons x rest ih =>
    obtain ⟨i,e⟩ := x
    intro turns d behind free rep enough
    have real : i ≠ noIdx := rep.shape.forward.cells_exist i (by simp [Sessions.slots])
    have stored : (d.table i).toSession = e := rep.stored (i,e) (by simp)
    have next : (d.table i).next = (rest.map Prod.fst).head?.getD noIdx := by
      have shape := rep.shape
      rw [slots_split] at shape
      exact shape.next_ahead
    obtain ⟨turns,rfl⟩ := Nat.exists_eq_add_of_lt (Nat.lt_of_lt_of_le (Nat.zero_lt_succ rest.length) enough)
    rw [Nat.zero_add]
    have enough' : rest.length ≤ turns := by simpa using enough
    unfold findLoop ExpiringScan.scan
    simp only [List.map_cons,List.head?_cons,Option.getD_some,real,if_false,stored,next]
    by_cases dead : expired now e = true
    · obtain ⟨freed,keeps⟩ := rep.free_split
      obtain ⟨d',ran,rep',fixed⟩ := ih turns _ behind _ freed enough'
      simp only [dead,if_true]
      exact ⟨d',ran,by simpa using rep',keeps.1.trans fixed⟩
    · by_cases hit : wanted e = true
      · simp only [dead,hit,if_true]
        have touched := rep.modify_active i (f:=fun t => {t with last := now}) (g:=fun t => {t with last := now})
          (fun _ => rfl) (fun _ => rfl) (fun _ => rfl) (fun _ => rfl)
        rw [put_split rep.slots_nodup] at touched
        exact ⟨_,rfl,touched,rfl,rfl⟩
      · obtain ⟨d',ran,rep',fixed⟩ := ih turns d (behind ++ [(i,e)]) free (by simpa using rep) enough'
        simp only [dead,hit]
        exact ⟨d',ran,by simpa using rep',fixed⟩

theorem find_refines (rep : Represents d a) (now : UInt32) (proto : UInt8) (addr : UInt32) (port mport : UInt16)
    (dest : Bool) :
    let r := a.find now (lookedUp proto addr port mport dest)
    ∃ d', ipNaptFind d now proto addr port mport dest = .ok (d',r.2.map Prod.fst) ∧ Represents d' r.1 ∧ Fixed d d' := by
  have first : d.list = (a.active.map Prod.fst).head?.getD noIdx := rep.shape.head_first
  unfold ipNaptFind
  rw [first]
  exact findLoop_refines now _ a.active d.naptMax d [] a.free rep rep.length_bounded

theorem findPortLoop_exact (d : NaptData) (proto : UInt8) (port : UInt16) (rest : List (Nat × Session)) :
    ∀ turns, LinkPool.Path (links d).next noIdx a (rest.map Prod.fst) noIdx →
    (∀ e ∈ rest, (d.table e.1).toSession = e.2) → rest.length ≤ turns →
    findPortLoop d proto port turns a =
      .ok (rest.any fun e => e.2.proto = proto ∧ e.2.mport = port) := by
  induction rest generalizing a with
  | nil =>
    intro turns path _ _
    have ending : a = noIdx := path
    unfold findPortLoop
    simp [ending]
  | cons x rest ih =>
    intro turns path stored enough
    obtain ⟨rfl,real,onward⟩ := path
    obtain ⟨turns,rfl⟩ := Nat.exists_eq_add_of_lt (Nat.lt_of_lt_of_le (Nat.zero_lt_succ rest.length) enough)
    have here : (d.table x.1).toSession = x.2 := stored x (by simp)
    have later := ih turns onward (fun e member => stored e (List.mem_cons_of_mem _ member)) (by simpa using enough)
    rw [Nat.zero_add]
    unfold findPortLoop
    simp only [real,if_false,here]
    by_cases hit : x.2.proto = proto ∧ x.2.mport = port
    · simp [hit]
    · rw [if_neg hit,List.any_cons,decide_eq_false hit,Bool.false_or]
      exact later

theorem findPort_exact (rep : Represents d a) (proto : UInt8) (port : UInt16) :
    ipNaptFindPort d proto port = .ok (a.active.any fun e => e.2.proto = proto ∧ e.2.mport = port) :=
  findPortLoop_exact d proto port a.active d.naptMax rep.shape.forward rep.stored rep.length_bounded

theorem findPort_unused (rep : Represents d a) (none : ipNaptFindPort d proto port = .ok false) :
    ∀ e ∈ a.active, e.2.proto = proto → e.2.mport ≠ port := by
  rw [findPort_exact rep] at none
  intro e member same used
  have missed := List.any_eq_false.mp (Except.ok.inj none) e member
  simp [same,used] at missed

theorem newPortLoop_unused (rep : Represents d a) (draws : List Draw)
    (ran : newPortLoop d pcbs proto draws = .ok port) : ∀ e ∈ a.active, e.2.proto = proto → e.2.mport ≠ port := by
  induction draws with
  | nil => cases ran
  | cons draw draws ih =>
    unfold newPortLoop at ran
    obtain ⟨used,asked,ran⟩ := ok_bind.mp ran
    cases used with
    | true => exact ih ran
    | false =>
      simp only [Bool.false_eq_true,if_false] at ran
      split_ifs at ran
      · exact ih ran
      · exact ih ran
      · cases ran
        exact findPort_unused rep asked

theorem newPort_unused (rep : Represents d a) (ran : ipNaptNewPort d pcbs proto sport draws = .ok port) :
    ∀ e ∈ a.active, e.2.proto = proto → e.2.mport ≠ port := by
  unfold ipNaptNewPort at ran
  split_ifs at ran
  · obtain ⟨used,asked,ran⟩ := ok_bind.mp ran
    cases used with
    | true => exact newPortLoop_unused rep draws ran
    | false =>
      split_ifs at ran
      · cases ran
        exact findPort_unused rep asked
      · exact newPortLoop_unused rep draws ran
  · exact newPortLoop_unused rep draws ran

theorem newPortLoop_ends (rep : Represents d a) (pcbs : LocalPcbs) (proto : UInt8) (draws : List Draw) :
    newPortLoop d pcbs proto draws = .error .draws ∨ ∃ port, newPortLoop d pcbs proto draws = .ok port := by
  induction draws with
  | nil => exact .inl rfl
  | cons draw draws ih =>
    unfold newPortLoop
    simp only [findPort_exact rep,bind,Except.bind]
    split_ifs
    · exact ih
    · exact ih
    · exact ih
    · exact .inr ⟨_,rfl⟩

theorem newPort_ends (rep : Represents d a) (pcbs : LocalPcbs) (proto : UInt8) (sport : UInt16) (draws : List Draw) :
    ipNaptNewPort d pcbs proto sport draws = .error .draws ∨
      ∃ port, ipNaptNewPort d pcbs proto sport draws = .ok port := by
  unfold ipNaptNewPort
  simp only [findPort_exact rep,bind,Except.bind]
  split_ifs
  · exact .inr ⟨_,rfl⟩
  · exact newPortLoop_ends rep ..
  · exact newPortLoop_ends rep ..

theorem move_front (rep : Represents d ⟨before ++ (i,e) :: after,free⟩) :
    ∃ d', ipNaptInsert (ipNaptFree d i) i = .ok d' ∧ Represents d' ⟨(i,e) :: (before ++ after),free⟩ ∧
      KeepsSessions d d' := by
  obtain ⟨freed,kept⟩ := rep.free_split
  obtain ⟨d',ran,rep',keeps⟩ := freed.insert_front
  have stored : (d.table i).toSession = e := rep.stored (i,e) (by simp)
  rw [kept.2,stored] at rep'
  exact ⟨d',ran,rep',kept.1.trans keeps.1,fun j => (keeps.2 j).trans (kept.2 j)⟩

theorem open_free (rep : Represents d a) (room : a.free = i :: free) (e : Session) :
    ∃ d', ipNaptInsert (d.modify i fun t => {t with toSession := e}) i = .ok d' ∧
      Represents d' (a.opened i e free) ∧ Fixed d d' := by
  have written := rep.modify_free (i:=i) (by simp [room]) (f:=fun t => {t with toSession := e})
    (fun _ => rfl) (fun _ => rfl)
  have split : a = ⟨a.active,i :: free⟩ := by rw [←room]
  rw [split] at written
  obtain ⟨d',ran,rep',keeps⟩ := written.insert_front
  refine ⟨d',ran,?_,keeps.1⟩
  have stored : ((d.modify i fun t => {t with toSession := e}).table i).toSession = e := by
    simp [NaptData.modify]
  rw [stored] at rep'
  exact rep'

theorem reuse_represents {a : Sessions} {now : UInt32} {wanted : Session → Bool} {i : Nat} {e : Session}
    (rep : Represents d (a.find now wanted).1) (found : (a.find now wanted).2 = some (i,e)) (dest : UInt32) (dport : UInt16) :
    ∃ d', ipNaptInsert (ipNaptFree (d.modify i fun t => {t with last := now,dest := dest,dport := dport}) i) i = .ok d' ∧
      Represents d' ((a.find now wanted).1.front i {e with last := now,dest := dest,dport := dport}) ∧ Fixed d d' ∧
      (d'.table i).mport = e.mport := by
  obtain ⟨_,_,_,before,after,split⟩ := Sessions.find_some found
  have found1 : (a.find now wanted).1 = ⟨before ++ (i,{e with last := now}) :: after,(a.find now wanted).1.free⟩ := by
    rw [←split]
  rw [found1] at rep
  have written := rep.modify_active i (f:=fun t => {t with last := now,dest := dest,dport := dport})
    (g:=fun t => {t with last := now,dest := dest,dport := dport})
    (fun _ => rfl) (fun _ => rfl) (fun _ => rfl) (fun _ => rfl)
  rw [put_split rep.slots_nodup] at written
  obtain ⟨d',moved,rep',keeps⟩ := move_front written
  have front : (a.find now wanted).1.front i {e with last := now,dest := dest,dport := dport} =
      ⟨(i,{e with last := now,dest := dest,dport := dport}) :: (before ++ after),(a.find now wanted).1.free⟩ := by
    rw [found1]
    unfold Sessions.front
    rw [filter_slot rep.slots_nodup]
  refine ⟨d',moved,front ▸ rep',keeps.1,?_⟩
  rw [show (d'.table i).toSession = _ from rep'.stored (i,_) (List.mem_cons_self ..)]

-- ip_napt_add either waits for a port for ever or ends in one of the three ways.
theorem add_refines (rep : Represents d a) (now : UInt32) (pcbs : LocalPcbs) (draws : List Draw) (proto : UInt8)
    (src : UInt32) (sport : UInt16) (dest : UInt32) (dport : UInt16) :
    ipNaptAdd d now pcbs draws proto src sport dest dport = .error .draws ∧
      (a.find now (lookedUp proto src sport 0 false)).2 = none ∨
    ∃ d' a' mport, ipNaptAdd d now pcbs draws proto src sport dest dport = .ok (d',mport) ∧
      Added a now proto src sport dest dport a' mport ∧ Represents d' a' ∧ Fixed d d' := by
  obtain ⟨d1,ran,rep1,fixed⟩ := find_refines rep now proto src sport 0 false
  unfold ipNaptAdd
  rw [ran]
  cases found : (a.find now (lookedUp proto src sport 0 false)).2 with
  | some x =>
    obtain ⟨i,e⟩ := x
    right
    obtain ⟨d',moved,rep',kept,port⟩ := reuse_represents rep1 found dest dport
    refine ⟨d',_,e.mport,?_,.reused found,rep',fixed.trans kept⟩
    simp only [bind,Except.bind,Option.map,moved,pure,Except.pure,port]
  | none =>
    have atFree : d1.free = (a.find now (lookedUp proto src sport 0 false)).1.free.head?.getD noIdx :=
      rep1.shape.spare_first
    cases room : (a.find now (lookedUp proto src sport 0 false)).1.free with
    | nil =>
      right
      rw [room] at atFree
      refine ⟨d1,_,0,?_,.full found room,rep1,fixed⟩
      simp only [bind,Except.bind,Option.map,atFree,List.head?_nil,Option.getD_none,if_true,pure,Except.pure]
    | cons i rest =>
      rw [room] at atFree
      have real : i ≠ noIdx := rep1.shape.spares.cells_exist i (by simp [room])
      have isI : d1.free = i := atFree
      have opens := fun port => open_free rep1 room
        ⟨now,src,dest,sport,dport,port,proto,false,false,false,false,false,false⟩
      simp only [bind,Except.bind,Option.map,isI,real,if_false]
      by_cases tcp : proto = ipProtoTcp
      · subst tcp
        have notUdp : ipProtoTcp ≠ ipProtoUdp := by decide
        rcases newPort_ends rep1 pcbs ipProtoTcp sport draws with stuck | ⟨port,chosen⟩
        · exact .inl ⟨by simp [stuck],trivial⟩
        · right
          obtain ⟨d',ran',rep',fixed'⟩ := opens port
          refine ⟨d',_,port,?_,.opened found room (fun _ => newPort_unused rep1 chosen) (fun no => absurd rfl no),rep',
            fixed.trans fixed'⟩
          simp only [chosen,if_true,notUdp,if_false,pure,Except.pure,ran']
      · by_cases udp : proto = ipProtoUdp
        · subst udp
          rcases newPort_ends rep1 pcbs ipProtoUdp sport draws with stuck | ⟨port,chosen⟩
          · exact .inl ⟨by simp [tcp,stuck,pure,Except.pure],trivial⟩
          · right
            obtain ⟨d',ran',rep',fixed'⟩ := opens port
            refine ⟨d',_,port,?_,.opened found room (fun _ => newPort_unused rep1 chosen) (fun _ no => absurd rfl no),
              rep',fixed.trans fixed'⟩
            simp only [chosen,if_true,tcp,if_false,pure,Except.pure,ran']
        · right
          obtain ⟨d',ran',rep',fixed'⟩ := opens sport
          refine ⟨d',_,sport,?_,.opened found room (fun either => ?_) (fun _ _ => rfl),rep',fixed.trans fixed'⟩
          · simp only [tcp,udp,if_false,pure,Except.pure,ran']
          · exact absurd either (by simp [tcp,udp])

theorem empty_chain (portmapMax : UInt8) (natMax : UInt16) (m k : Nat) (fits : k + m + 1 = natMax.toNat) :
    LinkPool.Path (links (emptyTables natMax portmapMax)).next noIdx k (List.range' k (m+1)) noIdx := by
  have small := natMax.toNat_lt
  induction m generalizing k with
  | zero =>
    refine ⟨rfl,by unfold noIdx; omega,?_⟩
    have last : k + 1 = natMax.toNat := by omega
    simp [links,emptyTables,last,LinkPool.Path]
  | succ m ih =>
    refine ⟨rfl,by unfold noIdx; omega,?_⟩
    have inner : k + 1 < natMax.toNat := by omega
    have next : (links (emptyTables natMax portmapMax)).next k = k + 1 := by simp [links,emptyTables,inner]
    rw [next]
    exact ih (k+1) (by omega)

theorem empty_represents (portmapMax : UInt8) (some : 1 ≤ natMax) :
    Represents (emptyTables natMax portmapMax) ⟨[],List.range natMax.toNat⟩ := by
  have positive : 1 ≤ natMax.toNat := UInt16.le_iff_toNat_le.mp some
  refine ⟨⟨rfl,trivial,rfl,?_,?_⟩,?_,?_,rfl,rfl,rfl⟩
  · have chain := empty_chain portmapMax natMax (natMax.toNat - 1) 0 (by omega)
    rw [Nat.sub_add_cancel positive,←List.range_eq_range'] at chain
    exact chain
  · exact List.nodup_range
  · intro e member
    cases member
  · intro i
    simp [Sessions.slots,emptyTables]

end NonosLinkLayer.Napt
