import Mathlib.Data.List.Flatten
import NonosLinkLayer.Espconn.Acknowledged

namespace NonosLinkLayer.Espconn
open HeapList Turns Transitions

section Steps
variable {L : Lwip} {s t : Sender L} {event : Sending L} {events : List (Sending L)} {lost : Nat} {pcb : L.Pcb} {len : UInt16}
  {script : Nat → List Act}

def Gentle (s : Sender L) : Sending L → Prop
  | .clientSent _ len _ => Fits s len
  | .serverSent _ len _ => Fits s len
  | _ => True

theorem Whole.polled (whole : Whole lost s) : Whole lost {s with recvCheck := 0} := by
  obtain ⟨stable,front,back,stream,settled⟩ := whole
  exact ⟨stable,front,back,{stream with},settled⟩

theorem Whole.step (contract : L.Contract) (whole : Whole lost s) (step : SendStep s event t) :
    ∃ lost', Whole lost' t ∧ (Gentle s event → lost' = lost) ∧ (¬Gentle s event → lost' = lost + 65536) := by
  cases step with
  | act ends => exact ⟨lost,((whole.obey contract _).holds ends).2,fun _ => rfl,fun harsh => absurd trivial harsh⟩
  | clientSent some_ acks ends =>
    obtain ⟨lost',kept,grown,finishes⟩ := whole.acknowledged contract _ some_ acks
    exact ⟨lost',(finishes.holds ends).2.2.2,kept,grown⟩
  | serverSent some_ acks ends =>
    obtain ⟨lost',kept,grown,finishes⟩ := whole.polled.acknowledged contract _ some_ acks
    exact ⟨lost',(finishes.holds ends).2.2.2,kept,grown⟩
  | lwip same =>
    obtain ⟨stable,front,back,stream,settled⟩ := whole
    refine ⟨lost,⟨stable,front,back,stream.withPcb same,fun b rest equal => ?_⟩,fun _ => rfl,fun harsh => absurd trivial harsh⟩
    rw [same]
    exact settled b rest equal

-- Whatever the application calls and lwIP tells, the code comes to an end
-- without following a null pointer or a freed one.
theorem Whole.goes_on (contract : L.Contract) (whole : Whole lost s) :
    (∀ act, ∃ t, SendStep s (.act act) t) ∧
    ∀ pcb len script, 0 < len.toNat → L.unacked pcb + len.toNat = L.unacked s.pcb →
      (∃ t, SendStep s (.clientSent pcb len script) t) ∧ ∃ t, SendStep s (.serverSent pcb len script) t := by
  refine ⟨fun act => ?_,fun pcb len script some_ acks => ⟨?_,?_⟩⟩
  · obtain ⟨t,_,ends⟩ := whole.obey contract act
    exact ⟨t,.act ends⟩
  · obtain ⟨_,_,_,t,_,ends⟩ := whole.acknowledged contract _ some_ acks
    exact ⟨t,.clientSent some_ acks ends⟩
  · obtain ⟨_,_,_,t,_,ends⟩ := whole.polled.acknowledged contract _ some_ acks
    exact ⟨t,.serverSent some_ acks ends⟩

theorem Stream.front_written {front back : List EspconnBuf} {carry : Nat} (stream : Stream s front back carry lost) :
    front.map EspconnBuf.written = front.map EspconnBuf.payload :=
  List.map_congr_left fun b member => (stream.shaped b (List.mem_append_left _ member)).all_written (stream.done b member)

theorem Stream.all_accepted {front : List EspconnBuf} {carry : Nat} (stream : Stream s front [] carry lost) :
    s.accepted = s.appended.flatten := by
  rw [stream.accepted,stream.appended,List.append_nil,stream.front_written,List.flatten_append]

theorem Stream.accepted_prefix {front back : List EspconnBuf} {carry : Nat} (stream : Stream s front back carry lost) :
    s.accepted <+: s.appended.flatten := by
  rw [stream.accepted,stream.appended,List.flatten_append,List.prefix_append_right_inj,List.map_append,List.map_append,
    stream.front_written,List.flatten_append,List.flatten_append,List.prefix_append_right_inj]
  cases back with
  | nil => exact List.prefix_refl _
  | cons b rest =>
    have none := Stream.none_ahead stream.untouched
    rw [List.tail_cons] at none
    rw [List.map_cons,List.map_cons,List.flatten_cons,List.flatten_cons,none,List.append_nil]
    exact (List.take_prefix _ _).trans (List.prefix_append _ _)

theorem runs_whole (contract : L.Contract) {heap : Heap EspconnBuf} {num : UInt8} {copy callback : Bool} (quiet : L.unacked pcb = 0)
    (path : Runs SendStep (Sender.start heap pcb num copy callback) events s) : ∃ lost, Whole lost s := by
  refine Runs.keeps (I := fun s => ∃ lost, Whole lost s) path ⟨0,.start heap num copy callback quiet⟩ ?_
  intro s event next ⟨lost,whole⟩ step
  obtain ⟨lost',after,_⟩ := whole.step contract step
  exact ⟨lost',after⟩

-- The buffers taken out of the list are those whose last byte is acknowledged,
-- and the callback was called for each of them.
structure Exact (s : Sender L) : Prop where
  linked : ∃ cells, Chain s.heap s.pbuf cells ∧ s.appended = s.removed ++ cells.map fun c => (s.heap.pnode c).payload
  covered : ∀ k < s.appended.length, k < s.removed.length ↔ (s.appended.take (k + 1)).flatten.length ≤ s.reported
  called : s.sentCallback = true → s.called = s.removed.map fun payload => UInt16.ofNat payload.length

theorem Whole.exact (whole : Whole 0 s) : Exact s := by
  obtain ⟨stable,front,back,stream,_⟩ := whole
  have counted := stream.counted
  refine ⟨?_,fun k inside => ⟨fun gone => ?_,fun all => ?_⟩,stream.called⟩
  · obtain ⟨behind,ahead,chain,_,before,after⟩ := stream.lined
    refine ⟨_,chain,?_⟩
    have row : (behind ++ ahead).map s.heap.pnode = front ++ back := by rw [List.map_append,before,after]
    have payloads : (behind ++ ahead).map (fun c => (s.heap.pnode c).payload) = (front ++ back).map EspconnBuf.payload := by
      rw [←row,List.map_map]
      rfl
    rw [payloads]
    exact stream.appended
  · have gone : k + 1 ≤ s.removed.length := gone
    rw [stream.appended,List.take_append_of_le_length gone]
    have part := (List.take_prefix (k + 1) s.removed).sublist.flatten.length_le
    omega
  · refine Nat.lt_of_not_le fun beyond => ?_
    obtain ⟨more,equal⟩ := Nat.exists_eq_add_of_le beyond
    have appended := stream.appended
    cases payloads : (front ++ back).map EspconnBuf.payload with
    | nil =>
      rw [appended,payloads,List.append_nil] at inside
      omega
    | cons payload rest =>
      rw [payloads] at appended
      have waits := stable payload rest appended
      have length : (s.appended.take (k + 1)).flatten.length = s.removed.flatten.length + payload.length + (rest.take more).flatten.length := by
        rw [appended,equal,Nat.add_assoc,List.take_length_add_append,List.take_succ_cons,List.flatten_append,List.flatten_cons,
          List.length_append,List.length_append,Nat.add_assoc]
      omega

theorem Whole.inexact (whole : Whole lost s) (wrapped : 65536 ≤ lost) : ¬Exact s := by
  intro exact_
  obtain ⟨_,front,back,stream,_⟩ := whole
  have counted := stream.counted
  have appended := stream.appended
  cases row : front ++ back with
  | nil =>
    have none := (stream.none_left row).2.1
    omega
  | cons b rest =>
    rw [row,List.map_cons] at appended
    have shaped := stream.shaped b (by rw [row]; exact List.mem_cons_self ..)
    have small := b.len.toNat_lt
    rw [shaped.len] at small
    have inside : s.removed.length < s.appended.length := by
      rw [appended,List.length_append,List.length_cons]
      omega
    have first : (s.appended.take (s.removed.length + 1)).flatten.length = s.removed.flatten.length + b.payload.length := by
      rw [appended,List.take_length_add_append,List.take_succ_cons,List.take_zero,List.flatten_append,List.flatten_singleton,List.length_append]
    have gone := (exact_.covered _ inside).mpr (by omega)
    exact Nat.lt_irrefl _ gone

def GentleSendStep (s : Sender L) (event : Sending L) (t : Sender L) : Prop := Gentle s event ∧ SendStep s event t

theorem runs_uncounted (contract : L.Contract) {heap : Heap EspconnBuf} {num : UInt8} {copy callback : Bool} (quiet : L.unacked pcb = 0)
    (path : Runs GentleSendStep (Sender.start heap pcb num copy callback) events s) : Whole 0 s := by
  refine path.keeps (.start heap num copy callback quiet) fun whole step => ?_
  obtain ⟨lost,after,kept,_⟩ := whole.step contract step.2
  exact kept step.1 ▸ after

theorem Whole.count (whole : Whole lost s) {b : EspconnBuf} (node : s.heap.node s.pbuf = some b) :
    s.removed.flatten.length + b.totLen.toNat + lost = s.reported := by
  obtain ⟨_,front,back,stream,_⟩ := whole
  have counted := stream.counted
  cases row : front ++ back with
  | nil =>
    obtain ⟨rfl,rfl⟩ := List.append_eq_nil_iff.mp row
    rw [stream.lined.none] at node
    cases node
  | cons c rest =>
    obtain ⟨_,here,_⟩ := stream.lined.head row c
    cases Option.some.inj (here.symm.trans node)
    rw [row] at counted
    exact counted

end Steps

-- An lwIP that takes whatever its send buffer of two segments has room for. Its
-- pcb is the number of bytes that are not acknowledged.
def plainWrite (pcb : Nat) (data : List UInt8) : Nat × Int :=
  if data.length ≤ 2920 - pcb then (pcb + data.length,errOk) else (pcb,errMem)

def plainLwip : Lwip where
  Pcb := Nat
  tcpSndBuf := 2920
  tcpSndbuf pcb := UInt16.ofNat (2920 - pcb)
  sndQueuelen pcb := (pcb + 1459) / 1460
  mss _ := 1460
  tcpNagleDisabled _ := false
  tcpWrite pcb data _ := plainWrite pcb data
  tcpOutput pcb := (pcb,errOk)
  unacked pcb := pcb

namespace plainLwip
variable {pcb : Nat} {data : List UInt8}

theorem write_room (room : data.length ≤ 2920 - pcb) : plainWrite pcb data = (pcb + data.length,errOk) := if_pos room
theorem write_full (full : ¬data.length ≤ 2920 - pcb) : plainWrite pcb data = (pcb,errMem) := if_neg full

theorem queues_all (ok : (plainWrite pcb data).2 = errOk) : (plainWrite pcb data).1 = pcb + data.length := by
  by_cases room : data.length ≤ 2920 - pcb
  · rw [write_room room]
  · rw [write_full room] at ok
    have ok : errMem = errOk := ok
    exact absurd ok (by decide)

theorem queues_none (bad : (plainWrite pcb data).2 ≠ errOk) : (plainWrite pcb data).1 = pcb := by
  by_cases room : data.length ≤ 2920 - pcb
  · rw [write_room room] at bad
    exact absurd rfl bad
  · rw [write_full room]

theorem sndbuf (pcb : Nat) : (UInt16.ofNat (2920 - pcb)).toNat = 2920 - pcb :=
  UInt16.toNat_ofNat_of_lt' (by omega : 2920 - pcb < 65536)

theorem contract : plainLwip.Contract where
  mss_positive _ := Nat.zero_lt_succ 1459
  queues_all _ _ _ ok := queues_all ok
  queues_none _ _ _ bad := queues_none bad
  output_queues_none _ := rfl
  room pcb quiet := by
    obtain rfl : pcb = Nat.zero := quiet
    exact ⟨by decide,by decide⟩

theorem not_short : ¬plainLwip.Short := by
  rintro ⟨pcb,⟨closed,less⟩ | ⟨nagle,_⟩ | ⟨data,copy,room,refused⟩ | bad⟩
  · have left : (plainLwip.tcpSndbuf pcb).toNat = Nat.sub 2920 pcb := sndbuf pcb
    rw [closed] at left
    exact absurd (Nat.sub_eq_zero_iff_le.mp left.symm) (Nat.not_le_of_lt less)
  · exact Bool.false_ne_true nagle
  · have left : (plainLwip.tcpSndbuf pcb).toNat = Nat.sub 2920 pcb := sndbuf pcb
    rw [left] at room
    exact refused (congrArg Prod.snd (write_room room))
  · exact bad rfl

end plainLwip

theorem roomy_fresh {p : Ptr} (real : p ≠ null) (h : Heap EspconnBuf) (q : Ptr)
    (given : (if h.live p = true then none else some p) = some q) : h.Fresh q := by
  by_cases live : h.live p = true
  · rw [if_pos live] at given
    cases given
  · rw [if_neg live] at given
    cases given
    exact ⟨real,Bool.eq_false_iff.mpr live⟩

def zeros : List UInt8 := List.replicate 65535 0

theorem zeros_length : zeros.length = 65535 := List.length_replicate

def sendZeros (p : Ptr) (real : p ≠ null) : Request where
  psent := some zeros
  small _ given := by
    cases given
    rw [zeros_length]
    decide
  found := true
  osZalloc h := if h.live p = true then none else some p
  fresh := roomy_fresh real

def zerosStart : Sender plainLwip := .start ⟨fun _ => null,fun _ => ⟨[],[],0,0,0⟩,fun _ => false⟩ Nat.zero 8 false true

structure Acknowledging (acks : Nat) (s : Sender plainLwip) : Prop where
  whole : Whole 0 s
  appended : [zeros,zeros] <+: s.appended
  reported : s.reported = 2920 * acks

namespace Acknowledging
variable {s : Sender plainLwip} {acks : Nat}

theorem full (going : Acknowledging acks s) (early : acks ≤ 22) : 2920 ≤ plainLwip.unacked s.pcb := by
  obtain ⟨_,front,back,stream,settled⟩ := going.whole
  have unreported := stream.unreported
  have reported := going.reported
  cases back with
  | nil =>
    have all := going.appended.sublist.flatten.length_le
    rw [←stream.all_accepted,List.flatten_cons,List.flatten_singleton,List.length_append,zeros_length] at all
    omega
  | cons b rest =>
    rcases settled b rest rfl with ⟨most,_⟩ | ⟨short,_⟩
    · exact most
    · exact absurd short plainLwip.not_short

theorem none_removed (going : Acknowledging acks s) (early : acks ≤ 22) : s.removed = [] := by
  obtain ⟨more,appended⟩ := going.appended
  have reported := going.reported
  have inside : 0 < s.appended.length := by
    rw [←appended]
    exact Nat.succ_pos _
  have covered := going.whole.exact.covered 0 inside
  rw [←appended,List.cons_append,List.take_succ_cons,List.take_zero,List.flatten_singleton,zeros_length] at covered
  refine List.eq_nil_of_length_eq_zero (Nat.eq_zero_of_not_pos fun some_ => ?_)
  have all := covered.mp some_
  omega

theorem next (going : Acknowledging acks s) (early : acks ≤ 22) :
    (∀ b, s.heap.node s.pbuf = some b → b.totLen.toNat = 2920 * acks) ∧
    ∃ t, SendStep s (.clientSent (Nat.sub s.pcb 2920) 2920 fun _ => []) t ∧ s.appended <+: t.appended ∧ t.reported = 2920 * (acks + 1) := by
  refine ⟨fun b node => ?_,?_⟩
  · have count := going.whole.count node
    rw [going.none_removed early,going.reported] at count
    change 0 + b.totLen.toNat + 0 = _ at count
    omega
  · have held := going.full early
    have acks_ : plainLwip.unacked (Nat.sub s.pcb 2920) + (2920 : UInt16).toNat = plainLwip.unacked s.pcb := Nat.sub_add_cancel held
    obtain ⟨_,_,_,t,⟨appended,reported,_,_⟩,ends⟩ :=
      going.whole.acknowledged plainLwip.contract (fun _ => []) (by decide) acks_
    refine ⟨t,.clientSent (by decide) acks_ ends,appended,?_⟩
    rw [reported,going.reported]
    rfl

end Acknowledging

def Moderate {L : Lwip} (events : List (Sending L)) : Prop :=
  ∀ pcb len script, Sending.clientSent pcb len script ∈ events ∨ Sending.serverSent pcb len script ∈ events → len.toNat ≤ L.tcpSndBuf

theorem Moderate.snoc {L : Lwip} {events : List (Sending L)} {len : UInt16} (moderate : Moderate events) (pcb : L.Pcb)
    (script : Nat → List Act) (small : len.toNat ≤ L.tcpSndBuf) : Moderate (events ++ [.clientSent pcb len script]) := by
  intro pcb' len' script' sent
  rw [List.mem_append,List.mem_append,List.mem_singleton,List.mem_singleton] at sent
  rcases sent with (before | last) | (before | last)
  · exact moderate pcb' len' script' (Or.inl before)
  · rw [(Sending.clientSent.inj last).2.1]
    exact small
  · exact moderate pcb' len' script' (Or.inr before)
  · cases last

theorem zeros_begun : ∃ s, Runs GentleSendStep zerosStart
    [.act (.sent (sendZeros 1 (by decide))),.act (.sent (sendZeros 2 (by decide)))] s ∧ Acknowledging 0 s := by
  have some_ : UInt16.ofNat zeros.length ≠ 0 := by
    rw [zeros_length]
    decide
  have whole : Whole 0 zerosStart := .start _ 8 false true rfl
  obtain ⟨_,front,back,stream,_⟩ := id whole
  have empty : front ++ back = [] := List.map_eq_nil_iff.mp stream.appended.symm
  obtain ⟨⟨t,_⟩,⟨appended,onward,_⟩,ends⟩ := stream.sent_accepted plainLwip.contract rfl rfl
    (by rw [empty]; decide : UInt8.ofNat (front ++ back).length < 8) (r := sendZeros 1 (by decide)) rfl some_ rfl rfl
  have obeyed : Ends (fun turns => zerosStart.obey turns (.sent (sendZeros 1 (by decide)))) t := ends.map Prod.fst
  have first := SendStep.act obeyed
  have whole := ((whole.obey plainLwip.contract _).holds obeyed).2
  obtain ⟨_,front,back,stream,_⟩ := id whole
  have one : (front ++ back).length ≤ 1 := by
    have payloads := stream.appended
    rw [appended.appended] at payloads
    have length := congrArg List.length payloads
    rw [List.length_append,List.length_append,List.length_map] at length
    change 0 + 1 = t.removed.length + (front ++ back).length at length
    omega
  have fewer : UInt8.ofNat (front ++ back).length < t.pbufNum := by
    rw [appended.pbufNum]
    generalize (front ++ back).length = n at one
    obtain rfl | rfl : n = 0 ∨ n = 1 := by omega
    · decide
    · decide
  have given : (sendZeros 2 (by decide)).osZalloc t.heap = some 2 := by
    change (if t.heap.live 2 = true then none else some 2) = some 2
    rw [appended.live]
    rfl
  obtain ⟨⟨u,_⟩,⟨again,further,_⟩,ends⟩ := stream.sent_accepted plainLwip.contract (appended.copyDisabled.trans rfl)
    ((appended.writeFlag rfl).trans rfl) fewer (r := sendZeros 2 (by decide)) rfl some_ rfl given
  have obeyed : Ends (fun turns => t.obey turns (.sent (sendZeros 2 (by decide)))) u := ends.map Prod.fst
  have second := SendStep.act obeyed
  refine ⟨u,(Runs.single ⟨trivial,first⟩).step ⟨trivial,second⟩,?_,?_,?_⟩
  · exact ((whole.obey plainLwip.contract _).holds obeyed).2
  · rw [again.appended,appended.appended]
    exact List.prefix_refl _
  · exact further.reported.trans onward.reported

theorem zeros_acknowledged (acks : Nat) (early : acks ≤ 22) : ∃ events s,
    Runs GentleSendStep zerosStart events s ∧ Acknowledging acks s ∧ Moderate events := by
  induction acks with
  | zero =>
    obtain ⟨s,path,going⟩ := zeros_begun
    refine ⟨_,s,path,going,fun pcb len script sent => ?_⟩
    simp at sent
  | succ acks ih =>
    obtain ⟨events,s,path,going,moderate⟩ := ih (Nat.le_of_succ_le early)
    obtain ⟨counted,t,step,appended,reported⟩ := going.next (Nat.le_of_succ_le early)
    have gentle : Fits s 2920 := by
      intro b node
      rw [counted b node]
      change 2920 * acks + 2920 < 65536
      omega
    have move : GentleSendStep s (.clientSent (Nat.sub s.pcb 2920) 2920 fun _ => []) t := ⟨gentle,step⟩
    have path := path.step move
    exact ⟨_,t,path,⟨runs_uncounted plainLwip.contract rfl path,going.appended.trans appended,reported⟩,
      moderate.snoc _ _ (Nat.le_refl 2920)⟩

-- The counter of a full buffer is at 64240 when the acknowledgement comes that
-- covers its end.
theorem zeros_wrapped : ∃ events s, Runs SendStep zerosStart events s ∧ Moderate events ∧ ¬Exact s := by
  obtain ⟨events,s,path,going,moderate⟩ := zeros_acknowledged 22 (Nat.le_refl _)
  obtain ⟨counted,t,step,_⟩ := going.next (Nat.le_refl _)
  have there : ∃ b, s.heap.node s.pbuf = some b := by
    obtain ⟨_,front,back,stream,_⟩ := going.whole
    obtain ⟨more,appended⟩ := going.appended
    have payloads := stream.appended
    rw [going.none_removed (Nat.le_refl _),←appended] at payloads
    obtain ⟨b,rest,row,_⟩ := List.map_eq_cons_iff.mp payloads.symm
    exact ⟨b,(stream.lined.head row b).2.1⟩
  have harsh : ¬Fits s 2920 := by
    obtain ⟨b,node⟩ := there
    intro fits
    have fits := fits b node
    rw [counted b node] at fits
    exact absurd fits (by decide)
  obtain ⟨lost,after,_,grown⟩ := going.whole.step plainLwip.contract step
  have wrapped : 65536 ≤ lost := Nat.le_of_eq (grown harsh).symm
  exact ⟨_,t,(path.mono fun step => step.2).step step,moderate.snoc _ _ (Nat.le_refl 2920),after.inexact wrapped⟩

section Runs
variable {L : Lwip} {s : Sender L} {events : List (Sending L)} {pcb : L.Pcb} {heap : Heap EspconnBuf} {num : UInt8} {copy callback : Bool}

-- What tcp_write took is a prefix of the payloads in the order in which they were
-- appended, the cursor is at a buffer of the list or at none, and every call and
-- acknowledgement is worked off.
theorem stream_intact (contract : L.Contract) (quiet : L.unacked pcb = 0)
    (path : Runs SendStep (Sender.start heap pcb num copy callback) events s) :
    s.accepted <+: s.appended.flatten ∧ (s.ptail = null ∨ ∃ cells, Chain s.heap s.pbuf cells ∧ s.ptail ∈ cells) ∧
    (∀ act, ∃ t, SendStep s (.act act) t) ∧
    ∀ pcb len script, 0 < len.toNat → L.unacked pcb + len.toNat = L.unacked s.pcb →
      (∃ t, SendStep s (.clientSent pcb len script) t) ∧ ∃ t, SendStep s (.serverSent pcb len script) t := by
  obtain ⟨lost,whole⟩ := runs_whole contract quiet path
  have onward := whole.goes_on contract
  obtain ⟨_,front,back,stream,_⟩ := whole
  exact ⟨stream.accepted_prefix,stream.lined.member,onward⟩

theorem stream_intact_zeros : ∃ events s, Runs SendStep zerosStart events s ∧ s.reported = 64240 ∧ s.accepted <+: s.appended.flatten := by
  obtain ⟨events,s,path,going,_⟩ := zeros_acknowledged 22 (Nat.le_refl _)
  have path := path.mono fun step => step.2
  exact ⟨events,s,path,going.reported,(stream_intact plainLwip.contract rfl path).1⟩

-- As long as the counter of the first buffer does not wrap, the callbacks are
-- right, and the first acknowledgement with which it wraps makes them wrong.
theorem callbacks_exact (contract : L.Contract) (quiet : L.unacked pcb = 0)
    (path : Runs GentleSendStep (Sender.start heap pcb num copy callback) events s) :
    Exact s ∧ ∀ event t, SendStep s event t → (Exact t ↔ Gentle s event) := by
  have whole := runs_uncounted contract quiet path
  refine ⟨whole.exact,fun event t step => ?_⟩
  obtain ⟨lost,after,kept,grown⟩ := whole.step contract step
  by_cases gentle : Gentle s event
  · rw [kept gentle] at after
    exact ⟨fun _ => gentle,fun _ => after.exact⟩
  · have wrapped : 65536 ≤ lost := Nat.le_of_eq (grown gentle).symm
    exact ⟨fun exact_ => absurd exact_ (after.inexact wrapped),fun yes => absurd yes gentle⟩

theorem callbacks_exact_zeros : ∃ events s, Runs GentleSendStep zerosStart events s ∧ s.reported = 64240 ∧ Exact s := by
  obtain ⟨events,s,path,going,_⟩ := zeros_acknowledged 22 (Nat.le_refl _)
  exact ⟨events,s,path,going.reported,(callbacks_exact plainLwip.contract rfl path).1⟩

theorem callbacks_inexact : ¬∀ (L : Lwip), L.Contract → ∀ (heap : Heap EspconnBuf) (pcb : L.Pcb) num copy callback events s,
    L.unacked pcb = 0 → Runs SendStep (Sender.start heap pcb num copy callback) events s → Moderate events → Exact s := by
  intro claim
  obtain ⟨events,s,path,moderate,wrong⟩ := zeros_wrapped
  exact wrong (claim plainLwip plainLwip.contract _ Nat.zero 8 false true events s rfl path moderate)

end Runs

end NonosLinkLayer.Espconn
