import NonosLinkLayer.Espconn.Sending

-- The buffers of a connection as two lists: those in front of the cursor
-- ptail, which are written, and those from it on.
namespace NonosLinkLayer.Espconn
open HeapList Turns

namespace EspconnBuf
variable {b : EspconnBuf}

def written (b : EspconnBuf) : List UInt8 := b.payload.take (b.payload.length - b.punsent.length)

structure Shaped (b : EspconnBuf) : Prop where
  nonempty : b.payload ≠ []
  len : b.len.toNat = b.payload.length
  unsent : b.unsent.toNat = b.punsent.length
  rest : b.written ++ b.punsent = b.payload

def wrote (b : EspconnBuf) (n : UInt16) : EspconnBuf := {b with punsent := b.punsent.drop n.toNat,unsent := b.unsent - n}

namespace Shaped

theorem unsent_zero (shaped : b.Shaped) : b.unsent = 0 ↔ b.punsent = [] := by
  rw [←List.length_eq_zero_iff,←shaped.unsent]
  exact UInt16.toNat_inj.symm

theorem wrote_written (shaped : b.Shaped) {n : UInt16} (within : n.toNat ≤ b.punsent.length) :
    (b.wrote n).written = b.written ++ b.punsent.take n.toNat := by
  have lengths := congrArg List.length shaped.rest
  rw [List.length_append] at lengths
  have whole : b.payload = (b.written ++ b.punsent.take n.toNat) ++ b.punsent.drop n.toNat := by
    rw [List.append_assoc,List.take_append_drop,shaped.rest]
  have place : b.payload.length - (b.punsent.drop n.toNat).length = (b.written ++ b.punsent.take n.toNat).length := by
    rw [List.length_drop,List.length_append,List.length_take,Nat.min_eq_left within]
    omega
  change b.payload.take (b.payload.length - (b.punsent.drop n.toNat).length) = _
  rw [place]
  exact (congrArg (List.take _) whole).trans List.take_left

theorem wrote (shaped : b.Shaped) {n : UInt16} (within : n.toNat ≤ b.punsent.length) : (b.wrote n).Shaped := by
  refine ⟨shaped.nonempty,shaped.len,?_,?_⟩
  · change (b.unsent - n).toNat = (b.punsent.drop n.toNat).length
    rw [List.length_drop,←shaped.unsent]
    exact UInt16.toNat_sub_of_le _ _ (UInt16.le_iff_toNat_le.mpr (shaped.unsent ▸ within))
  · rw [shaped.wrote_written within]
    change _ ++ b.punsent.drop n.toNat = b.payload
    rw [List.append_assoc,List.take_append_drop,shaped.rest]

theorem all_written (shaped : b.Shaped) (done : b.punsent = []) : b.written = b.payload := by
  have rest := shaped.rest
  rwa [done,List.append_nil] at rest

end Shaped

theorem none_written (untouched : b.punsent = b.payload) : b.written = [] := by
  rw [written,untouched,Nat.sub_self,List.take_zero]

end EspconnBuf

def Lined (h : Heap EspconnBuf) (pbuf ptail : Ptr) (front back : List EspconnBuf) : Prop :=
  ∃ behind ahead, Chain h pbuf (behind ++ ahead) ∧ ptail = ahead.headD null ∧ behind.map h.pnode = front ∧ ahead.map h.pnode = back

namespace Lined
variable {h : Heap EspconnBuf} {pbuf ptail p : Ptr} {front back rest : List EspconnBuf} {b c : EspconnBuf}

theorem ended (lined : Lined h pbuf ptail front []) : ptail = null := by
  obtain ⟨behind,ahead,_,tail,_,none⟩ := lined
  rw [List.map_eq_nil_iff.mp none] at tail
  exact tail

theorem member (lined : Lined h pbuf ptail front back) : ptail = null ∨ ∃ cells, Chain h pbuf cells ∧ ptail ∈ cells := by
  obtain ⟨behind,ahead,chain,rfl,_,_⟩ := lined
  cases ahead with
  | nil => exact Or.inl rfl
  | cons c rest => exact Or.inr ⟨_,chain,by simp⟩

theorem map_stored (chain : Chain h p (behind ++ x :: ahead)) (c : EspconnBuf) :
    behind.map (h.stored x c).pnode = behind.map h.pnode ∧ ahead.map (h.stored x c).pnode = ahead.map h.pnode ∧
      (h.stored x c).pnode x = c := by
  obtain ⟨offBehind,offAhead⟩ := chain.foreign_split
  exact ⟨map_untouched _ offBehind c,map_untouched _ offAhead c,Function.update_self ..⟩

theorem here (lined : Lined h pbuf ptail front (b :: back)) : ptail ≠ null ∧ h.node ptail = some b ∧
    (∃ q, h.next ptail = some q ∧ Lined h pbuf q (front ++ [b]) back) ∧
    ∀ c, ∃ next, h.store ptail c = some next ∧ next.live = h.live ∧ Lined next pbuf ptail front (c :: back) := by
  obtain ⟨behind,ahead,chain,tail,before,after⟩ := lined
  obtain ⟨x,ahead,rfl,rfl,rest⟩ := List.map_eq_cons_iff.mp after
  obtain rfl : ptail = x := tail
  have node : h.Node ptail := chain.node (by simp)
  refine ⟨node.1,node.node,⟨_,node.next,behind ++ [ptail],ahead,?_,chain.next_ahead,?_,rest⟩,fun c => ?_⟩
  · rwa [List.append_assoc]
  · rw [List.map_append,before]
    rfl
  · obtain ⟨same,same',new⟩ := map_stored chain c
    refine ⟨_,node.store c,rfl,behind,ptail :: ahead,chain.stored ptail c,rfl,same.trans before,?_⟩
    rw [List.map_cons,new,same',rest]

theorem head (lined : Lined h pbuf ptail front back) (row : front ++ back = b :: rest) (c : EspconnBuf) :
    pbuf ≠ null ∧ h.node pbuf = some b ∧ ∃ next, h.store pbuf c = some next ∧
      ((∃ others, front = b :: others ∧ Lined next pbuf ptail (c :: others) back) ∨
        front = [] ∧ back = b :: rest ∧ Lined next pbuf ptail [] (c :: rest)) := by
  cases front with
  | nil =>
    obtain rfl : back = b :: rest := row
    have start : pbuf = ptail := by
      obtain ⟨behind,ahead,chain,tail,none,_⟩ := lined
      rw [List.map_eq_nil_iff.mp none] at chain
      exact chain.start.trans tail.symm
    obtain ⟨real,node,_,store⟩ := lined.here
    obtain ⟨next,stored,_,after⟩ := store c
    exact ⟨start ▸ real,start ▸ node,next,start ▸ stored,Or.inr ⟨rfl,rfl,after⟩⟩
  | cons d others =>
    obtain ⟨rfl,rfl⟩ := List.cons_eq_cons.mp row
    obtain ⟨behind,ahead,chain,tail,before,after⟩ := lined
    obtain ⟨x,behind,rfl,rfl,same⟩ := List.map_eq_cons_iff.mp before
    have node : h.Node pbuf := chain.start ▸ chain.node (List.mem_cons_self ..)
    obtain rfl : pbuf = x := chain.start
    have split : Chain h pbuf ([] ++ pbuf :: (behind ++ ahead)) := chain
    obtain ⟨_,kept,new⟩ := map_stored split c
    rw [List.map_append,List.map_append] at kept
    obtain ⟨one,two⟩ := List.append_inj kept (by rw [List.length_map,List.length_map])
    refine ⟨node.1,node.node,_,node.store c,Or.inl ⟨others,rfl,pbuf :: behind,ahead,chain.stored pbuf c,tail,?_,two.trans after⟩⟩
    rw [List.map_cons,new,one,same]

theorem removed (lined : Lined h pbuf ptail (b :: front) back) : ∃ head next last,
    Ends (fun turns => deleteNode turns h pbuf pbuf) (next,head) ∧ next.free pbuf = some last ∧ Lined last head ptail front back := by
  obtain ⟨behind,ahead,chain,tail,before,after⟩ := lined
  obtain ⟨x,behind,rfl,_,same⟩ := List.map_eq_cons_iff.mp before
  obtain rfl : pbuf = x := chain.start
  have split : Chain h pbuf ([] ++ pbuf :: (behind ++ ahead)) := chain
  have node := chain.node (List.mem_cons_self ..)
  obtain ⟨next,deleted,short,nodes,live⟩ := split.deleteNode
  have still : next.Node pbuf := ⟨node.1,(congrFun live pbuf).trans node.2⟩
  refine ⟨_,next,_,deleted,still.free,behind,ahead,short.freed split.foreign_split.2,tail,?_,?_⟩
  · rw [Heap.freed_pnode,nodes,same]
  · rw [Heap.freed_pnode,nodes,after]

theorem appended (lined : Lined h pbuf ptail front back) (fresh : h.Fresh p) (b : EspconnBuf) : ∃ next head,
    Ends (fun turns => appendNode turns (h.alloc p b) pbuf p) (next,head) ∧ next.live = (h.alloc p b).live ∧
      Lined next head (if ptail = null then p else ptail) front (back ++ [b]) := by
  obtain ⟨behind,ahead,chain,tail,before,after⟩ := lined
  obtain ⟨foreign,kept⟩ := chain.alloc fresh b
  have offBehind : p ∉ behind := fun member => foreign (List.mem_append_left _ member)
  have offAhead : p ∉ ahead := fun member => foreign (List.mem_append_right _ member)
  have node : (h.alloc p b).Node p := ⟨fresh.1,Function.update_self ..⟩
  obtain ⟨next,done,longer,nodes,live⟩ := kept.appendNode node foreign
  rw [List.append_assoc] at done longer
  refine ⟨next,_,done,live,behind,ahead ++ [p],longer,?_,?_,?_⟩
  · cases ahead with
    | nil => exact if_pos tail
    | cons c rest => exact (if_neg (tail ▸ (chain.node (by simp)).1)).trans tail
  · rw [nodes,←before]
    exact map_untouched _ offBehind b
  · rw [nodes,List.map_append,←after]
    have old : ahead.map (h.alloc p b).pnode = ahead.map h.pnode := map_untouched _ offAhead b
    have new : (h.alloc p b).pnode p = b := Function.update_self ..
    rw [old,List.map_singleton,new]

theorem length (lined : Lined h pbuf ptail front back) : Ends (fun turns => countNodes h turns pbuf) (front ++ back).length := by
  obtain ⟨behind,ahead,chain,_,rfl,rfl⟩ := lined
  rw [←List.map_append,List.length_map]
  exact chain.countNodes

end Lined

def acked : List EspconnBuf → Nat
  | [] => 0
  | b :: _ => b.totLen.toNat

-- Of the bytes acknowledged, `carry` are on the way from a removed buffer to
-- the next one, and `lost` no buffer has counted.
structure Stream {L : Lwip} (s : Sender L) (front back : List EspconnBuf) (carry lost : Nat) : Prop where
  lined : Lined s.heap s.pbuf s.ptail front back
  shaped : ∀ b ∈ front ++ back, b.Shaped
  done : ∀ b ∈ front, b.punsent = []
  untouched : ∀ b ∈ back.tail, b.punsent = b.payload
  fresh : ∀ b ∈ (front ++ back).tail, b.totLen = 0
  appended : s.appended = s.removed ++ (front ++ back).map EspconnBuf.payload
  accepted : s.accepted = s.removed.flatten ++ ((front ++ back).map EspconnBuf.written).flatten
  counted : s.removed.flatten.length + acked (front ++ back) + carry + lost = s.reported
  unreported : s.accepted.length = s.reported + L.unacked s.pcb
  called : s.sentCallback = true → s.called = s.removed.map fun payload => UInt16.ofNat payload.length

def Lwip.Short (L : Lwip) : Prop :=
  ∃ pcb, L.tcpSndbuf pcb = 0 ∧ L.unacked pcb < L.tcpSndBuf ∨
    L.tcpNagleDisabled pcb = true ∧ L.sndQueuelen pcb ≥ tcpSndQueuelen ∨
    (∃ data copy, data.length ≤ (L.tcpSndbuf pcb).toNat ∧ (L.tcpWrite pcb data copy).2 ≠ errOk) ∨ (L.tcpOutput pcb).2 ≠ errOk

-- Writing has got as far as it can: what is not acknowledged fills the send
-- buffer, or lwIP is short, and then the cursor is at a buffer that has something
-- left, or something is still to be acknowledged.
def Settled {L : Lwip} (s : Sender L) (back : List EspconnBuf) : Prop :=
  ∀ b rest, back = b :: rest → L.tcpSndBuf ≤ L.unacked s.pcb ∧ 0 < L.unacked s.pcb ∨
    L.Short ∧ (b.unsent ≠ 0 ∨ 0 < L.unacked s.pcb)

structure Wrote {L : Lwip} (s t : Sender L) : Prop where
  live : t.heap.live = s.heap.live
  appended : t.appended = s.appended
  removed : t.removed = s.removed
  called : t.called = s.called
  reported : t.reported = s.reported
  sentCallback : t.sentCallback = s.sentCallback
  pbufNum : t.pbufNum = s.pbufNum
  copyDisabled : t.copyDisabled = s.copyDisabled
  writeFlag : s.copyDisabled = false → t.writeFlag = s.writeFlag

structure Onward {L : Lwip} (s t : Sender L) : Prop where
  appended : s.appended <+: t.appended
  removed : t.removed = s.removed
  called : t.called = s.called
  reported : t.reported = s.reported
  sentCallback : t.sentCallback = s.sentCallback

section Frames
variable {L : Lwip} {s t u : Sender L}

theorem Wrote.refl (s : Sender L) : Wrote s s := ⟨rfl,rfl,rfl,rfl,rfl,rfl,rfl,rfl,fun _ => rfl⟩

theorem Wrote.trans (one : Wrote s t) (two : Wrote t u) : Wrote s u :=
  ⟨two.live.trans one.live,two.appended.trans one.appended,two.removed.trans one.removed,two.called.trans one.called,
    two.reported.trans one.reported,two.sentCallback.trans one.sentCallback,two.pbufNum.trans one.pbufNum,two.copyDisabled.trans one.copyDisabled,
    fun copied => (two.writeFlag (one.copyDisabled.trans copied)).trans (one.writeFlag copied)⟩

theorem Wrote.onward (wrote : Wrote s t) : Onward s t :=
  ⟨wrote.appended ▸ List.prefix_refl _,wrote.removed,wrote.called,wrote.reported,wrote.sentCallback⟩

theorem Onward.refl (s : Sender L) : Onward s s := (Wrote.refl s).onward

theorem Onward.trans (one : Onward s t) (two : Onward t u) : Onward s u :=
  ⟨one.appended.trans two.appended,two.removed.trans one.removed,two.called.trans one.called,two.reported.trans one.reported,
    two.sentCallback.trans one.sentCallback⟩

end Frames

section Lwip
variable {L : Lwip} {copy : Bool} {psent : List UInt8} {pcb : L.Pcb} {len : UInt16}

def Taken (L : Lwip) (pcb : L.Pcb) (len : UInt16) : L.Pcb × UInt16 × Int → Prop
  | (next,n,err) => (err = errOk → 0 < n.toNat ∧ n ≤ len ∧ L.unacked next = L.unacked pcb + n.toNat) ∧
      (err ≠ errOk → L.unacked next = L.unacked pcb ∧ (len ≤ L.tcpSndbuf pcb → L.Short))

theorem retryLoop_turn {next : L.Pcb} {err : Int} (result : L.tcpWrite pcb (psent.take len.toNat) copy = (next,err)) (turns : Nat) :
    Sender.retryLoop L copy psent (turns + 1) pcb len =
      if err = errMem then
        if (if len < 3 then len - 1 else len / 2) > 0 then Sender.retryLoop L copy psent turns next (if len < 3 then len - 1 else len / 2)
        else some (next,if len < 3 then len - 1 else len / 2,err)
      else some (next,len,err) := by
  rw [Sender.retryLoop,result]

theorem halved_less (positive : 0 < len.toNat) : (if len < 3 then len - 1 else len / 2).toNat < len.toNat := by
  split
  · have one : (1 : UInt16) ≤ len := UInt16.le_iff_toNat_le.mpr positive
    rw [UInt16.toNat_sub_of_le _ _ one]
    exact Nat.sub_lt positive Nat.one_pos
  · rw [UInt16.toNat_div]
    exact Nat.div_lt_self positive (by decide)

theorem retryLoop_taken (contract : L.Contract) (positive : 0 < len.toNat) (within : len.toNat ≤ psent.length) :
    Yields (fun turns => Sender.retryLoop L copy psent turns pcb len) (Taken L pcb len) := by
  induction size : len.toNat using Nat.strong_induction_on generalizing pcb len with
  | _ n ih =>
    have length : (psent.take len.toNat).length = len.toNat := by rw [List.length_take,Nat.min_eq_left within]
    rcases result : L.tcpWrite pcb (psent.take len.toNat) copy with ⟨next,err⟩
    have kept : err ≠ errOk → L.unacked next = L.unacked pcb := by
      have none := contract.queues_none pcb (psent.take len.toNat) copy
      rwa [result] at none
    have grown : err = errOk → L.unacked next = L.unacked pcb + len.toNat := by
      have all := contract.queues_all pcb (psent.take len.toNat) copy
      rwa [result,length] at all
    have short : err ≠ errOk → len ≤ L.tcpSndbuf pcb → L.Short := by
      intro bad room
      refine ⟨pcb,Or.inr (Or.inr (Or.inl ⟨psent.take len.toNat,copy,?_,?_⟩))⟩
      · rw [length]
        exact UInt16.le_iff_toNat_le.mp room
      · rwa [result]
    refine Yields.turn (retryLoop_turn result) ?_
    by_cases memory : err = errMem
    · have failed : err ≠ errOk := by
        rw [memory]
        decide
      obtain ⟨m,shorter⟩ : ∃ m, m = if len < 3 then len - 1 else len / 2 := ⟨_,rfl⟩
      have less : m.toNat < len.toNat := by
        rw [shorter]
        exact halved_less positive
      simp only [if_pos memory,←shorter]
      by_cases more : m > 0
      · have rest := @ih m.toNat (size ▸ less) next m (UInt16.lt_iff_toNat_lt.mp more) (Nat.le_trans (Nat.le_of_lt less) within) rfl
        simp only [if_pos more]
        refine rest.mono fun ⟨last,k,answer⟩ taken => ⟨fun ok => ?_,fun bad => ⟨(taken.2 bad).1.trans (kept failed),short failed⟩⟩
        obtain ⟨some,most,all⟩ := taken.1 ok
        rw [kept failed] at all
        exact ⟨some,UInt16.le_trans most (UInt16.le_iff_toNat_le.mpr (Nat.le_of_lt less)),all⟩
      · simp only [if_neg more]
        exact .done ⟨fun ok => absurd ok failed,fun bad => ⟨kept bad,short bad⟩⟩
    · simp only [if_neg memory]
      exact .done ⟨fun ok => ⟨positive,UInt16.le_refl _,grown ok⟩,fun bad => ⟨kept bad,short bad⟩⟩

end Lwip

namespace Stream
variable {L : Lwip} {s t : Sender L} {front back rest : List EspconnBuf} {b : EspconnBuf} {carry lost : Nat} {pcb : L.Pcb}

theorem withPcb (stream : Stream s front back carry lost) (same : L.unacked pcb = L.unacked s.pcb) :
    Stream {s with pcb} front back carry lost := {stream with unreported := same ▸ stream.unreported}

theorem none_ahead (untouched : ∀ b ∈ rest, b.punsent = b.payload) : (rest.map EspconnBuf.written).flatten = [] :=
  List.flatten_eq_nil_iff.mpr fun _ member => by
    obtain ⟨b,there,rfl⟩ := List.mem_map.mp member
    exact EspconnBuf.none_written (untouched b there)

theorem wrote (stream : Stream s front (b :: rest) carry lost) {n : UInt16} (within : n.toNat ≤ b.punsent.length)
    {heap : Heap EspconnBuf} (lined : Lined heap s.pbuf s.ptail front (b.wrote n :: rest)) (writeFlag : Bool)
    (grown : L.unacked pcb = L.unacked s.pcb + n.toNat) :
    Stream {s with heap,pcb,writeFlag,accepted := s.accepted ++ b.punsent.take n.toNat} front (b.wrote n :: rest) carry lost := by
  have shaped := stream.shaped b (by simp)
  have fresh := stream.fresh
  have appended := stream.appended
  have accepted := stream.accepted
  have counted := stream.counted
  refine ⟨lined,fun c member => ?_,stream.done,stream.untouched,?_,?_,?_,?_,?_,stream.called⟩
  · rw [List.mem_append,List.mem_cons] at member
    rcases member with before | rfl | after
    · exact stream.shaped c (List.mem_append_left _ before)
    · exact shaped.wrote within
    · exact stream.shaped c (by simp [after])
  · cases front with
    | nil => exact fresh
    | cons d others =>
      intro c member
      rcases List.mem_append.mp member with before | after
      · exact fresh c (List.mem_append_left _ before)
      · rcases List.mem_cons.mp after with rfl | after
        · exact fresh b (by simp)
        · exact fresh c (by simp [after])
  · simpa [EspconnBuf.wrote] using appended
  · change s.accepted ++ _ = _
    have none := none_ahead stream.untouched
    rw [List.tail_cons] at none
    simp only [List.map_append,List.map_cons,List.flatten_append,List.flatten_cons,none,List.append_nil] at accepted ⊢
    rw [accepted,shaped.wrote_written within]
    simp only [List.append_assoc]
  · cases front <;> exact counted
  · change (s.accepted ++ b.punsent.take n.toNat).length = s.reported + L.unacked pcb
    rw [List.length_append,List.length_take,Nat.min_eq_left within,grown,stream.unreported,Nat.add_assoc]

-- What espconn_tcp_sent starts with: of `unsent` bytes what there is room for,
-- and no more than two segments.
theorem chunk_bounds {len room unsent mss : UInt16} (chosen : len = if (if room < unsent then room else unsent).toNat > 2 * mss.toNat
      then UInt16.ofNat (2 * mss.toNat) else if room < unsent then room else unsent)
    (some_ : 0 < unsent) (more : 0 < room) (positive : 0 < mss.toNat) :
    0 < len.toNat ∧ len.toNat ≤ unsent.toNat ∧ len.toNat ≤ room.toNat := by
  have cut : 0 < (if room < unsent then room else unsent).toNat ∧ (if room < unsent then room else unsent).toNat ≤ unsent.toNat ∧
      (if room < unsent then room else unsent).toNat ≤ room.toNat := by
    split
    · rename_i less
      exact ⟨UInt16.lt_iff_toNat_lt.mp more,Nat.le_of_lt (UInt16.lt_iff_toNat_lt.mp less),Nat.le_refl _⟩
    · rename_i more
      exact ⟨UInt16.lt_iff_toNat_lt.mp some_,Nat.le_refl _,UInt16.le_iff_toNat_le.mp (UInt16.not_lt.mp more)⟩
  have small := unsent.toNat_lt
  generalize (if room < unsent then room else unsent) = most at chosen cut
  rw [chosen]
  split
  · rw [UInt16.toNat_ofNat_of_lt' (by omega : 2 * mss.toNat < 65536)]
    omega
  · exact cut

def Sent (s : Sender L) (front : List EspconnBuf) (b : EspconnBuf) (rest : List EspconnBuf) (carry lost : Nat) : Sender L × Int → Prop
  | (t,err) => Wrote s t ∧ ∃ c, Stream t front (c :: rest) carry lost ∧ (err ≠ errOk → L.Short) ∧
      (c.unsent.toNat < b.unsent.toNat ∧ 0 < L.unacked t.pcb ∨ err ≠ errOk ∧ c = b)

theorem tcpSent (contract : L.Contract) (stream : Stream s front (b :: rest) carry lost) (unsent : b.unsent ≠ 0)
    (room : L.tcpSndbuf s.pcb ≠ 0) :
    Yields (fun turns => s.espconnTcpSent turns b.punsent b.unsent) (Sent s front b rest carry lost) := by
  have shaped := stream.shaped b (by simp)
  obtain ⟨len,chosen⟩ : ∃ len, len =
      if (if L.tcpSndbuf s.pcb < b.unsent then L.tcpSndbuf s.pcb else b.unsent).toNat > 2 * (L.mss s.pcb).toNat then UInt16.ofNat (2 * (L.mss s.pcb).toNat)
      else if L.tcpSndbuf s.pcb < b.unsent then L.tcpSndbuf s.pcb else b.unsent := ⟨_,rfl⟩
  have bounds : 0 < len.toNat ∧ len.toNat ≤ b.punsent.length ∧ len.toNat ≤ (L.tcpSndbuf s.pcb).toNat := by
    rw [←shaped.unsent]
    exact chunk_bounds chosen (UInt16.pos_iff_ne_zero.mpr unsent) (UInt16.pos_iff_ne_zero.mpr room) (contract.mss_positive _)
  unfold Sender.espconnTcpSent
  simp only [if_neg unsent]
  dsimp only [Option.bind_eq_bind]
  rw [←chosen]
  refine (retryLoop_taken contract bounds.1 bounds.2.1).bind fun ⟨next,n,err⟩ taken => ?_
  by_cases ok : err = errOk
  · obtain ⟨some_,most,grown⟩ := taken.1 ok
    have within : n.toNat ≤ b.punsent.length := Nat.le_trans (UInt16.le_iff_toNat_le.mp most) bounds.2.1
    obtain ⟨_,node,_,store⟩ := stream.lined.here
    obtain ⟨heap,stored,live,after⟩ := store (b.wrote n)
    unfold EspconnBuf.wrote at stored
    simp only [if_pos ok]
    rw [node]
    dsimp only [Option.bind_some]
    rw [stored]
    dsimp only [Option.bind_some]
    have output := (contract.output_queues_none next).trans grown
    refine .done ⟨⟨live,rfl,rfl,rfl,rfl,rfl,rfl,rfl,fun copied => ?_⟩,_,stream.wrote within after _ output,fun bad => ?_,
      Or.inl ⟨?_,?_⟩⟩
    · exact if_neg fun both => Bool.false_ne_true (copied.symm.trans both.1)
    · exact ⟨next,Or.inr (Or.inr (Or.inr bad))⟩
    · rw [shaped.unsent,(shaped.wrote within).unsent]
      change (b.punsent.drop n.toNat).length < _
      rw [List.length_drop]
      omega
    · change 0 < L.unacked (L.tcpOutput next).1
      omega
  · simp only [if_neg ok]
    obtain ⟨same,short⟩ := taken.2 ok
    have short : L.Short := short (UInt16.le_iff_toNat_le.mpr bounds.2.2)
    exact .done ⟨⟨rfl,rfl,rfl,rfl,rfl,rfl,rfl,rfl,fun _ => rfl⟩,b,stream.withPcb same,fun _ => short,Or.inr ⟨ok,rfl⟩⟩

def Settles (carry lost : Nat) (t : Sender L) : Prop := ∃ front back, Stream t front back carry lost ∧ Settled t back

theorem advanced (stream : Stream s front (b :: rest) carry lost) (done : b.unsent = 0) {q : Ptr}
    (moved : Lined s.heap s.pbuf q (front ++ [b]) rest) : Stream {s with ptail := q} (front ++ [b]) rest carry lost := by
  have same : front ++ [b] ++ rest = front ++ b :: rest := by rw [List.append_assoc]; rfl
  have shaped := stream.shaped b (by simp)
  refine ⟨moved,?_,fun c member => ?_,fun c member => ?_,?_,?_,?_,?_,stream.unreported,stream.called⟩
  · rw [same]
    exact stream.shaped
  · rcases List.mem_append.mp member with before | here
    · exact stream.done c before
    · obtain rfl : c = b := List.mem_singleton.mp here
      exact shaped.unsent_zero.mp done
  · exact stream.untouched c (List.mem_of_mem_tail member)
  · rw [same]
    exact stream.fresh
  · rw [same]
    exact stream.appended
  · rw [same]
    exact stream.accepted
  · rw [same]
    exact stream.counted

theorem writeLoop_settles (contract : L.Contract) (stream : Stream s front back carry lost) (err : Int) :
    Yields (fun turns => s.writeLoop turns err) fun result => Wrote s result.1 ∧ Settles carry lost result.1 := by
  induction size : (back.map fun b => b.unsent.toNat + 1).sum using Nat.strong_induction_on generalizing s front back err with
  | _ n ih =>
    refine Yields.turn (fun turns => rfl) ?_
    dsimp only [Sender.writeLoop]
    by_cases closed : L.tcpSndbuf s.pcb = 0
    · have waits : 0 < L.unacked s.pcb := by
        refine Nat.pos_of_ne_zero fun quiet => ?_
        have room := (contract.room _ quiet).1
        rw [closed] at room
        exact absurd room (Nat.lt_irrefl 0)
      have settled : Settled s back := by
        intro _ _ _
        rcases Nat.lt_or_ge (L.unacked s.pcb) L.tcpSndBuf with less | full
        · exact Or.inr ⟨⟨s.pcb,Or.inl ⟨closed,less⟩⟩,Or.inr waits⟩
        · exact Or.inl ⟨full,waits⟩
      simp only [if_pos closed]
      exact .done ⟨.refl s,front,back,stream,settled⟩
    · simp only [if_neg closed]
      cases back with
      | nil =>
        simp only [if_pos stream.lined.ended]
        exact .done ⟨.refl s,front,[],stream,fun _ _ none => absurd none.symm (List.cons_ne_nil _ _)⟩
      | cons b rest =>
        obtain ⟨real,node,⟨q,next,moved⟩,_⟩ := stream.lined.here
        simp only [if_neg real]
        rw [node]
        dsimp only [Option.bind_eq_bind,Option.bind_some]
        by_cases done : b.unsent = 0
        · simp only [if_pos done]
          rw [next]
          dsimp only [Option.bind_some]
          have smaller : (rest.map fun b => b.unsent.toNat + 1).sum < n := by
            rw [←size]
            exact Nat.lt_add_of_pos_left (Nat.succ_pos _)
          have kept : Wrote s {s with ptail := q} := ⟨rfl,rfl,rfl,rfl,rfl,rfl,rfl,rfl,fun _ => rfl⟩
          exact (ih _ smaller (stream.advanced done moved) err rfl).mono fun _ settles => ⟨kept.trans settles.1,settles.2⟩
        · simp only [if_neg done]
          refine (tcpSent contract stream done closed).bind fun ⟨t,answer⟩ sent => ?_
          by_cases ok : answer = errOk
          · subst ok
            obtain ⟨wrote,c,after,_,⟨less,_⟩ | ⟨bad,_⟩⟩ := sent
            · have smaller : ((c :: rest).map fun b => b.unsent.toNat + 1).sum < n := by
                rw [←size,List.map_cons,List.map_cons,List.sum_cons,List.sum_cons]
                omega
              exact (ih _ smaller after errOk rfl).mono fun _ settles => ⟨wrote.trans settles.1,settles.2⟩
            · exact absurd rfl bad
          · obtain ⟨wrote,c,after,short,stopped⟩ := sent
            simp only [if_neg ok]
            refine .done ⟨wrote,front,_,after,fun d others equal => ?_⟩
            obtain ⟨rfl,_⟩ := List.cons_eq_cons.mp equal
            rcases stopped with ⟨_,waits⟩ | ⟨_,rfl⟩
            · exact Or.inr ⟨short ok,Or.inr waits⟩
            · exact Or.inr ⟨short ok,Or.inl done⟩

theorem tcpWrite (contract : L.Contract) (stream : Stream s front back carry lost) :
    Yields (fun turns => s.espconnTcpWrite turns) fun result => Wrote s result.1 ∧ Settles carry lost result.1 := by
  unfold Sender.espconnTcpWrite
  by_cases limited : L.tcpNagleDisabled s.pcb = true ∧ L.sndQueuelen s.pcb ≥ tcpSndQueuelen
  · have waits : 0 < L.unacked s.pcb :=
      Nat.pos_of_ne_zero fun quiet => absurd (contract.room _ quiet).2 (Nat.not_lt_of_le limited.2)
    simp only [if_pos limited]
    exact .done ⟨.refl s,front,back,stream,fun _ _ _ => Or.inr ⟨⟨s.pcb,Or.inr (Or.inl limited)⟩,Or.inr waits⟩⟩
  · simp only [if_neg limited]
    exact writeLoop_settles contract stream errOk

theorem new_shaped {psent : List UInt8} (some_ : UInt16.ofNat psent.length ≠ 0) (small : psent.length < 65536) :
    EspconnBuf.Shaped ⟨psent,psent,UInt16.ofNat psent.length,UInt16.ofNat psent.length,0⟩ := by
  have length : (UInt16.ofNat psent.length).toNat = psent.length := UInt16.toNat_ofNat_of_lt' small
  refine ⟨?_,length,length,?_⟩
  · rintro rfl
    exact some_ rfl
  · rw [EspconnBuf.none_written rfl]
    rfl

theorem extended (stream : Stream s front back carry lost) {psent : List UInt8} (some_ : UInt16.ofNat psent.length ≠ 0)
    (small : psent.length < 65536) {heap : Heap EspconnBuf} {pbuf ptail : Ptr}
    (lined : Lined heap pbuf ptail front (back ++ [⟨psent,psent,UInt16.ofNat psent.length,UInt16.ofNat psent.length,0⟩])) (writeFlag : Bool) :
    Stream {s with heap,pbuf,ptail,writeFlag,appended := s.appended ++ [psent]} front
      (back ++ [⟨psent,psent,UInt16.ofNat psent.length,UInt16.ofNat psent.length,0⟩]) carry lost := by
  have counted := stream.counted
  have appended := stream.appended
  have accepted := stream.accepted
  have new := new_shaped some_ small
  generalize made : EspconnBuf.mk psent psent (UInt16.ofNat psent.length) (UInt16.ofNat psent.length) 0 = b at lined new ⊢
  have payload : b.payload = psent := by rw [←made]
  have unwritten : b.written = [] := by
    rw [←made]
    exact EspconnBuf.none_written rfl
  have whole : front ++ (back ++ [b]) = (front ++ back) ++ [b] := (List.append_assoc ..).symm
  refine ⟨lined,fun c member => ?_,stream.done,fun c member => ?_,fun c member => ?_,?_,?_,?_,stream.unreported,stream.called⟩
  · rw [whole] at member
    rcases List.mem_append.mp member with old | here
    · exact stream.shaped c old
    · exact List.mem_singleton.mp here ▸ new
  · cases back with
    | nil => cases member
    | cons d others =>
      rcases List.mem_append.mp member with old | here
      · exact stream.untouched c old
      · rw [List.mem_singleton.mp here,←made]
  · rw [whole] at member
    cases row : front ++ back with
    | nil =>
      rw [row] at member
      cases member
    | cons d others =>
      rw [row] at member
      rcases List.mem_append.mp member with old | here
      · exact stream.fresh c (by rw [row]; exact old)
      · rw [List.mem_singleton.mp here,←made]
  · rw [whole,List.map_append,List.map_singleton,payload,←List.append_assoc,←appended]
  · rw [whole,List.map_append,List.map_singleton,unwritten,List.flatten_append,List.flatten_singleton,List.append_nil]
    exact accepted
  · rw [whole]
    cases row : front ++ back with
    | nil =>
      rw [row] at counted
      rw [←made]
      exact counted
    | cons d others =>
      rw [row] at counted
      exact counted

structure Appended (s : Sender L) (p : Ptr) (psent : List UInt8) (t : Sender L) : Prop where
  live : t.heap.live = Function.update s.heap.live p true
  appended : t.appended = s.appended ++ [psent]
  pbufNum : t.pbufNum = s.pbufNum
  copyDisabled : t.copyDisabled = s.copyDisabled
  writeFlag : s.copyDisabled = false → t.writeFlag = s.writeFlag

theorem Appended.wrote {p : Ptr} {psent : List UInt8} {u : Sender L} (one : Appended s p psent t) (two : Wrote t u) :
    Appended s p psent u :=
  ⟨two.live.trans one.live,two.appended.trans one.appended,two.pbufNum.trans one.pbufNum,two.copyDisabled.trans one.copyDisabled,
    fun copied => (two.writeFlag (one.copyDisabled.trans copied)).trans (one.writeFlag copied)⟩

theorem pbufCreate (stream : Stream s front back carry lost) {psent : List UInt8} (some_ : UInt16.ofNat psent.length ≠ 0)
    (small : psent.length < 65536) {p : Ptr} (fresh : s.heap.Fresh p) :
    Yields (fun turns => s.espconnPbufCreate turns p psent) fun t =>
      Appended s p psent t ∧ Onward s t ∧ ∃ front back, Stream t front back carry lost := by
  obtain ⟨heap,head,linked,live,lined⟩ := stream.lined.appended fresh ⟨psent,psent,UInt16.ofNat psent.length,UInt16.ofNat psent.length,0⟩
  refine ⟨_,?_,linked.bind (.done _)⟩
  refine ⟨⟨live,rfl,rfl,rfl,fun copied => ?_⟩,?_,front,_,stream.extended some_ small lined _⟩
  · exact if_neg fun disabled => Bool.false_ne_true (copied.symm.trans disabled)
  · exact ⟨List.prefix_append _ _,rfl,rfl,rfl,rfl⟩

theorem full (stream : Stream s front back carry lost) :
    Yields (fun turns => s.full turns) fun full =>
      s.copyDisabled = false → full = decide (UInt8.ofNat (front ++ back).length ≥ s.pbufNum) := by
  unfold Sender.full Sender.espconnTcpGetBufCount
  by_cases copied : s.copyDisabled = false
  · simp only [if_pos copied]
    exact ⟨_,fun _ => rfl,(stream.lined.length.map _).map _⟩
  · simp only [if_neg copied]
    exact .done fun enabled => absurd enabled copied

theorem sent (contract : L.Contract) (stream : Stream s front back carry lost) (settled : Settled s back) (r : Request) :
    Yields (fun turns => s.espconnSent turns r) fun result => Onward s result.1 ∧ Settles carry lost result.1 := by
  have still : Onward s s ∧ Settles carry lost s := ⟨.refl s,front,back,stream,settled⟩
  unfold Sender.espconnSent
  cases psent : r.psent with
  | none => exact .done still
  | some bytes =>
    dsimp only [Option.bind_eq_bind]
    by_cases empty : UInt16.ofNat bytes.length = 0
    · simp only [if_pos empty]
      exact .done still
    · simp only [if_neg empty]
      by_cases missing : r.found = false
      · simp only [if_pos missing]
        exact .done still
      · simp only [if_neg missing]
        by_cases busy : s.writeFlag = false
        · simp only [if_pos busy]
          exact .done still
        · simp only [if_neg busy]
          refine stream.full.bind fun full _ => ?_
          cases full with
          | true => exact .done still
          | false =>
            cases given : r.osZalloc s.heap with
            | none => exact .done still
            | some p =>
              refine (stream.pbufCreate empty (r.small bytes psent) (r.fresh _ p given)).bind fun t ⟨_,onward,front,back,after⟩ => ?_
              exact (tcpWrite contract after).mono fun _ settles => ⟨onward.trans settles.1.onward,settles.2⟩

theorem sent_accepted (contract : L.Contract) (stream : Stream s front back carry lost) (copied : s.copyDisabled = false)
    (free : s.writeFlag = true) (fewer : UInt8.ofNat (front ++ back).length < s.pbufNum) {r : Request} {bytes : List UInt8} {p : Ptr}
    (psent : r.psent = some bytes) (some_ : UInt16.ofNat bytes.length ≠ 0) (found : r.found = true)
    (given : r.osZalloc s.heap = some p) :
    Yields (fun turns => s.espconnSent turns r) fun result =>
      Appended s p bytes result.1 ∧ Onward s result.1 ∧ Settles carry lost result.1 := by
  unfold Sender.espconnSent
  rw [psent]
  dsimp only [Option.bind_eq_bind]
  simp only [if_neg some_,found,free,Bool.true_eq_false,if_false]
  refine stream.full.bind fun full counted => ?_
  rw [counted copied,decide_eq_false (UInt8.not_le.mpr fewer)]
  simp only [Bool.false_eq_true,if_false,given]
  refine (stream.pbufCreate some_ (r.small bytes psent) (r.fresh _ p given)).bind fun t ⟨appended,onward,front,back,after⟩ => ?_
  exact (tcpWrite contract after).mono fun _ settles => ⟨appended.wrote settles.1,onward.trans settles.1.onward,settles.2⟩

theorem obey (contract : L.Contract) (stream : Stream s front back carry lost) (settled : Settled s back) (act : Act) :
    Yields (fun turns => s.obey turns act) fun t => Onward s t ∧ Settles carry lost t := by
  cases act with
  | sent r => exact (sent contract stream settled r).map _ fun _ settles => settles
  | setCopy disabled =>
    have stream : Stream {s with copyDisabled := disabled} front back carry lost := {stream with}
    exact .done ⟨⟨List.prefix_refl _,rfl,rfl,rfl,rfl⟩,front,back,stream,settled⟩
  | setBufCount num =>
    unfold Sender.obey
    by_cases many : num.toNat > tcpSndQueuelen
    · simp only [if_pos many]
      exact .done ⟨.refl s,front,back,stream,settled⟩
    · simp only [if_neg many]
      have stream : Stream {s with pbufNum := num} front back carry lost := {stream with}
      exact .done ⟨⟨List.prefix_refl _,rfl,rfl,rfl,rfl⟩,front,back,stream,settled⟩

theorem obeyAll (contract : L.Contract) (stream : Stream s front back carry lost) (settled : Settled s back) (acts : List Act) :
    Yields (fun turns => s.obeyAll turns acts) fun t => Onward s t ∧ Settles carry lost t := by
  induction acts generalizing s front back with
  | nil => exact .done ⟨.refl s,front,back,stream,settled⟩
  | cons act rest ih =>
    unfold Sender.obeyAll
    refine (obey contract stream settled act).bind fun t ⟨onward,_,_,after,settled⟩ => ?_
    exact (ih after settled).mono fun _ settles => ⟨onward.trans settles.1,settles.2⟩

end Stream

end NonosLinkLayer.Espconn
