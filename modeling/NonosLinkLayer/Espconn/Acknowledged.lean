import NonosLinkLayer.Espconn.Stream

namespace NonosLinkLayer.Espconn
open HeapList Turns Transitions

namespace Lined
variable {h : Heap EspconnBuf} {pbuf ptail : Ptr}

theorem none (lined : Lined h pbuf ptail [] []) : pbuf = null := by
  obtain ⟨behind,ahead,chain,_,before,after⟩ := lined
  rw [List.map_eq_nil_iff.mp before,List.map_eq_nil_iff.mp after] at chain
  exact chain.start

end Lined

-- The first buffer still waits for a byte. Bytes that no buffer has counted do
-- not help it.
def Stable {L : Lwip} (s : Sender L) (lost : Nat) : Prop :=
  ∀ payload rest, s.appended = s.removed ++ payload :: rest → s.reported < s.removed.flatten.length + payload.length + lost

namespace Stream
variable {L : Lwip} {s t : Sender L} {front back rest : List EspconnBuf} {b : EspconnBuf} {carry lost : Nat} {pcb : L.Pcb}

theorem none_left (stream : Stream s front back carry lost) (row : front ++ back = []) :
    carry = 0 ∧ lost = 0 ∧ s.removed.flatten.length = s.reported ∧ L.unacked s.pcb = 0 := by
  have counted := stream.counted
  have unreported := stream.unreported
  have accepted := stream.accepted
  rw [row] at counted accepted
  rw [accepted,List.map_nil,List.flatten_nil,List.append_nil] at unreported
  change s.removed.flatten.length + 0 + carry + lost = s.reported at counted
  omega

theorem recount (stream : Stream s front back carry lost) (row : front ++ back = b :: rest) (m : UInt16) {reported carry' lost' : Nat}
    (counted : s.removed.flatten.length + m.toNat + carry' + lost' = reported) (unreported : s.accepted.length = reported + L.unacked pcb) :
    s.pbuf ≠ null ∧ s.heap.node s.pbuf = some b ∧ ∃ heap, s.heap.store s.pbuf {b with totLen := m} = some heap ∧
      ((∃ others, front = b :: others ∧ Stream {s with heap,pcb,reported} ({b with totLen := m} :: others) back carry' lost') ∨
        front = [] ∧ back = b :: rest ∧ Stream {s with heap,pcb,reported} [] ({b with totLen := m} :: rest) carry' lost') := by
  obtain ⟨real,node,heap,stored,cases⟩ := stream.lined.head row {b with totLen := m}
  have shaped := stream.shaped
  have fresh := stream.fresh
  have appended := stream.appended
  have accepted := stream.accepted
  rw [row] at shaped fresh appended accepted
  have here := shaped b (List.mem_cons_self ..)
  have same : EspconnBuf.Shaped {b with totLen := m} := ⟨here.nonempty,here.len,here.unsent,here.rest⟩
  have anew : ∀ c ∈ {b with totLen := m} :: rest, EspconnBuf.Shaped c := by
    intro c member
    rcases List.mem_cons.mp member with rfl | after
    · exact same
    · exact shaped c (List.mem_cons_of_mem _ after)
  refine ⟨real,node,heap,stored,?_⟩
  rcases cases with ⟨others,rfl,lined⟩ | ⟨rfl,rfl,lined⟩
  · obtain rfl : others ++ back = rest := (List.cons_eq_cons.mp row).2
    refine Or.inl ⟨others,rfl,lined,anew,?_,stream.untouched,fresh,appended,accepted,counted,unreported,stream.called⟩
    intro c member
    rcases List.mem_cons.mp member with rfl | after
    · exact stream.done b (List.mem_cons_self ..)
    · exact stream.done c (List.mem_cons_of_mem _ after)
  · exact Or.inr ⟨rfl,rfl,lined,anew,stream.done,stream.untouched,fresh,appended,accepted,counted,unreported,stream.called⟩

theorem cursor_past (stream : Stream s [] (b :: rest) carry lost) (settled : Settled s (b :: rest)) : ¬b.totLen ≥ b.len := by
  intro covered
  have shaped := stream.shaped b (List.mem_cons_self ..)
  have counted := stream.counted
  have unreported := stream.unreported
  have none := none_ahead stream.untouched
  rw [List.tail_cons] at none
  have accepted := congrArg List.length stream.accepted
  rw [List.nil_append,List.map_cons,List.flatten_cons,none,List.append_nil,List.length_append] at accepted
  have parts := congrArg List.length shaped.rest
  rw [List.length_append] at parts
  have enough := UInt16.le_iff_toNat_le.mp covered
  rw [shaped.len] at enough
  change s.removed.flatten.length + b.totLen.toNat + carry + lost = s.reported at counted
  have all : b.punsent.length = 0 := by omega
  have waits : b.unsent ≠ 0 ∨ 0 < L.unacked s.pcb := by
    rcases settled b rest rfl with ⟨_,waits⟩ | ⟨_,either⟩
    · exact Or.inr waits
    · exact either
  rcases waits with some_ | waits
  · exact some_ (shaped.unsent_zero.mpr (List.length_eq_zero_iff.mp all))
  · omega

theorem removed (stream : Stream s (b :: front) back 0 lost) (covered : b.totLen ≥ b.len) :
    ∃ head next last, Ends (fun turns => deleteNode turns s.heap s.pbuf s.pbuf) (next,head) ∧ next.free s.pbuf = some last ∧
      acked (front ++ back) = 0 ∧ ∀ called sentLength,
        (s.sentCallback = true → called = s.called ++ [b.len]) →
        Stream {s with heap := last,pbuf := head,sentLength,removed := s.removed ++ [b.payload],called} front back
          (b.totLen - b.len).toNat lost := by
  obtain ⟨head,next,last,deleted,freed,lined⟩ := stream.lined.removed
  have shaped := stream.shaped b (List.mem_cons_self ..)
  have fresh := stream.fresh
  have counted := stream.counted
  have appended := stream.appended
  have accepted := stream.accepted
  have none : acked (front ++ back) = 0 := by
    cases row : front ++ back with
    | nil => rfl
    | cons c others =>
      have zero := fresh c (by
        rw [List.cons_append,List.tail_cons,row]
        exact List.mem_cons_self ..)
      change c.totLen.toNat = 0
      rw [zero]
      rfl
  refine ⟨head,next,last,deleted,freed,none,fun called sentLength more => ?_⟩
  have written := shaped.all_written (stream.done b (List.mem_cons_self ..))
  refine ⟨lined,fun c member => stream.shaped c (List.mem_cons_of_mem _ member),fun c member => stream.done c (List.mem_cons_of_mem _ member),
    stream.untouched,fun c member => fresh c (List.mem_of_mem_tail member),?_,?_,?_,stream.unreported,fun on => ?_⟩
  · change s.appended = s.removed ++ [b.payload] ++ _
    rw [appended,List.append_assoc]
    rfl
  · change s.accepted = (s.removed ++ [b.payload]).flatten ++ _
    rw [accepted,List.flatten_append,List.flatten_singleton,List.append_assoc,List.cons_append,List.map_cons,List.flatten_cons,written]
  · change (s.removed ++ [b.payload]).flatten.length + _ + _ + lost = s.reported
    rw [List.flatten_append,List.flatten_singleton,List.length_append,none,UInt16.toNat_sub_of_le _ _ covered]
    have enough := UInt16.le_iff_toNat_le.mp covered
    rw [shaped.len] at enough ⊢
    change s.removed.flatten.length + b.totLen.toNat + 0 + lost = s.reported at counted
    omega
  · change called = (s.removed ++ [b.payload]).map _
    rw [more on,stream.called on,List.map_append,List.map_singleton,←shaped.len,UInt16.ofNat_toNat]

theorem callback (contract : L.Contract) (script : Nat → List Act) (settled : Settled s back)
    (stream : ∀ called, (s.sentCallback = true → called = s.called ++ [s.sentLength]) → Stream {s with called} front back carry lost) :
    Yields (fun turns => Sender.callSentCallback turns script s) fun t =>
      s.appended <+: t.appended ∧ t.removed = s.removed ∧ t.reported = s.reported ∧ t.sentCallback = s.sentCallback ∧
        Settles carry lost t := by
  unfold Sender.callSentCallback
  by_cases on : s.sentCallback = true
  · simp only [if_pos on]
    refine (obeyAll contract (stream _ fun _ => rfl) settled _).mono fun t result => ?_
    exact ⟨result.1.appended,result.1.removed,result.1.reported,result.1.sentCallback,result.2⟩
  · simp only [if_neg on]
    have same : Stream s front back carry lost := stream s.called fun yes => absurd yes on
    exact .done ⟨List.prefix_refl _,rfl,rfl,rfl,front,back,same,settled⟩

structure Finished (s : Sender L) (lost : Nat) (t : Sender L) : Prop where
  appended : s.appended <+: t.appended
  reported : t.reported = s.reported
  sentCallback : t.sentCallback = s.sentCallback
  stable : Stable t lost
  settles : Settles 0 lost t

theorem Finished.after {lost : Nat} {u : Sender L} (finished : Finished t lost u) (appended : s.appended <+: t.appended)
    (reported : t.reported = s.reported) (sentCallback : t.sentCallback = s.sentCallback) : Finished s lost u :=
  ⟨appended.trans finished.appended,finished.reported.trans reported,finished.sentCallback.trans sentCallback,finished.stable,
    finished.settles⟩

theorem stops (stream : Stream s front back 0 lost) (waits : ∀ b rest, front ++ back = b :: rest → b.totLen < b.len) : Stable s lost := by
  intro payload rest equal
  rw [stream.appended,List.append_cancel_left_eq] at equal
  cases row : front ++ back with
  | nil =>
    rw [row] at equal
    cases equal
  | cons b others =>
    rw [row,List.map_cons] at equal
    obtain ⟨rfl,_⟩ := List.cons_eq_cons.mp equal
    have less := UInt16.lt_iff_toNat_lt.mp (waits b others row)
    have counted := stream.counted
    rw [(stream.shaped b (by rw [row]; exact List.mem_cons_self ..)).len] at less
    rw [row] at counted
    change s.removed.flatten.length + b.totLen.toNat + 0 + lost = s.reported at counted
    omega

structure Carried (script : Nat → List Act) (I : Sender L → Prop) : Prop where
  frame : ∀ {s t}, t.accepted = s.accepted → t.appended = s.appended → t.writeFlag = s.writeFlag → I s → I t
  calls : ∀ {s front back carry lost}, Settled s back →
    (∀ called, (s.sentCallback = true → called = s.called ++ [s.sentLength]) → Stream {s with called} front back carry lost) → I s →
    ∀ t, Ends (fun turns => Sender.callSentCallback turns script s) t → I t

theorem rests {script : Nat → List Act} {I : Sender L → Prop} {heap : Heap EspconnBuf} (c : EspconnBuf) (rest : List EspconnBuf)
    (carried : Carried script I) (held : I s) (waits : c.totLen < c.len) (after : Stream {s with heap} front back 0 lost)
    (row : front ++ back = c :: rest) (settled : Settled s back) : Finished s lost {s with heap} ∧ I {s with heap} := by
  refine ⟨⟨List.prefix_refl _,rfl,rfl,after.stops fun d others equal => ?_,front,back,after,settled⟩,
    carried.frame (s := s) rfl rfl rfl held⟩
  rw [row] at equal
  obtain ⟨rfl,_⟩ := List.cons_eq_cons.mp equal
  exact waits

theorem shorter_line {b : EspconnBuf} {total carry' : Nat} (after : Stream t front back carry' lost) (shaped : b.Shaped)
    (removed : t.removed = s.removed ++ [b.payload]) (reported : t.reported = s.reported)
    (counted : s.removed.flatten.length + total + lost = s.reported) (enough : b.len.toNat ≤ total)
    (cut : carry' = total - b.len.toNat) :
    t.reported - t.removed.flatten.length < s.reported - s.removed.flatten.length ∧ acked (front ++ back) = 0 := by
  have some_ : 0 < b.payload.length := List.length_pos_iff.mpr shaped.nonempty
  have length : t.removed.flatten.length = s.removed.flatten.length + b.payload.length := by
    rw [removed,List.flatten_append,List.flatten_singleton,List.length_append]
  have counted' := after.counted
  rw [cut,length,reported] at counted'
  rw [length,reported]
  rw [shaped.len] at enough counted'
  omega

-- What is carried over goes to a node that has nothing acknowledged yet.
theorem carried_toNat {b : EspconnBuf} {rest : List EspconnBuf} {len : UInt16} (apart : len = 0 ∨ acked (b :: rest) = 0) :
    (b.totLen + len).toNat = b.totLen.toNat + len.toNat := by
  rcases apart with rfl | zero
  · rw [UInt16.add_zero]
    rfl
  · have none : b.totLen = 0 := UInt16.toNat_inj.mp zero
    rw [none,UInt16.zero_add]
    exact (Nat.zero_add _).symm

theorem finishLoop_finishes (contract : L.Contract) {script : Nat → List Act} {len : UInt16} {I : Sender L → Prop}
    (carried : Carried script I) (stream : Stream s front back len.toNat lost) (settled : Settled s back)
    (apart : len = 0 ∨ acked (front ++ back) = 0) (held : I s) :
    Yields (fun turns => Sender.finishLoop script turns s len) fun t => Finished s lost t ∧ I t := by
  induction left : s.reported - s.removed.flatten.length using Nat.strong_induction_on generalizing s front back len with
  | _ n ih =>
    refine Yields.turn (fun turns => rfl) ?_
    dsimp only [Sender.finishLoop,Option.bind_eq_bind]
    cases row : front ++ back with
    | nil =>
      obtain ⟨none,_⟩ := stream.none_left row
      obtain ⟨rfl,rfl⟩ := List.append_eq_nil_iff.mp row
      simp only [if_pos stream.lined.none]
      rw [none] at stream
      have stable := stream.stops fun _ _ none => absurd none.symm (List.cons_ne_nil _ _)
      exact .done ⟨⟨List.prefix_refl _,rfl,rfl,stable,[],[],stream,settled⟩,held⟩
    | cons b rest =>
      have counted := stream.counted
      rw [row] at counted apart
      change s.removed.flatten.length + b.totLen.toNat + len.toNat + lost = s.reported at counted
      have fits := carried_toNat apart
      obtain ⟨real,node,heap,stored,cases⟩ := stream.recount row (b.totLen + len)
        (by rw [fits]; omega : s.removed.flatten.length + (b.totLen + len).toNat + 0 + lost = s.reported) stream.unreported
      simp only [if_neg real]
      rw [node]
      dsimp only [Option.bind_some]
      rw [stored]
      dsimp only [Option.bind_some]
      by_cases covered : b.totLen + len ≥ b.len
      · simp only [if_pos covered]
        rcases cases with ⟨others,rfl,after⟩ | ⟨rfl,rfl,after⟩
        · obtain ⟨head,next,last,deleted,freed,none,shorter⟩ := after.removed covered
          have gone : Yields (fun turns => deleteNode turns heap s.pbuf s.pbuf) fun result => result = (next,head) := ⟨_,rfl,deleted⟩
          refine gone.bind fun _ equal => ?_
          subst equal
          dsimp only
          rw [freed]
          dsimp only [Option.bind_some]
          have waits : Settled {s with heap := last,pbuf := head,sentLength := b.len,removed := s.removed ++ [b.payload]} back :=
            fun d others equal => settled d others equal
          have called := callback contract script waits fun called more => shorter called b.len more
          have kept := carried.calls waits (fun called more => shorter called b.len more) (carried.frame (s := s) rfl rfl rfl held)
          obtain ⟨t,holds,ends⟩ := called
          refine Yields.bind (P := fun u => u = t) ⟨t,rfl,ends⟩ fun _ equal => ?_
          obtain rfl := equal.symm
          have heldT := kept _ ends
          obtain ⟨appended,removed,reported,sentCallback,f,k,again,settled⟩ := holds
          have shaped := stream.shaped b (List.mem_cons_self ..)
          have cut : (b.totLen + len - b.len).toNat = (b.totLen + len).toNat - b.len.toNat := UInt16.toNat_sub_of_le _ _ covered
          have again : Stream {t with sentLength := b.totLen + len - b.len} f k (b.totLen + len - b.len).toNat lost := {again with}
          obtain ⟨smaller,zero⟩ := shorter_line (s := s) again shaped removed reported (by rw [fits]; omega)
            (UInt16.le_iff_toNat_le.mp covered) cut
          refine (ih _ (left ▸ smaller) again settled (Or.inr zero) (carried.frame (s := t) rfl rfl rfl heldT) rfl).mono ?_
          rintro u ⟨finished,heldU⟩
          exact ⟨finished.after appended reported sentCallback,heldU⟩
        · exact absurd covered (after.cursor_past fun d others equal => by
            obtain ⟨rfl,rfl⟩ := List.cons_eq_cons.mp equal
            exact settled b rest rfl)
      · simp only [if_neg covered]
        have waits : b.totLen + len < b.len := UInt16.not_le.mp covered
        rcases cases with ⟨others,rfl,after⟩ | ⟨rfl,rfl,after⟩
        · have tail : others ++ back = rest := (List.cons_eq_cons.mp row).2
          refine .done (rests {b with totLen := b.totLen + len} rest carried held waits after ?_ settled)
          rw [List.cons_append,tail]
        · refine .done (rests {b with totLen := b.totLen + len} rest carried held waits after rfl fun d others equal => ?_)
          obtain ⟨rfl,rfl⟩ := List.cons_eq_cons.mp equal
          exact settled b rest rfl

theorem still_stable (stream : Stream s front back 0 lost) (stable : Stable s lost) (onward : Onward s t) {f k : List EspconnBuf}
    (after : Stream t f k carry lost) : Stable t lost := by
  intro payload rest equal
  have counted := stream.counted
  rw [onward.reported,onward.removed]
  rw [onward.removed] at equal
  obtain ⟨more,longer⟩ := onward.appended
  rw [stream.appended,List.append_assoc,equal,List.append_cancel_left_eq] at longer
  cases row : front ++ back with
  | nil =>
    obtain ⟨_,rfl,all,_⟩ := stream.none_left row
    have appended := after.appended
    rw [onward.removed,equal,List.append_cancel_left_eq] at appended
    obtain ⟨b,others,row,same,_⟩ := List.map_eq_cons_iff.mp appended.symm
    have some_ := (after.shaped b (by rw [row]; exact List.mem_cons_self ..)).nonempty
    rw [same] at some_
    have length := List.length_pos_iff.mpr some_
    omega
  | cons b others =>
    rw [row,List.map_cons,List.cons_append] at longer
    obtain ⟨rfl,_⟩ := List.cons_eq_cons.mp longer
    refine stable b.payload (others.map EspconnBuf.payload) ?_
    rw [stream.appended,row,List.map_cons]

end Stream

def Whole {L : Lwip} (lost : Nat) (s : Sender L) : Prop := Stable s lost ∧ Stream.Settles 0 lost s

def Fits {L : Lwip} (s : Sender L) (len : UInt16) : Prop :=
  ∀ b, s.heap.node s.pbuf = some b → b.totLen.toNat + len.toNat < 65536

namespace Whole
variable {L : Lwip} {s t : Sender L} {lost : Nat} {pcb : L.Pcb} {len : UInt16}

theorem start (heap : Heap EspconnBuf) (num : UInt8) (copy callback : Bool) (quiet : L.unacked pcb = 0) :
    Whole 0 (Sender.start heap pcb num copy callback) := by
  have lined : Lined heap null null [] [] := ⟨[],[],.empty heap,rfl,rfl,rfl⟩
  have none : ∀ (P : EspconnBuf → Prop), ∀ b ∈ ([] : List EspconnBuf), P b := fun P => List.forall_mem_nil P
  refine ⟨fun payload rest equal => ?_,[],[],⟨lined,none _,none _,none _,none _,rfl,rfl,rfl,?_,fun _ => rfl⟩,?_⟩
  · cases equal
  · exact (quiet.symm ▸ rfl : 0 = 0 + L.unacked pcb)
  · exact fun b rest equal => absurd equal (List.cons_ne_nil b rest).symm

theorem obey (contract : L.Contract) (whole : Whole lost s) (act : Act) :
    Yields (fun turns => s.obey turns act) fun t => Onward s t ∧ Whole lost t := by
  obtain ⟨stable,front,back,stream,settled⟩ := whole
  refine (stream.obey contract settled act).mono fun t ⟨onward,f,k,after,settled⟩ => ⟨onward,?_,f,k,after,settled⟩
  exact stream.still_stable stable onward after

structure Begun (s : Sender L) (pcb : L.Pcb) (back : List EspconnBuf) (m : Sender L) (behind : List EspconnBuf) : Prop where
  pcb : m.pcb = pcb
  copyDisabled : m.copyDisabled = s.copyDisabled
  writeFlag : m.writeFlag = s.writeFlag
  accepted : m.accepted = s.accepted
  appended : m.appended = s.appended
  line : behind.map EspconnBuf.punsent = back.map EspconnBuf.punsent

theorem acknowledges (contract : L.Contract) (whole : Whole lost s) {script : Nat → List Act} {I : Sender L → Prop}
    (carried : Stream.Carried script I) (some_ : 0 < len.toNat) (acks : L.unacked pcb + len.toNat = L.unacked s.pcb)
    (writes : ∀ {front back m ahead behind lost' t err}, Stream s front back 0 lost → Stream m ahead behind 0 lost' →
      Begun s pcb back m behind → Ends (fun turns => m.espconnTcpWrite turns) (t,err) → I t) :
    ∃ lost', (Fits s len → lost' = lost) ∧ (¬Fits s len → lost' = lost + 65536) ∧
      Yields (fun turns => (s.acknowledged pcb len).bind fun s => s.espconnTcpFinish turns script) fun t =>
        (s.appended <+: t.appended ∧ t.reported = s.reported + len.toNat ∧ t.sentCallback = s.sentCallback ∧ Whole lost' t) ∧ I t := by
  obtain ⟨stable,front,back,stream,_⟩ := whole
  cases row : front ++ back with
  | nil =>
    have quiet := (stream.none_left row).2.2.2
    omega
  | cons b rest =>
    have counted := stream.counted
    have unreported := stream.unreported
    rw [row] at counted
    change s.removed.flatten.length + b.totLen.toNat + 0 + lost = s.reported at counted
    -- The counter has 16 bits.
    have sum := UInt16.toNat_add b.totLen len
    obtain ⟨wrapped,total⟩ : ∃ wrapped, b.totLen.toNat + len.toNat = (b.totLen + len).toNat + wrapped := Nat.exists_eq_add_of_le (by omega)
    obtain ⟨_,node,heap,stored,cases⟩ := stream.recount row (b.totLen + len)
      (by omega : s.removed.flatten.length + (b.totLen + len).toNat + 0 + (lost + wrapped) = s.reported + len.toNat)
      (by omega : s.accepted.length = s.reported + len.toNat + L.unacked pcb)
    have fits : Fits s len ↔ b.totLen.toNat + len.toNat < 65536 := by
      refine ⟨fun fits => fits b node,fun less c here => ?_⟩
      cases Option.some.inj (node.symm.trans here)
      exact less
    refine ⟨lost + wrapped,fun gentle => ?_,fun harsh => ?_,?_⟩
    · have less := fits.mp gentle
      omega
    · have more := fits.not.mp harsh
      have one := b.totLen.toNat_lt
      have two := len.toNat_lt
      omega
    · obtain ⟨f,k,after,line⟩ : ∃ f k, Stream {s with heap,pcb,reported := s.reported + len.toNat} f k 0 (lost + wrapped) ∧
          k.map EspconnBuf.punsent = back.map EspconnBuf.punsent := by
        rcases cases with ⟨_,_,after⟩ | ⟨_,rfl,after⟩
        · exact ⟨_,_,after,rfl⟩
        · exact ⟨_,_,after,rfl⟩
      have after : Stream {s with heap,pcb,sentLength := len,reported := s.reported + len.toNat} f k 0 (lost + wrapped) := {after with}
      have begun : s.acknowledged pcb len = some {s with heap,pcb,sentLength := len,reported := s.reported + len.toNat} := by
        unfold Sender.acknowledged
        rw [node]
        dsimp only [Option.bind_eq_bind,Option.bind_some]
        rw [stored]
        rfl
      rw [begun]
      dsimp only [Option.bind_some]
      unfold Sender.espconnTcpFinish
      obtain ⟨⟨t,err⟩,⟨wrote,g,m,written,settled⟩,ends⟩ := after.tcpWrite contract
      have held := writes stream after ⟨rfl,rfl,rfl,rfl,rfl,line⟩ ends
      refine Yields.bind (P := fun u => u = (t,err)) ⟨_,rfl,ends⟩ fun _ equal => ?_
      subst equal
      refine (written.finishLoop_finishes contract carried settled (Or.inl rfl) held).mono fun u ⟨finished,heldU⟩ => ?_
      have appended := finished.appended
      rw [wrote.appended] at appended
      exact ⟨⟨appended,finished.reported.trans wrote.reported,finished.sentCallback.trans wrote.sentCallback,finished.stable,
        finished.settles⟩,heldU⟩

theorem acknowledged (contract : L.Contract) (whole : Whole lost s) (script : Nat → List Act) (some_ : 0 < len.toNat)
    (acks : L.unacked pcb + len.toNat = L.unacked s.pcb) :
    ∃ lost', (Fits s len → lost' = lost) ∧ (¬Fits s len → lost' = lost + 65536) ∧
      Yields (fun turns => (s.acknowledged pcb len).bind fun s => s.espconnTcpFinish turns script) fun t =>
        s.appended <+: t.appended ∧ t.reported = s.reported + len.toNat ∧ t.sentCallback = s.sentCallback ∧ Whole lost' t := by
  obtain ⟨lost',kept,grown,yields⟩ := whole.acknowledges contract (I:=fun _ => True) ⟨fun _ _ _ _ => trivial,fun _ _ _ _ _ => trivial⟩
    some_ acks fun _ _ _ _ => trivial
  exact ⟨lost',kept,grown,yields.mono fun _ result => result.1⟩

end Whole

end NonosLinkLayer.Espconn
