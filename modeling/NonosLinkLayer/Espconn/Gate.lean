import NonosLinkLayer.Espconn.Offers
import NonosLinkLayer.Espconn.Delivery

namespace NonosLinkLayer.Espconn
open HeapList Turns Transitions

-- When every buffer has been handed to tcp_write in full, espconn_sent takes more.
def Gate {L : Lwip} (s : Sender L) : Prop :=
  ∀ cells, Chain s.heap s.pbuf cells → (∀ c ∈ cells, (s.heap.pnode c).unsent = 0) → s.writeFlag = true

def Gated {L : Lwip} (s : Sender L) : Prop := s.accepted.length = s.appended.flatten.length → s.writeFlag = true

def Drains {L : Lwip} (s : Sender L) (pcb : L.Pcb) : Prop :=
  ∃ front back next left err, Queued s front back ∧ Writes L false pcb (back.map EspconnBuf.punsent) next left err ∧ ∀ bytes ∈ left, bytes = []

-- An acknowledgement lets the last bytes go while the gate is shut, and the option
-- bit that would have it opened is no longer set.
def Minded {L : Lwip} (s : Sender L) : Sending L → Prop
  | .clientSent pcb _ _ => s.writeFlag = false → s.copyDisabled = false → ¬ Drains s pcb
  | .serverSent pcb _ _ => s.writeFlag = false → s.copyDisabled = false → ¬ Drains s pcb
  | _ => True

theorem Lined.unique {h : Heap EspconnBuf} {pbuf ptail : Ptr} {front back front' back' : List EspconnBuf}
    (one : Lined h pbuf ptail front back) (two : Lined h pbuf ptail front' back') : front = front' ∧ back = back' := by
  obtain ⟨behind,ahead,chain,tail,rfl,rfl⟩ := one
  obtain ⟨behind',ahead',chain',tail',rfl,rfl⟩ := two
  have same := chain.unique chain'
  have real : ∀ {c rest}, ahead = c :: rest → c ≠ null := fun split => (chain.node (by simp [split])).1
  have real' : ∀ {c rest}, ahead' = c :: rest → c ≠ null := fun split => (chain'.node (by simp [split])).1
  cases ahead with
  | nil =>
    cases ahead' with
    | nil => exact ⟨congrArg _ (by simpa using same),rfl⟩
    | cons c rest => exact absurd (tail'.symm.trans tail) (real' rfl)
  | cons c rest =>
    cases ahead' with
    | nil => exact absurd (tail.symm.trans tail') (real rfl)
    | cons c' rest' =>
      obtain rfl : c = c' := tail.symm.trans tail'
      have off : c ∉ behind := fun member => (List.nodup_middle.mp chain.apart |> List.nodup_cons.mp).1 (List.mem_append_left _ member)
      have off' : c ∉ rest := fun member => (List.nodup_middle.mp chain.apart |> List.nodup_cons.mp).1 (List.mem_append_right _ member)
      obtain ⟨rfl,_,rfl⟩ := (List.append_cons_inj_of_notMem off off').mp same
      exact ⟨rfl,rfl⟩

namespace Stream
variable {L : Lwip} {s t : Sender L} {front back : List EspconnBuf} {carry lost : Nat} {pcb : L.Pcb}

theorem queued (stream : Stream s front back carry lost) : Queued s front back := ⟨stream.lined,stream.shaped⟩

theorem rest_length (shaped : ∀ b ∈ front, EspconnBuf.Shaped b) : ((front.map EspconnBuf.payload).flatten).length =
    ((front.map EspconnBuf.written).flatten).length + ((front.map EspconnBuf.punsent).flatten).length := by
  induction front with
  | nil => rfl
  | cons b rest ih =>
    have lengths := congrArg List.length (shaped b (List.mem_cons_self ..)).rest
    have onward := ih fun c member => shaped c (List.mem_cons_of_mem _ member)
    simp only [List.map_cons,List.flatten_cons,List.length_append] at lengths ⊢
    omega

theorem all_sent (stream : Stream s front back carry lost) :
    s.accepted.length = s.appended.flatten.length ↔ ∀ b ∈ back, b.punsent = [] := by
  have lengths := rest_length stream.shaped
  have done : (front.map EspconnBuf.punsent).flatten = [] := List.flatten_eq_nil_iff.mpr fun _ member => by
    obtain ⟨b,there,rfl⟩ := List.mem_map.mp member
    exact stream.done b there
  have left : (back.map EspconnBuf.punsent).flatten.length = 0 ↔ ∀ b ∈ back, b.punsent = [] := by
    rw [List.length_eq_zero_iff,List.flatten_eq_nil_iff]
    simp
  rw [List.map_append (f:=EspconnBuf.punsent),List.flatten_append,done,List.nil_append] at lengths
  rw [stream.accepted,stream.appended,List.flatten_append,List.length_append,List.length_append,lengths,←left]
  omega

theorem gate_iff (stream : Stream s front back carry lost) : Gate s ↔ Gated s := by
  obtain ⟨behind,ahead,chain,_,before,after⟩ := stream.lined
  have row : (behind ++ ahead).map s.heap.pnode = front ++ back := by simp [before,after]
  have sent : (∀ c ∈ behind ++ ahead, (s.heap.pnode c).unsent = 0) ↔ ∀ b ∈ back, b.punsent = [] := by
    constructor
    · intro all b member
      obtain ⟨c,there,same⟩ := List.mem_map.mp (row ▸ List.mem_append_right front member)
      subst same
      exact (stream.shaped _ (List.mem_append_right front member)).unsent_zero.mp (all c there)
    · intro all c member
      have listed : s.heap.pnode c ∈ front ++ back := row ▸ List.mem_map_of_mem member
      refine (stream.shaped _ listed).unsent_zero.mpr ?_
      rcases List.mem_append.mp listed with inFront | inBack
      · exact stream.done _ inFront
      · exact all _ inBack
  unfold Gate Gated
  rw [stream.all_sent]
  constructor
  · exact fun gate all => gate _ chain (sent.mpr all)
  · intro gated cells other all
    cases chain.unique other
    exact gated (sent.mp all)

theorem write_offered (contract : L.Contract) (stream : Stream s front back carry lost)
    (ends : Ends (fun turns => s.espconnTcpWrite turns) (t,err)) :
    ∃ ahead behind, Stream t ahead behind carry lost ∧ Wrote s t ∧
      Writes L s.copyDisabled s.pcb (back.map EspconnBuf.punsent) t.pcb (behind.map EspconnBuf.punsent) err ∧
      (s.copyDisabled = true → Gated s → Gated t) ∧ (¬ Gated s → ¬ Gated t) := by
  obtain ⟨wrote,ahead,behind,after,_⟩ := (stream.tcpWrite contract).holds ends
  obtain ⟨_,ahead',behind',queued',writes,gate,idle⟩ := (tcpWrite_offers contract.mss_positive stream.queued).holds ends
  obtain ⟨rfl,rfl⟩ := after.lined.unique queued'.1
  refine ⟨ahead,behind,after,wrote,writes,fun copied gated all => ?_,fun shut open_ => shut fun all => ?_⟩
  · exact gate copied (fun none => gated (stream.all_sent.mpr none)) (after.all_sent.mp all)
  · have none := stream.all_sent.mp all
    rw [←idle none]
    refine open_ (after.all_sent.mpr fun b member => ?_)
    refine writes.none (fun bytes member => ?_) _ (List.mem_map_of_mem member)
    obtain ⟨c,there,rfl⟩ := List.mem_map.mp member
    exact none c there

theorem sent_gated (contract : L.Contract) (stream : Stream s front back carry lost) (settled : Settled s back) {r : Request}
    (ends : Ends (fun turns => s.espconnSent turns r) (t,err)) : Gated t ↔ Gated s := by
  rcases stream.queued.sent contract.mss_positive r with ⟨_,same⟩ | ⟨goes,bytes,psent,yields⟩
  · have equal : t = s := same.holds ends
    rw [equal]
  · have free : s.writeFlag = true := by
      cases flag : s.writeFlag with
      | true => rfl
      | false => exact absurd (.inr (.inr (.inl flag))) goes
    refine iff_of_true ?_ fun _ => free
    obtain ⟨_,ahead,left,after,_⟩ := (stream.sent contract settled r).holds ends
    obtain ⟨m,behind,created,wrote,ahead',left',queued,_,gate,_⟩ := yields.holds ends
    obtain ⟨rfl,rfl⟩ := after.lined.unique queued.1
    intro all
    cases copied : s.copyDisabled with
    | false => exact (wrote.writeFlag (created.copyDisabled.trans copied)).trans ((created.writeFlag copied).trans free)
    | true =>
      refine gate (created.copyDisabled.trans copied) (fun none => ?_) (after.all_sent.mp all)
      have last : bytes ∈ behind.map EspconnBuf.punsent := by simp [created.line]
      obtain ⟨b,member,same⟩ := List.mem_map.mp last
      have empty : bytes = [] := same.symm.trans (none b member)
      subst empty
      exact absurd (.inl fun other given => Option.some.inj (psent.symm.trans given) ▸ rfl) goes

theorem obeyAll_gated (contract : L.Contract) (stream : Stream s front back carry lost) (settled : Settled s back) {acts : List Act}
    (ends : Ends (fun turns => s.obeyAll turns acts) t) : Gated t ↔ Gated s := by
  induction acts generalizing s front back with
  | nil =>
    cases ends.unique (.done s)
    exact Iff.rfl
  | cons act rest ih =>
    obtain ⟨m,⟨_,ahead,behind,after,settled'⟩,obeyed⟩ := stream.obey contract settled act
    obtain ⟨u,_,onward⟩ := after.obeyAll contract settled' rest
    have whole : Ends (fun turns => s.obeyAll turns (act :: rest)) u := obeyed.bind onward
    cases ends.unique whole
    refine (ih after settled' onward).trans ?_
    cases act with
    | sent r =>
      obtain ⟨⟨v,err⟩,_,sent⟩ := stream.sent contract settled r
      cases obeyed.unique (sent.map Prod.fst)
      exact sent_gated contract stream settled sent
    | setCopy disabled =>
      cases obeyed.unique (.done _)
      exact Iff.rfl
    | setBufCount num =>
      cases obeyed.unique (.done _)
      unfold Gated
      split <;> exact Iff.rfl

theorem call_gated (contract : L.Contract) {script : Nat → List Act} (settled : Settled s back)
    (stream : ∀ called, (s.sentCallback = true → called = s.called ++ [s.sentLength]) → Stream {s with called} front back carry lost)
    (ends : Ends (fun turns => Sender.callSentCallback turns script s) t) : Gated t ↔ Gated s := by
  by_cases on : s.sentCallback = true
  · unfold Sender.callSentCallback at ends
    simp only [if_pos on] at ends
    have settled' : Settled {s with called := s.called ++ [s.sentLength]} back := fun b rest equal => settled b rest equal
    have result := obeyAll_gated (s := {s with called := s.called ++ [s.sentLength]}) contract (stream _ fun _ => rfl) settled' ends
    exact result
  · unfold Sender.callSentCallback at ends
    simp only [if_neg on] at ends
    cases ends.unique (.done s)
    exact Iff.rfl

theorem gated_same (accepted : t.accepted = s.accepted) (appended : t.appended = s.appended) (writeFlag : t.writeFlag = s.writeFlag) :
    Gated t ↔ Gated s := by
  unfold Gated
  rw [accepted,appended,writeFlag]

theorem carried_gated (contract : L.Contract) (script : Nat → List Act) : Carried script (Gated (L := L)) :=
  ⟨fun accepted appended writeFlag => (gated_same accepted appended writeFlag).mpr,
    fun settled stream gated _ ends => (call_gated contract settled stream ends).mpr gated⟩

theorem carried_shut (contract : L.Contract) (script : Nat → List Act) : Carried script (fun s : Sender L => ¬ Gated s) :=
  ⟨fun accepted appended writeFlag => (not_congr (gated_same accepted appended writeFlag)).mpr,
    fun settled stream gated _ ends => (not_congr (call_gated contract settled stream ends)).mpr gated⟩

end Stream

section Steps
variable {L : Lwip} {s t : Sender L} {event : Sending L} {events : List (Sending L)} {lost : Nat} {pcb : L.Pcb} {len : UInt16}
  {script : Nat → List Act}

-- The write behind an acknowledgement is the one place where the gate can get stuck.
theorem acknowledged_gated (contract : L.Contract) {front back ahead behind : List EspconnBuf} {m : Sender L} {err : Int} {lost' : Nat}
    (stream : Stream s front back 0 lost) (after : Stream m ahead behind 0 lost') (begun : Whole.Begun s pcb back m behind)
    (ends : Ends (fun turns => m.espconnTcpWrite turns) (t,err)) :
    Gated t ↔ Gated s ∧ (s.writeFlag = false → s.copyDisabled = false → ¬ Drains s pcb) := by
  have same : Gated m ↔ Gated s := Stream.gated_same begun.accepted begun.appended begun.writeFlag
  obtain ⟨ahead',left,written,wrote,writes,gate,shut⟩ := after.write_offered contract ends
  rw [begun.line,begun.pcb,begun.copyDisabled] at writes
  have flag : s.copyDisabled = false → t.writeFlag = s.writeFlag := fun copied =>
    (wrote.writeFlag (begun.copyDisabled.trans copied)).trans begun.writeFlag
  constructor
  · intro gated
    refine ⟨Classical.byContradiction fun no => shut (no ∘ same.mp) gated,fun closed copied drains => ?_⟩
    obtain ⟨front',back',next,left',err',queued,writes',none⟩ := drains
    obtain ⟨rfl,rfl⟩ := stream.lined.unique queued.1
    rw [copied] at writes
    obtain ⟨rfl,_⟩ := writes.unique writes'
    have open_ := gated (written.all_sent.mpr fun b member => none _ (List.mem_map_of_mem member))
    rw [flag copied,closed] at open_
    cases open_
  · rintro ⟨gated,minded⟩
    cases copied : s.copyDisabled with
    | true => exact gate (begun.copyDisabled.trans copied) (same.mpr gated)
    | false =>
      intro all
      rw [flag copied]
      cases closed : s.writeFlag with
      | true => rfl
      | false =>
        rw [copied] at writes
        refine absurd ⟨front,back,_,_,_,stream.queued,writes,fun bytes member => ?_⟩ (minded closed copied)
        obtain ⟨b,there,rfl⟩ := List.mem_map.mp member
        exact written.all_sent.mp all b there

theorem Whole.gated_acknowledged (contract : L.Contract) (whole : Whole lost s) (some_ : 0 < len.toNat)
    (acks : L.unacked pcb + len.toNat = L.unacked s.pcb)
    (ends : Ends (fun turns => (s.acknowledged pcb len).bind fun s => s.espconnTcpFinish turns script) t) :
    Gated t ↔ Gated s ∧ (s.writeFlag = false → s.copyDisabled = false → ¬ Drains s pcb) := by
  by_cases good : Gated s ∧ (s.writeFlag = false → s.copyDisabled = false → ¬ Drains s pcb)
  · refine iff_of_true ?_ good
    obtain ⟨_,_,_,yields⟩ := whole.acknowledges contract (Stream.carried_gated contract script) some_ acks
      fun stream after begun wrote => (acknowledged_gated contract stream after begun wrote).mpr good
    exact (yields.holds ends).2
  · refine iff_of_false ?_ good
    obtain ⟨_,_,_,yields⟩ := whole.acknowledges contract (Stream.carried_shut contract script) some_ acks
      fun stream after begun wrote => (not_congr (acknowledged_gated contract stream after begun wrote)).mpr good
    exact (yields.holds ends).2

theorem Whole.gated_step (contract : L.Contract) (whole : Whole lost s) (step : SendStep s event t) :
    Gated t ↔ Gated s ∧ Minded s event := by
  cases step with
  | act ends =>
    obtain ⟨_,front,back,stream,settled⟩ := whole
    have all : Ends (fun turns => s.obeyAll turns [_]) t := ends.bind (.done t)
    exact (stream.obeyAll_gated contract settled all).trans (and_iff_left trivial).symm
  | clientSent some_ acks ends => exact whole.gated_acknowledged contract some_ acks ends
  | serverSent some_ acks ends =>
    have result := Whole.gated_acknowledged (s := {s with recvCheck := 0}) contract whole.polled some_ acks ends
    exact result
  | lwip => exact (and_iff_left trivial).symm

theorem SendStep.alone {other : Sender L} (one : SendStep s event t) (two : SendStep s event other) : other = t := by
  cases one with
  | act ends => cases two with | act ends' => exact ends'.unique ends
  | clientSent _ _ ends => cases two with | clientSent _ _ ends' => exact ends'.unique ends
  | serverSent _ _ ends => cases two with | serverSent _ _ ends' => exact ends'.unique ends
  | lwip => cases two with | lwip => rfl

def MindedSendStep (s : Sender L) (event : Sending L) (t : Sender L) : Prop := Minded s event ∧ SendStep s event t

theorem run_gate (contract : L.Contract) {heap : Heap EspconnBuf} {num : UInt8} {copy callback : Bool} (quiet : L.unacked pcb = 0)
    (path : Runs SendStep (Sender.start heap pcb num copy callback) events s) : Gate s ↔ Gated s := by
  obtain ⟨_,_,_,_,stream,_⟩ := runs_whole contract quiet path
  exact stream.gate_iff

-- In a state of a run the gate works exactly when no acknowledgement on the way let
-- the last bytes go behind the back of the option bit. Once stuck it stays so.
theorem gate_works (contract : L.Contract) {heap : Heap EspconnBuf} {num : UInt8} {copy callback : Bool} (quiet : L.unacked pcb = 0)
    (path : Runs SendStep (Sender.start heap pcb num copy callback) events s) :
    Gate s ↔ Runs MindedSendStep (Sender.start heap pcb num copy callback) events s := by
  rw [run_gate contract quiet path]
  induction path with
  | nil => exact iff_of_true (fun _ => rfl) .nil
  | step prior step ih =>
    obtain ⟨lost,whole⟩ := runs_whole contract quiet prior
    refine (whole.gated_step contract step).trans ((and_congr_left' ih).trans ?_)
    constructor
    · rintro ⟨minded,now⟩
      exact minded.step ⟨now,step⟩
    · intro all
      obtain ⟨before,path,now,step'⟩ := all.last
      have same : Runs SendStep (Sender.start heap pcb num copy callback) _ before := path.mono fun minded => minded.2
      cases prior.unique same SendStep.alone
      exact ⟨path,now⟩

theorem shut_for_ever (contract : L.Contract) {heap : Heap EspconnBuf} {num : UInt8} {copy callback : Bool} (quiet : L.unacked pcb = 0)
    (path : Runs SendStep (Sender.start heap pcb num copy callback) events s) (shut : ¬ Gated s) {later : List (Sending L)}
    (onward : Runs SendStep s later t) : ¬ Gated t := by
  induction onward with
  | nil => exact shut
  | step prior step ih =>
    obtain ⟨lost,whole⟩ := runs_whole contract quiet (path.append prior)
    exact fun gated => ih ((whole.gated_step contract step).mp gated).1

theorem shut_refuses (shut : ¬ Gated s) {r : Request} {err : Int} (ends : Ends (fun turns => s.espconnSent turns r) (t,err)) :
    err = espconnArg := by
  have busy : s.writeFlag = false := by
    unfold Gated at shut
    simpa using (Classical.not_imp.mp shut).2
  have refused : Ends (fun turns => s.espconnSent turns r) (s,espconnArg) := by
    refine .always fun turns => ?_
    unfold Sender.espconnSent
    cases r.psent with
    | none => rfl
    | some bytes =>
      dsimp only
      split_ifs <;> rfl
  exact congrArg Prod.snd (ends.unique refused)

end Steps

-- An lwIP with a send buffer of two segments of two bytes.
def tinyWrite (pcb : Nat) (data : List UInt8) : Nat × Int :=
  if data.length ≤ 4 - pcb then (pcb + data.length,errOk) else (pcb,errMem)

def tinyLwip : Lwip where
  Pcb := Nat
  tcpSndBuf := 4
  tcpSndbuf pcb := UInt16.ofNat (4 - pcb)
  sndQueuelen pcb := (pcb + 1) / 2
  mss _ := 2
  tcpNagleDisabled _ := false
  tcpWrite pcb data _ := tinyWrite pcb data
  tcpOutput pcb := (pcb,errOk)
  unacked pcb := pcb

namespace tinyLwip
variable {pcb : Nat} {data : List UInt8}

theorem queues_all (ok : (tinyWrite pcb data).2 = errOk) : (tinyWrite pcb data).1 = pcb + data.length := by
  unfold tinyWrite at ok ⊢
  split_ifs at ok ⊢
  · rfl
  · cases ok

theorem queues_none (bad : (tinyWrite pcb data).2 ≠ errOk) : (tinyWrite pcb data).1 = pcb := by
  unfold tinyWrite at bad ⊢
  split_ifs at bad ⊢
  · exact absurd rfl bad
  · rfl

theorem contract : tinyLwip.Contract where
  mss_positive _ := Nat.zero_lt_succ 1
  queues_all _ _ _ ok := queues_all ok
  queues_none _ _ _ bad := queues_none bad
  output_queues_none _ := rfl
  room pcb quiet := by
    obtain rfl : pcb = Nat.zero := quiet
    exact ⟨by decide,by decide⟩

end tinyLwip

def sendFive (p : Ptr) (real : p ≠ null) : Request where
  psent := some [1,2,3,4,5]
  small _ given := by
    cases given
    decide
  found := true
  osZalloc h := if h.live p = true then none else some p
  fresh := roomy_fresh real

def tinyStart : Sender tinyLwip := .start ⟨fun _ => null,fun _ => ⟨[],[],0,0,0⟩,fun _ => false⟩ (0 : Nat) 8 true false

-- The bit left alone, the last byte opens the gate again.
theorem five_gate : ∃ s, Runs SendStep tinyStart [.act (.sent (sendFive 1 (by decide))),.clientSent (0 : Nat) 4 fun _ => []] s ∧ Gate s := by
  obtain ⟨s,path⟩ : ∃ s, Runs MindedSendStep tinyStart [.act (.sent (sendFive 1 (by decide))),.clientSent (0 : Nat) 4 fun _ => []] s :=
    ⟨_,.first ⟨trivial,.act (.late 20 fun _ => rfl)⟩ <|
      .first ⟨fun _ copied => (by cases copied),.clientSent (by decide) rfl (.late 20 fun _ => rfl)⟩ .nil⟩
  exact ⟨s,path.mono And.right,(gate_works tinyLwip.contract rfl (path.mono And.right)).mpr path⟩

-- Cleared before that, it is no longer opened, and nothing the application or lwIP
-- does later opens it.
theorem five_stuck : ∃ s, Runs SendStep tinyStart
    [.act (.sent (sendFive 1 (by decide))),.act (.setCopy false),.clientSent (0 : Nat) 4 fun _ => []] s ∧ ¬ Gate s ∧
    ∀ later t, Runs SendStep s later t → ¬ Gate t ∧
      ∀ r u err, Ends (fun turns => t.espconnSent turns r) (u,err) → err = espconnArg := by
  obtain ⟨s,path,shut⟩ : ∃ s, Runs SendStep tinyStart
      [.act (.sent (sendFive 1 (by decide))),.act (.setCopy false),.clientSent (0 : Nat) 4 fun _ => []] s ∧ ¬ Gated s :=
    ⟨_,.first (.act (.late 20 fun _ => rfl)) <| .first (.act (.late 20 fun _ => rfl)) <|
      .first (.clientSent (by decide) rfl (.late 20 fun _ => rfl)) .nil,fun gated => Bool.false_ne_true (gated rfl)⟩
  have quiet : tinyLwip.unacked (0 : Nat) = 0 := rfl
  refine ⟨s,path,(not_congr (run_gate tinyLwip.contract quiet path)).mpr shut,fun later t onward => ?_⟩
  have stays := shut_for_ever tinyLwip.contract quiet path shut onward
  exact ⟨(not_congr (run_gate tinyLwip.contract quiet (path.append onward))).mpr stays,fun r u err ends => shut_refuses stays ends⟩

end NonosLinkLayer.Espconn
