import NonosLinkLayer.Espconn.Offers
import NonosLinkLayer.Espconn.Delivery

namespace NonosLinkLayer.Espconn
open HeapList Turns Transitions

-- The list, its cursor and the gate are as they were, and no payload was put in
-- line. One that is there goes to tcp_write in its turn.
structure AsBefore {L : Lwip} (s t : Sender L) : Prop where
  pbuf : ∀ cells, Chain t.heap t.pbuf cells ↔ Chain s.heap s.pbuf cells
  ptail : t.ptail = s.ptail
  writeFlag : t.writeFlag = s.writeFlag
  appended : t.appended = s.appended

def AtomicOnError {L : Lwip} (s : Sender L) (r : Request) : Prop :=
  ∀ t err, Ends (fun turns => s.espconnSent turns r) (t,err) → err ≠ errOk → AsBefore s t

def Declined {L : Lwip} (s : Sender L) (back : List EspconnBuf) (r : Request) : Prop :=
  ∃ bytes next left err, r.psent = some bytes ∧
    Writes L s.copyDisabled s.pcb (back.map EspconnBuf.punsent ++ [bytes]) next left err ∧ err ≠ errOk

-- The calls that leave no trace of themselves when they return an error are those
-- refused at the door, and those lwIP takes everything from that it has room for.
theorem sent_atomic {L : Lwip} (sized : L.Sized) {s : Sender L} (queued : Queued s front back) (r : Request) :
    AtomicOnError s r ↔ Refused s r ∨ ¬ Declined s back r := by
  rcases queued.sent sized r with ⟨refused,same⟩ | ⟨goes,bytes,psent,yields⟩
  · refine iff_of_true (fun t err ends _ => ?_) (.inl refused)
    have equal : t = s := same.holds ends
    subst equal
    exact ⟨fun _ => Iff.rfl,rfl,rfl,rfl⟩
  · obtain ⟨⟨t,err⟩,⟨m,behind,created,wrote,_,left,_,writes,_⟩,ends⟩ := yields
    rw [created.line,created.pcb,created.copyDisabled] at writes
    have longer : t.appended ≠ s.appended := by
      rw [wrote.appended,created.appended]
      simp
    constructor
    · intro atomic
      refine .inr ?_
      rintro ⟨bytes',next,left',err',psent',writes',bad⟩
      cases psent.symm.trans psent'
      obtain ⟨_,same⟩ := writes.unique writes'
      rw [←same] at bad
      exact longer (atomic t err ends bad).appended
    · rintro (refused | taken) t' err' ends' bad
      · exact absurd refused goes
      · cases ends.unique ends'
        exact absurd ⟨bytes,_,_,err,psent,writes,bad⟩ taken

def sendFew (p : Ptr) (real : p ≠ null) : Request where
  psent := some [1,2,3]
  small _ given := by
    cases given
    decide
  found := true
  osZalloc h := if h.live p = true then none else some p
  fresh := roomy_fresh real

theorem start_queued {L : Lwip} (heap : Heap EspconnBuf) (pcb : L.Pcb) (num : UInt8) (copy callback : Bool) :
    Queued (Sender.start heap pcb num copy callback) [] [] :=
  ⟨⟨[],[],.empty heap,rfl,rfl,rfl⟩,by simp⟩

def sendUnbuffered : Request where
  psent := some [1,2,3]
  small _ given := by
    cases given
    decide
  found := true
  osZalloc _ := none
  fresh _ p given := absurd given.symm (Option.some_ne_none p)

-- The first three bytes wait for their acknowledgement when the call is refused.
theorem unbuffered_atomic : ∃ t : Sender plainLwip,
    Ends (fun turns => zerosStart.espconnSent turns (sendFew 1 (by decide))) (t,errOk) ∧ t.appended = [[1,2,3]] ∧
    Ends (fun turns => t.espconnSent turns sendUnbuffered) (t,espconnMem) ∧ AtomicOnError t sendUnbuffered := by
  have first : Ends (fun turns => zerosStart.espconnSent turns (sendFew 1 (by decide))) (_,errOk) := .late 20 fun _ => rfl
  refine ⟨_,first,rfl,.late 20 fun _ => rfl,?_⟩
  rcases (start_queued ..).sent plainLwip.contract.mss_positive (sendFew 1 (by decide)) with ⟨_,t,same,ends⟩ | ⟨_,_,_,t,goes,ends⟩
  · cases ends.unique first
    exact absurd (congrArg Sender.appended same) (by decide)
  · cases ends.unique first
    obtain ⟨_,_,_,_,_,_,queued,_⟩ := goes
    exact (sent_atomic plainLwip.contract.mss_positive queued sendUnbuffered).mpr (.inl (.inr (.inr (.inr (.inr rfl)))))

-- An lwIP like the other one that has no memory while the flag of its pcb is down.
def moody : Lwip where
  Pcb := Nat × Bool
  tcpSndBuf := 2920
  tcpSndbuf pcb := UInt16.ofNat (2920 - pcb.1)
  sndQueuelen pcb := (pcb.1 + 1459) / 1460
  mss _ := 1460
  tcpNagleDisabled _ := false
  tcpWrite pcb data _ := if pcb.2 = true then (((plainWrite pcb.1 data).1,true),(plainWrite pcb.1 data).2) else (pcb,errMem)
  tcpOutput pcb := (pcb,errOk)
  unacked pcb := pcb.1

def moodyStart : Sender moody := .start ⟨fun _ => null,fun _ => ⟨[],[],0,0,0⟩,fun _ => false⟩ (0,false) 8 false true

-- espconn_sent tells of no memory, and the application does as told: it calls again
-- with the same bytes when there is some. They are sent twice.
theorem few_sent_twice : ∃ t u : Sender moody,
    Ends (fun turns => moodyStart.espconnSent turns (sendFew 1 (by decide))) (t,errMem) ∧ t.ptail ≠ moodyStart.ptail ∧
    SendStep t (.lwip ((0,true) : Nat × Bool)) {t with pcb := ((0,true) : Nat × Bool)} ∧
    Ends (fun turns => ({t with pcb := ((0,true) : Nat × Bool)} : Sender moody).espconnSent turns (sendFew 2 (by decide))) (u,errOk) ∧
    u.accepted = [1,2,3,1,2,3] ∧ ¬ AtomicOnError moodyStart (sendFew 1 (by decide)) := by
  have first : Ends (fun turns => moodyStart.espconnSent turns (sendFew 1 (by decide))) (_,errMem) := .late 20 fun _ => rfl
  refine ⟨_,_,first,?_,.lwip rfl,.late 20 fun _ => rfl,rfl,fun atomic => ?_⟩
  · decide
  · exact absurd (atomic _ _ first (by decide)).ptail (by decide)

end NonosLinkLayer.Espconn
