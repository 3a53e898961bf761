import NonosLinkLayer.Base.Transitions
import NonosLinkLayer.Espconn.Pbufs

namespace NonosLinkLayer.Espconn
open HeapList LinkPool RingQueue Transitions

-- What arrives in one call: a chain of pbufs to which no one else refers, and what
-- becomes of the memory of those that the loop over it deallocates.
structure Packet where
  pbufs : Pbufs
  first : Ptr
  cells : List Ptr
  arrived : pbufs.Arrived first cells
  real : first ≠ null
  small : (pbufs.payloads cells).flatten.length < 2^16
  leave : Leave
  turns : Nat

def Packet.segments (p : Packet) : List (List UInt8) := p.pbufs.payloads p.cells

def Packet.totLen (p : Packet) : UInt16 := UInt16.ofNat p.segments.flatten.length

structure Memory where
  header : Bool
  osZalloc : Nat → Option Block
  zeroed : ∀ n buf, osZalloc n = some buf → buf.bytes = List.replicate n 0

-- The receiving side of one connection. `delivered` and `recved` count the
-- bytes lwIP has delivered and those passed to tcp_recved; `handed` and
-- `ringed` tell where the bytes held back have gone since the hold began.
structure Receiver where
  recvHoldFlag : UInt8
  recvHoldedBufLen : UInt16
  readbuf : Option RingBuf
  recvCallback : Bool
  recvCheck : UInt32
  established : Bool
  delivered : Nat
  recved : Nat
  handed : Nat
  ringed : Nat

namespace Receiver

def tcpRecved (len : UInt16) (c : Receiver) : Receiver := {c with recved := c.recved + len.toNat}

def espconnRecvHold (c : Receiver) : Receiver :=
  if c.recvHoldFlag = 0 then {c with recvHoldFlag := 1,recvHoldedBufLen := 0,handed := 0,ringed := 0} else c

def espconnRecvUnhold (c : Receiver) : Receiver :=
  if c.recvHoldFlag = 1 then
    {c.tcpRecved c.recvHoldedBufLen with recvHoldedBufLen := 0,recvHoldFlag := 0,handed := 0,ringed := 0}
  else c

def withReadbuf (tcpWnd : UInt32) (memory : Memory) (c : Receiver) : Option RingBuf :=
  c.readbuf.or (RingBuf.ringbufNew memory.osZalloc memory.header tcpWnd)

def espconnLockRecv (tcpWnd : UInt32) (memory : Memory) (c : Receiver) : Receiver :=
  if c.recvCallback then c
  else
    match c.withReadbuf tcpWnd memory with
    | none => c
    | some rb => espconnRecvHold {c with readbuf := some rb}

def held (p : Packet) (c : Receiver) : Receiver :=
  {c with recvHoldedBufLen := c.recvHoldedBufLen + p.totLen,
          handed := if c.recvCallback then c.handed + p.segments.flatten.length else c.handed,
          ringed := if c.recvCallback then c.ringed else c.ringed + p.segments.flatten.length}

-- espconn_client_recv and espconn_server_recv, of which the server's resets a
-- timeout. What the callback does follows in steps of its own.
def recvCb (server : Bool) (tcpWnd : UInt32) (memory : Memory) (p : Option Packet) (err : Int) (c : Receiver) : Option Receiver :=
  let c := c.espconnLockRecv tcpWnd memory
  match p with
  | none => some c
  | some p =>
    let c : Receiver := {c with delivered := c.delivered + p.segments.flatten.length}
    let c : Receiver := if c.recvHoldFlag = 0 then c.tcpRecved p.totLen else c.held p
    if c.recvCallback then some (if server ∧ err = 0 then {c with recvCheck := 0} else c)
    else do
      let rb ← c.readbuf
      let (_,rb) ← Pbufs.storeLoop p.leave p.turns p.pbufs p.first rb
      pure {c with readbuf := some rb}

def espconnClientRecv : UInt32 → Memory → Option Packet → Int → Receiver → Option Receiver := recvCb false
def espconnServerRecv : UInt32 → Memory → Option Packet → Int → Receiver → Option Receiver := recvCb true

-- Without memory for a buffer the packet is refused and stays with lwIP.
def espconnTcpRecv (tcpWnd : UInt32) (memory : Memory) (p : Option Packet) (err : Int) (c : Receiver) : Option Receiver :=
  match c.withReadbuf tcpWnd memory with
  | none => some c
  | some rb =>
    match p with
    | none => some {c with readbuf := some rb,recvCheck := if err = 0 then 0 else c.recvCheck}
    | some p =>
      let c : Receiver := {c with delivered := c.delivered + p.segments.flatten.length}
      if err = 0 then do
        let (_,rb) ← Pbufs.storeLoop p.leave p.turns p.pbufs p.first rb
        pure {c with readbuf := some rb,recvCheck := 0}
      else some {c with readbuf := some rb}

-- The bytes returned are those copied to `mem`.
def espconnRecv (len : UInt32) (c : Receiver) : Option (Receiver × List UInt8) :=
  if len = 0 then some (c,[])
  else
    match c.readbuf with
    | none => some (c,[])
    | some rb =>
      let bytesUsed := int rb.ringbufBytesUsed
      if bytesUsed ≠ 0 then do
        let len := if int len.toNat > bytesUsed then sizeT bytesUsed else len.toNat
        let (rb,taken) ← rb.ringbufMemcpyFrom len
        let c : Receiver := {c with readbuf := some rb}
        pure (if c.established then c.tcpRecved (UInt16.ofNat len) else c,taken.elim [] Prod.fst)
      else some (c,[])

def espconnRegistRecvcb (recvCb : Bool) (c : Receiver) : Receiver := {c with recvCallback := recvCb}

def contents (c : Receiver) : List UInt8 := c.readbuf.elim [] RingBuf.contents
def unread (c : Receiver) : Nat := c.contents.length

def start (recvCallback established : Bool) : Receiver := ⟨0,0,none,recvCallback,0,established,0,0,0,0⟩

end Receiver

-- What can happen to the receiving side; the last is lwIP's pcb->state.
inductive Receipt where
  | clientRecv (memory : Memory) (p : Option Packet) (err : Int)
  | serverRecv (memory : Memory) (p : Option Packet) (err : Int)
  | tcpRecv (memory : Memory) (p : Option Packet) (err : Int)
  | recv (len : UInt32)
  | hold
  | unhold
  | registRecvcb (recvCb : Bool)
  | established (now : Bool)

def Receipt.perform (tcpWnd : UInt32) (c : Receiver) : Receipt → Option Receiver
  | .clientRecv memory p err => c.espconnClientRecv tcpWnd memory p err
  | .serverRecv memory p err => c.espconnServerRecv tcpWnd memory p err
  | .tcpRecv memory p err => c.espconnTcpRecv tcpWnd memory p err
  | .recv len => (c.espconnRecv len).map Prod.fst
  | .hold => some c.espconnRecvHold
  | .unhold => some c.espconnRecvUnhold
  | .registRecvcb recvCb => some (c.espconnRegistRecvcb recvCb)
  | .established now => some {c with established := now}

namespace Receiver
variable {tcpWnd : UInt32} {c next : Receiver} {rb filled : RingBuf} {memory : Memory} {p : Packet} {event : Receipt} {events : List Receipt}

-- What the receiving side is about: bytes taken by the application or handed
-- to it may be credited to the peer, and no others.
structure Credit (tcpWnd : UInt32) (c : Receiver) : Prop where
  ring : ∀ rb, c.readbuf = some rb → rb.Sound ∧ rb.ringbufCapacity = tcpWnd.toNat
  flag : c.recvHoldFlag = 0 ∨ c.recvHoldFlag = 1
  free : c.recvHoldFlag = 0 → c.handed = 0
  held : c.recvHoldedBufLen = UInt16.ofNat (c.handed + c.ringed)
  honest : c.recved + c.unread + c.handed ≤ c.delivered

-- The calls after which the window is still right: a hold is released only if
-- what came meanwhile was handed to the callback, a read that is credited asks for
-- a number of bytes that is positive as an int, and pbufs deallocated by the loop
-- over them stay as they are until it is through.
def Gentle (c : Receiver) : Receipt → Prop
  | .clientRecv _ (some p) _ | .serverRecv _ (some p) _ => c.recvCallback = false → p.leave = Pbufs.keep
  | .tcpRecv _ (some p) err => err = 0 → p.leave = Pbufs.keep
  | .unhold => c.recvHoldFlag = 1 → c.ringed = 0
  | .recv len => c.established = true → c.unread ≠ 0 → len.toNat < 2^31
  | _ => True

theorem length_contents_le (sound : rb.Sound) : rb.contents.length ≤ rb.ringbufCapacity := by
  rw [sound.length_contents,sound.used]
  exact Nat.sub_le _ _

theorem intoRing_contents (sound : rb.Sound) (segments : List (List UInt8)) (small : segments.flatten.length < 2^16) :
    ∃ next, intoRing rb segments = some next ∧ next.Sound ∧ next.ringbufCapacity = rb.ringbufCapacity ∧
      next.contents = push rb.ringbufCapacity rb.contents segments.flatten := by
  induction segments generalizing rb with
  | nil =>
    have all : push rb.ringbufCapacity rb.contents [] = rb.contents := by
      rw [push_all (by simpa using length_contents_le sound),List.append_nil]
    exact ⟨rb,rfl,sound,rfl,all.symm⟩
  | cons payload rest ih =>
    rw [List.flatten_cons,List.length_append] at small
    obtain ⟨mid,wrote,between,size,contents⟩ := RingBuf.ringbufMemcpyInto_contents sound (by omega : payload.length < 2^31)
    obtain ⟨next,others,after,capacity,final⟩ := ih between (by omega)
    have same : mid.ringbufCapacity = rb.ringbufCapacity := congrArg (fun n : Nat => sizeT (n - 1)) size
    refine ⟨next,?_,after,capacity.trans same,?_⟩
    · rw [intoRing,wrote]
      exact others
    · rw [final,contents,same,push_push,List.flatten_cons]

theorem unread_ring (there : c.readbuf = some rb) : c.unread = rb.contents.length := by
  rw [unread,contents,there]
  rfl

namespace Credit

theorem withReadbuf (credit : Credit tcpWnd c) (made : c.withReadbuf tcpWnd memory = some rb) :
    rb.Sound ∧ rb.ringbufCapacity = tcpWnd.toNat ∧ rb.contents = c.contents := by
  unfold Receiver.withReadbuf at made
  cases there : c.readbuf with
  | none =>
    rw [there,Option.none_or] at made
    obtain ⟨sound,empty,capacity⟩ := RingBuf.ringbufNew_sound memory.zeroed made
    refine ⟨sound,capacity,?_⟩
    rw [empty,contents,there]
    rfl
  | some old =>
    rw [there,Option.some_or] at made
    cases Option.some.inj made
    obtain ⟨sound,capacity⟩ := credit.ring _ there
    refine ⟨sound,capacity,?_⟩
    rw [contents,there]
    rfl

theorem rebuffered (credit : Credit tcpWnd c) (sound : rb.Sound) (capacity : rb.ringbufCapacity = tcpWnd.toNat)
    (same : rb.contents = c.contents) : Credit tcpWnd {c with readbuf := some rb} := by
  refine ⟨fun r equal => ?_,credit.flag,credit.free,credit.held,?_⟩
  · cases Option.some.inj equal
    exact ⟨sound,capacity⟩
  · have unread : Receiver.unread {c with readbuf := some rb} = c.unread := congrArg List.length same
    rw [unread]
    exact credit.honest

theorem hold (credit : Credit tcpWnd c) : Credit tcpWnd c.espconnRecvHold := by
  unfold espconnRecvHold
  split
  · have := credit.honest
    refine ⟨credit.ring,Or.inr rfl,fun _ => rfl,rfl,?_⟩
    change c.recved + c.unread + 0 ≤ c.delivered
    omega
  · exact credit

theorem hold_flag (credit : Credit tcpWnd c) : c.espconnRecvHold.recvHoldFlag = 1 := by
  unfold espconnRecvHold
  split
  · rfl
  · exact credit.flag.resolve_left ‹_›

theorem unhold (credit : Credit tcpWnd c) (gentle : Gentle c .unhold) : Credit tcpWnd c.espconnRecvUnhold := by
  unfold espconnRecvUnhold
  split
  · rename_i on
    have honest := credit.honest
    have less : c.recvHoldedBufLen.toNat ≤ c.handed := by
      rw [credit.held,gentle on,Nat.add_zero,UInt16.toNat_ofNat']
      exact Nat.mod_le ..
    refine ⟨credit.ring,Or.inl rfl,fun _ => rfl,rfl,?_⟩
    change c.recved + c.recvHoldedBufLen.toNat + c.unread + 0 ≤ c.delivered
    omega
  · exact credit

theorem lock (credit : Credit tcpWnd c) (memory : Memory) :
    ∃ locked, c.espconnLockRecv tcpWnd memory = locked ∧ Credit tcpWnd locked ∧ locked.recvCallback = c.recvCallback ∧
      locked.contents = c.contents ∧ locked.delivered = c.delivered ∧ locked.recved = c.recved ∧
      (c.recvCallback = false → ∀ rb, locked.readbuf = some rb → locked.recvHoldFlag = 1) := by
  unfold espconnLockRecv
  by_cases callback : c.recvCallback = true
  · rw [if_pos callback]
    exact ⟨c,rfl,credit,rfl,rfl,rfl,rfl,fun off => by cases callback.symm.trans off⟩
  · rw [if_neg callback]
    cases made : c.withReadbuf tcpWnd memory with
    | none =>
      have none : c.readbuf = none := by
        unfold Receiver.withReadbuf at made
        exact (Option.or_eq_none_iff.mp made).1
      exact ⟨c,rfl,credit,rfl,rfl,rfl,rfl,fun _ rb there => by cases none.symm.trans there⟩
    | some rb =>
      obtain ⟨sound,capacity,same⟩ := credit.withReadbuf made
      have buffered := credit.rebuffered sound capacity same
      have still : ∀ c : Receiver, c.espconnRecvHold.recvCallback = c.recvCallback ∧ c.espconnRecvHold.contents = c.contents ∧
          c.espconnRecvHold.delivered = c.delivered ∧ c.espconnRecvHold.recved = c.recved := by
        intro c
        unfold espconnRecvHold
        split <;> exact ⟨rfl,rfl,rfl,rfl⟩
      obtain ⟨cb,bytes,delivered,recved⟩ := still {c with readbuf := some rb}
      exact ⟨_,rfl,buffered.hold,cb,bytes.trans same,delivered,recved,fun _ _ _ => buffered.hold_flag⟩

theorem totLen_toNat (p : Packet) : p.totLen.toNat = p.segments.flatten.length := by
  rw [Packet.totLen,UInt16.toNat_ofNat']
  exact Nat.mod_eq_of_lt p.small

theorem to_callback (credit : Credit tcpWnd c) (callback : c.recvCallback = true) (p : Packet) :
    Credit tcpWnd (if c.recvHoldFlag = 0 then {c with delivered := c.delivered + p.segments.flatten.length}.tcpRecved p.totLen
      else {c with delivered := c.delivered + p.segments.flatten.length}.held p) := by
  have honest := credit.honest
  have length := totLen_toNat p
  by_cases off : c.recvHoldFlag = 0
  · rw [if_pos off]
    refine ⟨credit.ring,credit.flag,credit.free,credit.held,?_⟩
    change c.recved + p.totLen.toNat + c.unread + c.handed ≤ c.delivered + p.segments.flatten.length
    omega
  · rw [if_neg off]
    unfold Receiver.held
    rw [if_pos callback,if_pos callback]
    refine ⟨credit.ring,credit.flag,fun on => absurd on off,?_,?_⟩
    · dsimp only
      rw [credit.held,Packet.totLen,←UInt16.ofNat_add]
      congr 1
      omega
    · change c.recved + c.unread + (c.handed + p.segments.flatten.length) ≤ c.delivered + p.segments.flatten.length
      omega

theorem to_ring (credit : Credit tcpWnd c) (there : c.readbuf = some rb) (bytes : List UInt8) (sound : filled.Sound)
    (capacity : filled.ringbufCapacity = rb.ringbufCapacity) (contents : filled.contents = push rb.ringbufCapacity rb.contents bytes)
    (ringed : Nat) (heldLen : UInt16) (held : heldLen = UInt16.ofNat (c.handed + ringed)) :
    Credit tcpWnd {c with delivered := c.delivered + bytes.length,readbuf := some filled,ringed,recvHoldedBufLen := heldLen} := by
  have honest := credit.honest
  refine ⟨fun r equal => ?_,credit.flag,credit.free,held,?_⟩
  · cases Option.some.inj equal
    exact ⟨sound,capacity.trans (credit.ring rb there).2⟩
  · have most : filled.contents.length ≤ c.unread + bytes.length := by
      rw [contents,push,length_rtake,List.length_append,unread_ring there]
      exact Nat.min_le_right _ _
    change c.recved + filled.contents.length + c.handed ≤ c.delivered + bytes.length
    omega

def Stored (tcpWnd : UInt32) (c next : Receiver) (p : Option Packet) : Prop :=
  next.contents = c.contents ∨ ∃ packet, p = some packet ∧ next.contents = push tcpWnd.toNat c.contents packet.segments.flatten

theorem to_held_ring (credit : Credit tcpWnd c) (off : ¬c.recvCallback = true) (there : c.readbuf = some rb) (p : Packet)
    (wrote : intoRing rb p.segments = some filled) :
    let d := Receiver.held p {c with delivered := c.delivered + p.segments.flatten.length}
    Credit tcpWnd {d with readbuf := some filled} ∧ filled.contents = push tcpWnd.toNat c.contents p.segments.flatten := by
  obtain ⟨sound,capacity⟩ := credit.ring rb there
  obtain ⟨_,wrote',after,size,bytes⟩ := intoRing_contents sound p.segments p.small
  cases Option.some.inj (wrote.symm.trans wrote')
  have held : Receiver.held p {c with delivered := c.delivered + p.segments.flatten.length} =
      {c with delivered := c.delivered + p.segments.flatten.length,recvHoldedBufLen := c.recvHoldedBufLen + p.totLen,
              ringed := c.ringed + p.segments.flatten.length} := by
    unfold Receiver.held
    rw [if_neg off,if_neg off]
  dsimp only
  rw [held]
  refine ⟨credit.to_ring there p.segments.flatten after size bytes _ _ ?_,?_⟩
  · rw [credit.held,Packet.totLen,←UInt16.ofNat_add,Nat.add_assoc]
  · have old : c.contents = rb.contents := by rw [Receiver.contents,there]; rfl
    rw [old,←capacity]
    exact bytes

theorem recvCb (credit : Credit tcpWnd c) {server : Bool} {p : Option Packet} {err : Int}
    (keeps : ∀ packet, p = some packet → c.recvCallback = false → packet.leave = Pbufs.keep) (run : Receiver.recvCb server tcpWnd memory p err c = some next) : Credit tcpWnd next ∧ Stored tcpWnd c next p := by
  obtain ⟨locked,same,locked_credit,_,contents,_,_,holds⟩ := credit.lock memory
  have callback : locked.recvCallback = c.recvCallback := ‹_›
  unfold Receiver.recvCb at run
  rw [same] at run
  cases p with
  | none =>
    cases Option.some.inj run
    exact ⟨locked_credit,Or.inl contents⟩
  | some p =>
    dsimp only at run
    by_cases on : c.recvCallback = true
    · have handed := locked_credit.to_callback (callback.trans on) p
      have after : ∀ d : Receiver, Credit tcpWnd d → Credit tcpWnd (if server = true ∧ err = 0 then {d with recvCheck := 0} else d) := by
        intro d credit
        split
        · exact ⟨credit.ring,credit.flag,credit.free,credit.held,credit.honest⟩
        · exact credit
      generalize result : (if locked.recvHoldFlag = 0 then
        {locked with delivered := locked.delivered + p.segments.flatten.length}.tcpRecved p.totLen
        else {locked with delivered := locked.delivered + p.segments.flatten.length}.held p) = d at run handed
      have kept : d.recvCallback = true ∧ d.contents = locked.contents := by
        rw [←result]
        split <;> exact ⟨callback.trans on,rfl⟩
      rw [if_pos kept.1] at run
      cases Option.some.inj run
      refine ⟨after d handed,Or.inl ?_⟩
      have bytes : Receiver.contents (if server = true ∧ err = 0 then {d with recvCheck := 0} else d) = d.contents := by
        split <;> rfl
      exact bytes.trans (kept.2.trans contents)
    · have off : ¬locked.recvCallback = true := fun off => on (callback.symm.trans off)
      cases there : locked.readbuf with
      | none =>
        generalize result : (if locked.recvHoldFlag = 0 then
          {locked with delivered := locked.delivered + p.segments.flatten.length}.tcpRecved p.totLen
          else {locked with delivered := locked.delivered + p.segments.flatten.length}.held p) = d at run
        have kept : d.recvCallback = locked.recvCallback ∧ d.readbuf = locked.readbuf := by
          rw [←result]
          split <;> exact ⟨rfl,rfl⟩
        rw [kept.1,if_neg off,kept.2,there] at run
        cases run
      | some rb =>
        have held_on : ¬locked.recvHoldFlag = 0 := by
          rw [holds (by simpa using on) rb there]
          decide
        have still : ∀ d : Receiver, (Receiver.held p d).recvCallback = d.recvCallback ∧ (Receiver.held p d).readbuf = d.readbuf :=
          fun _ => ⟨rfl,rfl⟩
        rw [if_neg held_on,(still _).1,if_neg off] at run
        dsimp only [Option.bind_eq_bind] at run
        rw [(still _).2,there,Option.bind_some] at run
        obtain ⟨⟨_,filled⟩,loop,run⟩ := Option.bind_eq_some_iff.mp run
        cases Option.some.inj run
        rw [keeps p rfl (by simpa using on)] at loop
        obtain ⟨after,bytes⟩ := locked_credit.to_held_ring off there p (Pbufs.storeLoop_kept p.arrived loop)
        exact ⟨after,Or.inr ⟨p,rfl,contents ▸ bytes⟩⟩

theorem tcpRecv (credit : Credit tcpWnd c) {p : Option Packet} {err : Int}
    (keeps : ∀ packet, p = some packet → err = 0 → packet.leave = Pbufs.keep) (run : Receiver.espconnTcpRecv tcpWnd memory p err c = some next) : Credit tcpWnd next ∧ Stored tcpWnd c next p := by
  unfold Receiver.espconnTcpRecv at run
  cases made : c.withReadbuf tcpWnd memory with
  | none =>
    rw [made] at run
    cases Option.some.inj run
    exact ⟨credit,Or.inl rfl⟩
  | some rb =>
    rw [made] at run
    obtain ⟨sound,capacity,same⟩ := credit.withReadbuf made
    have buffered := credit.rebuffered sound capacity same
    cases p with
    | none =>
      cases Option.some.inj run
      exact ⟨⟨buffered.ring,buffered.flag,buffered.free,buffered.held,buffered.honest⟩,Or.inl same⟩
    | some p =>
      dsimp only at run
      split at run
      · obtain ⟨⟨_,filled⟩,loop,run⟩ := Option.bind_eq_some_iff.mp run
        cases Option.some.inj run
        rw [keeps p rfl ‹_›] at loop
        have wrote := Pbufs.storeLoop_kept p.arrived loop
        obtain ⟨_,wrote',after,size,bytes⟩ := intoRing_contents sound p.segments p.small
        cases Option.some.inj (wrote.symm.trans wrote')
        have ringed := buffered.to_ring rfl p.segments.flatten after size bytes c.ringed c.recvHoldedBufLen credit.held
        refine ⟨⟨ringed.ring,ringed.flag,ringed.free,ringed.held,ringed.honest⟩,Or.inr ⟨p,rfl,?_⟩⟩
        rw [←same,←capacity]
        exact bytes
      · cases Option.some.inj run
        have honest := buffered.honest
        refine ⟨⟨buffered.ring,buffered.flag,buffered.free,buffered.held,?_⟩,Or.inl same⟩
        exact Nat.le_trans honest (Nat.le_add_right _ _)

theorem memcpyFrom_either (sound : rb.Sound) (n : Nat) :
    ∃ drained out, rb.ringbufMemcpyFrom n = some (drained,out) ∧ drained.Sound ∧
      drained.ringbufCapacity = rb.ringbufCapacity ∧
      (drained.contents.length + n ≤ rb.contents.length ∨ drained = rb ∧ rb.contents.length < n) := by
  by_cases more : rb.contents.length < n
  · exact ⟨rb,none,RingBuf.ringbufMemcpyFrom_refused sound more,sound,rfl,Or.inr ⟨rfl,more⟩⟩
  · obtain ⟨drained,took,after,size,left⟩ := RingBuf.ringbufMemcpyFrom_contents sound (Nat.le_of_not_lt more)
    refine ⟨drained,_,took,after,congrArg (fun n : Nat => sizeT (n - 1)) size,Or.inl ?_⟩
    rw [left,List.length_drop]
    omega

theorem recv (credit : Credit tcpWnd c) {len : UInt32} {taken : List UInt8} (gentle : Gentle c (.recv len))
    (run : c.espconnRecv len = some (next,taken)) : Credit tcpWnd next := by
  unfold espconnRecv at run
  split at run
  · cases Option.some.inj run
    exact credit
  · cases there : c.readbuf with
    | none =>
      rw [there] at run
      cases Option.some.inj run
      exact credit
    | some rb =>
      obtain ⟨sound,capacity⟩ := credit.ring rb there
      have small := sound.small
      have less := sound.used_lt
      have used : int rb.ringbufBytesUsed = rb.ringbufBytesUsed := int_small (by omega)
      have unread : c.unread = rb.ringbufBytesUsed := (unread_ring there).trans sound.length_contents
      rw [there] at run
      dsimp only at run
      rw [used] at run
      split at run
      · rename_i some_bytes
        generalize wanted : (if int len.toNat > rb.ringbufBytesUsed then sizeT rb.ringbufBytesUsed else len.toNat) = n at run
        have honest := credit.honest
        have held := credit.held
        obtain ⟨drained,out,took,after,same,shorter⟩ := memcpyFrom_either sound n
        rw [took] at run
        cases Option.some.inj run
        have ring : ∀ r, some drained = some r → r.Sound ∧ r.ringbufCapacity = tcpWnd.toNat := by
          intro r equal
          cases Option.some.inj equal
          exact ⟨after,same.trans capacity⟩
        have before : c.unread = rb.contents.length := unread_ring there
        split
        · rename_i established
          -- A length that is negative as an int is not cut to what is there.
          have len_small : len.toNat < 2^31 := gentle established (by omega)
          rw [int_small len_small] at wanted
          have fits : n ≤ rb.contents.length := by
            have cut : sizeT rb.ringbufBytesUsed = rb.ringbufBytesUsed := sizeT_small (by omega)
            rw [sound.length_contents,←wanted]
            split <;> omega
          have credited : (UInt16.ofNat n).toNat ≤ n := by
            rw [UInt16.toNat_ofNat']
            exact Nat.mod_le ..
          refine ⟨ring,credit.flag,credit.free,held,?_⟩
          change c.recved + (UInt16.ofNat n).toNat + drained.contents.length + c.handed ≤ c.delivered
          omega
        · refine ⟨ring,credit.flag,credit.free,held,?_⟩
          change c.recved + drained.contents.length + c.handed ≤ c.delivered
          rcases shorter with less | ⟨rfl,_⟩ <;> omega
      · cases Option.some.inj run
        exact credit

theorem perform (credit : Credit tcpWnd c) (gentle : Gentle c event) (run : event.perform tcpWnd c = some next) :
    Credit tcpWnd next := by
  cases event with
  | clientRecv memory p err | serverRecv memory p err =>
    refine (credit.recvCb ?_ run).1
    rintro packet rfl
    exact gentle
  | tcpRecv memory p err =>
    refine (credit.tcpRecv ?_ run).1
    rintro packet rfl
    exact gentle
  | recv len =>
    obtain ⟨⟨_,taken⟩,read,rfl⟩ := Option.map_eq_some_iff.mp run
    exact credit.recv gentle read
  | hold =>
    cases Option.some.inj run
    exact credit.hold
  | unhold =>
    cases Option.some.inj run
    exact credit.unhold gentle
  | registRecvcb recvCb =>
    cases Option.some.inj run
    exact ⟨credit.ring,credit.flag,credit.free,credit.held,credit.honest⟩
  | established now =>
    cases Option.some.inj run
    exact ⟨credit.ring,credit.flag,credit.free,credit.held,credit.honest⟩

theorem start (tcpWnd : UInt32) (recvCallback established : Bool) : Credit tcpWnd (start recvCallback established) :=
  ⟨fun _ there => absurd there.symm (Option.some_ne_none _),Or.inl rfl,fun _ => rfl,rfl,Nat.le_refl _⟩

end Credit

def Brings : Receipt → Option Packet
  | .clientRecv _ p _ => p
  | .serverRecv _ p _ => p
  | .tcpRecv _ p _ => p
  | _ => none

def Step (tcpWnd : UInt32) (c : Receiver) (event : Receipt) (next : Receiver) : Prop := event.perform tcpWnd c = some next
def GentleStep (tcpWnd : UInt32) (c : Receiver) (event : Receipt) (next : Receiver) : Prop :=
  Gentle c event ∧ event.perform tcpWnd c = some next

-- As long as holds are released and reads made in this way, bytes that nobody
-- has taken are not credited, and a peer that keeps to the window loses none.
theorem window_honest {recvCallback established : Bool} (path : Runs (GentleStep tcpWnd) (start recvCallback established) events c) :
    c.recved + c.unread ≤ c.delivered ∧
    ∀ event p next, Brings event = some p → GentleStep tcpWnd c event next →
      c.delivered + p.segments.flatten.length ≤ c.recved + tcpWnd.toNat →
      next.contents = c.contents ∨ next.contents = c.contents ++ p.segments.flatten := by
  have credit : Credit tcpWnd c := path.keeps (.start tcpWnd recvCallback established) fun credit step => credit.perform step.1 step.2
  have honest := credit.honest
  refine ⟨by omega,?_⟩
  rintro event p next brings ⟨gentle,run⟩ window
  have stored : Credit.Stored tcpWnd c next (some p) := by
    cases event with
    | clientRecv memory _ err =>
      cases brings
      have run : Receiver.recvCb false tcpWnd memory (some p) err c = some next := run
      exact (credit.recvCb (fun _ same => Option.some.inj same ▸ gentle) run).2
    | serverRecv memory _ err =>
      cases brings
      have run : Receiver.recvCb true tcpWnd memory (some p) err c = some next := run
      exact (credit.recvCb (fun _ same => Option.some.inj same ▸ gentle) run).2
    | tcpRecv memory _ err =>
      cases brings
      have run : Receiver.espconnTcpRecv tcpWnd memory (some p) err c = some next := run
      exact (credit.tcpRecv (fun _ same => Option.some.inj same ▸ gentle) run).2
    | _ => cases brings
  rcases stored with same | ⟨_,⟨⟩,stored⟩
  · exact Or.inl same
  · rw [push_all (by unfold unread at honest; omega)] at stored
    exact Or.inr stored

def enoughMemory : Memory := ⟨true,RingBuf.heapBlock,RingBuf.heapBlock_zeroed⟩
def onePbuf : Pbufs := ⟨⟨fun _ => null,fun _ => ⟨[0,1,2,3,4,5,6,7,8,9],1⟩,fun p => p == 1⟩,[],[]⟩

theorem onePbuf_arrived : onePbuf.Arrived 1 [1] := by
  refine ⟨⟨?_,by decide,by decide⟩,by decide,rfl,rfl⟩
  simp [LinkPool.Path,onePbuf,null]

def tenBytes : Packet := ⟨onePbuf,1,[1],onePbuf_arrived,by decide,by decide,Pbufs.keep,3⟩

theorem first_ringed : ∃ filled : RingBuf, filled.contents.length = 10 ∧
    Step 2144 (start false true) (.clientRecv enoughMemory (some tenBytes) 0) ⟨1,10,some filled,false,0,true,10,0,0,10⟩ := by
  obtain ⟨rb,made⟩ : ∃ rb, RingBuf.ringbufNew enoughMemory.osZalloc enoughMemory.header 2144 = some rb := ⟨_,rfl⟩
  obtain ⟨sound,empty,capacity⟩ := RingBuf.ringbufNew_sound enoughMemory.zeroed made
  obtain ⟨filled,wrote,_,_,contents⟩ := intoRing_contents sound tenBytes.segments tenBytes.small
  have room : rb.contents.length + tenBytes.segments.flatten.length ≤ rb.ringbufCapacity := by
    rw [empty,capacity]
    decide
  refine ⟨filled,?_,?_⟩
  · rw [contents,push_all room,empty]
    rfl
  · have locked : (start false true).espconnLockRecv 2144 enoughMemory = ⟨1,0,some rb,false,0,true,0,0,0,0⟩ := by
      have given : (start false true).withReadbuf 2144 enoughMemory = some rb := made
      unfold espconnLockRecv
      rw [given]
      rfl
    obtain ⟨m,loop,_⟩ := @Pbufs.kept_stored onePbuf 1 [] 3 rb onePbuf_arrived (by decide)
    have run : Receiver.recvCb false 2144 enoughMemory (some tenBytes) 0 (start false true) =
        some ⟨1,10,some filled,false,0,true,10,0,0,10⟩ := by
      unfold Receiver.recvCb
      rw [locked]
      change (Pbufs.storeLoop Pbufs.keep 3 onePbuf 1 rb).bind _ = _
      rw [loop]
      change ((intoRing rb tenBytes.segments).map _).bind _ = _
      rw [wrote]
      rfl
    exact run

-- Ten bytes that come before there is a callback, and a hold that is released
-- while they are still in the buffer.
theorem window_dishonest : ¬∀ tcpWnd recvCallback established events c,
    Runs (Step tcpWnd) (start recvCallback established) events c → c.recved + c.unread ≤ c.delivered := by
  intro honest
  obtain ⟨filled,length,arrived⟩ := first_ringed
  have released : Step 2144 ⟨1,10,some filled,false,0,true,10,0,0,10⟩ .unhold ⟨0,0,some filled,false,0,true,10,10,0,0⟩ := rfl
  have wrong := honest 2144 false true _ _ ((Runs.single arrived).step released)
  have unread : Receiver.unread ⟨0,0,some filled,false,0,true,10,10,0,0⟩ = 10 := length
  rw [unread] at wrong
  have wrong : 10 + 10 ≤ 10 := wrong
  exact absurd wrong (by decide)

-- Ten bytes handed to the callback under a hold.
theorem window_honest_held : ∃ c, Runs (GentleStep 2144) (start true true)
    [.hold,.clientRecv enoughMemory (some tenBytes) 0,.unhold] c ∧ c.recved = 10 ∧ c.recved + c.unread ≤ c.delivered := by
  have hold : GentleStep 2144 (start true true) .hold ⟨1,0,none,true,0,true,0,0,0,0⟩ := ⟨trivial,rfl⟩
  have arrived : GentleStep 2144 ⟨1,0,none,true,0,true,0,0,0,0⟩ (.clientRecv enoughMemory (some tenBytes) 0)
    ⟨1,10,none,true,0,true,10,0,10,0⟩ := ⟨fun _ => rfl,rfl⟩
  have unhold : GentleStep 2144 ⟨1,10,none,true,0,true,10,0,10,0⟩ .unhold ⟨0,0,none,true,0,true,10,10,0,0⟩ := ⟨fun _ => rfl,rfl⟩
  have path := ((Runs.single hold).step arrived).step unhold
  exact ⟨_,path,rfl,(window_honest path).1⟩

end Receiver

end NonosLinkLayer.Espconn
