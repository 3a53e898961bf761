import NonosLinkLayer.Base.HeapQueue
import NonosLinkLayer.Base.Transitions
import NonosLinkLayer.Base.Turns

namespace NonosLinkLayer.Espconn
open HeapList Turns

-- A pointer into the payload is the list of the bytes from there on.
structure EspconnBuf where
  payload : List UInt8
  punsent : List UInt8
  unsent : UInt16
  len : UInt16
  totLen : UInt16

def errOk : Int := 0
def errMem : Int := -1
def espconnMem : Int := -1
def espconnMaxnum : Int := -7
def espconnArg : Int := -12
def tcpSndQueuelen : Nat := 8

-- What the code uses of lwIP. The code does not read the size of the send buffer
-- nor `unacked`: that many bytes were queued and are not yet acknowledged.
structure Lwip where
  Pcb : Type
  tcpSndBuf : Nat
  tcpSndbuf : Pcb → UInt16
  sndQueuelen : Pcb → Nat
  mss : Pcb → UInt16
  tcpNagleDisabled : Pcb → Bool
  tcpWrite : Pcb → List UInt8 → Bool → Pcb × Int
  tcpOutput : Pcb → Pcb × Int
  unacked : Pcb → Nat

structure Lwip.Contract (L : Lwip) : Prop where
  mss_positive : ∀ pcb, 0 < (L.mss pcb).toNat
  queues_all : ∀ pcb data copy, (L.tcpWrite pcb data copy).2 = errOk →
    L.unacked (L.tcpWrite pcb data copy).1 = L.unacked pcb + data.length
  queues_none : ∀ pcb data copy, (L.tcpWrite pcb data copy).2 ≠ errOk →
    L.unacked (L.tcpWrite pcb data copy).1 = L.unacked pcb
  output_queues_none : ∀ pcb, L.unacked (L.tcpOutput pcb).1 = L.unacked pcb
  room : ∀ pcb, L.unacked pcb = 0 → 0 < (L.tcpSndbuf pcb).toNat ∧ L.sndQueuelen pcb < tcpSndQueuelen

-- The part of an espconn_msg that sends. `copyDisabled` is the option bit
-- ESPCONN_COPY as the macro of that name reads it. The last five fields record
-- what happened: the payloads appended to pbuf, the bytes accepted by tcp_write,
-- the payloads of the buffers removed from pbuf, the lengths that the calls of
-- sent_callback found in packet_info, and the bytes acknowledged.
structure Sender (L : Lwip) where
  heap : Heap EspconnBuf
  pbuf : Ptr
  ptail : Ptr
  pcb : L.Pcb
  pbufNum : UInt8
  writeFlag : Bool
  copyDisabled : Bool
  sentLength : UInt16
  recvCheck : Nat
  sentCallback : Bool
  appended : List (List UInt8)
  accepted : List UInt8
  removed : List (List UInt8)
  called : List UInt16
  reported : Nat

structure Request where
  psent : Option (List UInt8)
  small : ∀ bytes, psent = some bytes → bytes.length < 65536
  found : Bool
  osZalloc : Heap EspconnBuf → Option Ptr
  fresh : ∀ h p, osZalloc h = some p → h.Fresh p

inductive Act where
  | sent (request : Request)
  | setCopy (disabled : Bool)
  | setBufCount (num : UInt8)

namespace Sender
variable {L : Lwip}

def retryLoop (L : Lwip) (copy : Bool) (psent : List UInt8) : Nat → L.Pcb → UInt16 → Option (L.Pcb × UInt16 × Int)
  | 0,_,_ => none
  | turns+1,pcb,len =>
    let (pcb,err) := L.tcpWrite pcb (psent.take len.toNat) copy
    if err = errMem then
      let len := if len < 3 then len - 1 else len / 2
      if len > 0 then retryLoop L copy psent turns pcb len else some (pcb,len,err)
    else some (pcb,len,err)

def espconnTcpSent (turns : Nat) (s : Sender L) (psent : List UInt8) (length : UInt16) : Option (Sender L × Int) :=
  if length = 0 then some (s,espconnArg)
  else do
    let len := if L.tcpSndbuf s.pcb < length then L.tcpSndbuf s.pcb else length
    let len := if len.toNat > 2 * (L.mss s.pcb).toNat then UInt16.ofNat (2 * (L.mss s.pcb).toNat) else len
    let (pcb,len,err) ← retryLoop L s.copyDisabled psent turns s.pcb len
    if err = errOk then do
      let b ← s.heap.node s.ptail
      let heap ← s.heap.store s.ptail {b with punsent := psent.drop len.toNat,unsent := length - len}
      let (pcb,err) := L.tcpOutput pcb
      let writeFlag := if s.copyDisabled = true ∧ length - len = 0 then true else s.writeFlag
      some ({s with heap,pcb,writeFlag,accepted := s.accepted ++ psent.take len.toNat},err)
    else some ({s with pcb},err)

def writeLoop : Nat → Sender L → Int → Option (Sender L × Int)
  | 0,_,_ => none
  | turns+1,s,err =>
    if L.tcpSndbuf s.pcb = 0 then some (s,err)
    else if s.ptail = null then some (s,err)
    else do
      let b ← s.heap.node s.ptail
      if b.unsent = 0 then do
        let ptail ← s.heap.next s.ptail
        writeLoop turns {s with ptail} err
      else do
        let (s,err) ← s.espconnTcpSent turns b.punsent b.unsent
        if err = errOk then writeLoop turns s err else some (s,err)

def espconnTcpWrite (turns : Nat) (s : Sender L) : Option (Sender L × Int) :=
  if L.tcpNagleDisabled s.pcb = true ∧ L.sndQueuelen s.pcb ≥ tcpSndQueuelen then some (s,espconnMem)
  else writeLoop turns s errOk

def espconnTcpGetBufCount (turns : Nat) (s : Sender L) : Option UInt8 := (countNodes s.heap turns s.pbuf).map UInt8.ofNat

def full (turns : Nat) (s : Sender L) : Option Bool :=
  if s.copyDisabled = false then (s.espconnTcpGetBufCount turns).map fun count => decide (count ≥ s.pbufNum)
  else some (decide (L.sndQueuelen s.pcb ≥ tcpSndQueuelen))

def espconnPbufCreate (turns : Nat) (s : Sender L) (p : Ptr) (psent : List UInt8) : Option (Sender L) := do
  let length := UInt16.ofNat psent.length
  let (heap,pbuf) ← appendNode turns (s.heap.alloc p ⟨psent,psent,length,length,0⟩) s.pbuf p
  some {s with heap,pbuf,ptail := if s.ptail = null then p else s.ptail,
               writeFlag := if s.copyDisabled = true then false else s.writeFlag,appended := s.appended ++ [psent]}

def espconnSent (turns : Nat) (s : Sender L) (r : Request) : Option (Sender L × Int) :=
  match r.psent with
  | none => some (s,espconnArg)
  | some psent =>
    if UInt16.ofNat psent.length = 0 then some (s,espconnArg)
    else if r.found = false then some (s,espconnArg)
    else if s.writeFlag = false then some (s,espconnArg)
    else do
      let full ← s.full turns
      if full = true then some (s,espconnMaxnum)
      else match r.osZalloc s.heap with
        | none => some (s,espconnMem)
        | some p => do
          let s ← s.espconnPbufCreate turns p psent
          s.espconnTcpWrite turns

def obey (turns : Nat) (s : Sender L) : Act → Option (Sender L)
  | .sent r => (s.espconnSent turns r).map Prod.fst
  | .setCopy disabled => some {s with copyDisabled := disabled}
  | .setBufCount num => some (if num.toNat > tcpSndQueuelen then s else {s with pbufNum := num})

def obeyAll (turns : Nat) : Sender L → List Act → Option (Sender L)
  | s,[] => some s
  | s,act :: rest => do
    let s ← s.obey turns act
    obeyAll turns s rest

-- What sent_callback does, if there is one, is what the script has for its
-- number among all the calls.
def callSentCallback (turns : Nat) (script : Nat → List Act) (s : Sender L) : Option (Sender L) :=
  if s.sentCallback = true then obeyAll turns {s with called := s.called ++ [s.sentLength]} (script s.called.length)
  else some s

def finishLoop (script : Nat → List Act) : Nat → Sender L → UInt16 → Option (Sender L)
  | 0,_,_ => none
  | turns+1,s,len =>
    if s.pbuf = null then some s
    else do
      let b ← s.heap.node s.pbuf
      let totLen := b.totLen + len
      let heap ← s.heap.store s.pbuf {b with totLen}
      if totLen ≥ b.len then do
        let (heap,pbuf) ← deleteNode turns heap s.pbuf s.pbuf
        let heap ← heap.free s.pbuf
        let s ← callSentCallback turns script {s with heap,pbuf,sentLength := b.len,removed := s.removed ++ [b.payload]}
        finishLoop script turns {s with sentLength := totLen - b.len} (totLen - b.len)
      else some {s with heap}

def espconnTcpFinish (turns : Nat) (script : Nat → List Act) (s : Sender L) : Option (Sender L) := do
  let (s,_) ← s.espconnTcpWrite turns
  finishLoop script turns s 0

def acknowledged (s : Sender L) (pcb : L.Pcb) (len : UInt16) : Option (Sender L) := do
  let b ← s.heap.node s.pbuf
  let heap ← s.heap.store s.pbuf {b with totLen := b.totLen + len}
  some {s with heap,pcb,sentLength := len,reported := s.reported + len.toNat}

def espconnClientSent (turns : Nat) (script : Nat → List Act) (s : Sender L) (pcb : L.Pcb) (len : UInt16) : Option (Sender L) := do
  let s ← s.acknowledged pcb len
  s.espconnTcpFinish turns script

def espconnServerSent (turns : Nat) (script : Nat → List Act) (s : Sender L) (pcb : L.Pcb) (len : UInt16) : Option (Sender L) := do
  let s ← {s with recvCheck := 0}.acknowledged pcb len
  s.espconnTcpFinish turns script

end Sender

inductive Sending (L : Lwip) where
  | act (act : Act)
  | clientSent (pcb : L.Pcb) (len : UInt16) (script : Nat → List Act)
  | serverSent (pcb : L.Pcb) (len : UInt16) (script : Nat → List Act)
  | lwip (pcb : L.Pcb)

-- Of what is queued and not yet acknowledged, lwIP tells of one byte at least.
inductive SendStep {L : Lwip} : Sender L → Sending L → Sender L → Prop where
  | act : Ends (fun turns => s.obey turns act) t → SendStep s (.act act) t
  | clientSent : 0 < len.toNat → L.unacked pcb + len.toNat = L.unacked s.pcb →
      Ends (fun turns => s.espconnClientSent turns script pcb len) t → SendStep s (.clientSent pcb len script) t
  | serverSent : 0 < len.toNat → L.unacked pcb + len.toNat = L.unacked s.pcb →
      Ends (fun turns => s.espconnServerSent turns script pcb len) t → SendStep s (.serverSent pcb len script) t
  | lwip : L.unacked pcb = L.unacked s.pcb → SendStep s (.lwip pcb) {s with pcb}

def Sender.start {L : Lwip} (heap : Heap EspconnBuf) (pcb : L.Pcb) (pbufNum : UInt8) (copyDisabled sentCallback : Bool) : Sender L :=
  ⟨heap,null,null,pcb,pbufNum,true,copyDisabled,0,0,sentCallback,[],[],[],[],0⟩

end NonosLinkLayer.Espconn
