import NonosLinkLayer.Lwip.Ping
import NonosLinkLayer.Base.TimerList

namespace NonosLinkLayer.PingSession
open Ping TimerList Transitions

def pingTimeoutMs : Nat := 1000

inductive Handler where
  | pingTimeout
  | pingCoarseTmr
  deriving DecidableEq, Repr

-- An entry of sys_timeout, with how many requests had been sent when it was armed.
-- The requests are counted from 1.
structure Timeo where
  time : Nat
  handler : Handler
  request : Nat
  deriving DecidableEq, Repr

-- A call of recv_function, and the request it is about: for a timeout the one it
-- was armed for, and for a success the one whose number is in the response.
structure Call where
  request : Nat
  resp : PingResp
  deriving DecidableEq, Repr

-- `pingmsg` is none once its memory is given back. Times are in ms.
structure Session where
  pingmsg : Option PingMsg
  pingSeqNum : UInt16
  seqno : UInt16
  now : Nat
  pingSent : Nat
  timers : List Timeo
  requests : List UInt16
  calls : List Call
  report : Option PingResp
  deriving DecidableEq, Repr

def sysTimeout (timeo : Timeo) (timers : List Timeo) : List Timeo := arm Timeo.time timeo timers
def sysUntimeout (handler : Handler) (timers : List Timeo) : List Timeo := timers.eraseP fun timeo => timeo.handler = handler

def maxCount (pingOpt : PingOption) : UInt32 := if pingOpt.count ≠ 0 then pingOpt.count else defaultPingMaxCount
def coarseTime (pingOpt : PingOption) : UInt32 := if pingOpt.coarseTime ≠ 0 then pingOpt.coarseTime * pingCoarse else pingCoarse

def pingSend (s : Session) (buffer : Bool) : Session :=
  if buffer then
    let pingSeqNum := s.pingSeqNum + 1
    let pingSeqNum := if pingSeqNum = 0x7fff then 0 else pingSeqNum
    {s with pingSeqNum := pingSeqNum,requests := s.requests ++ [htons pingSeqNum]}
  else s

def sendAndWait (s : Session) (pingmsg : PingMsg) (buffer : Bool) : Session :=
  let s := pingSend {s with pingmsg := some pingmsg,pingSent := s.now} buffer
  let timers := sysTimeout ⟨s.now + pingTimeoutMs,.pingTimeout,s.requests.length⟩ s.timers
  {s with timers := sysTimeout ⟨s.now + pingmsg.coarseTime.toNat,.pingCoarseTmr,s.requests.length⟩ timers}

def pingStart (pingSeqNum seqno : UInt16) (now : Nat) (pingOpt : PingOption) (buffer : Bool) : Session :=
  sendAndWait ⟨none,pingSeqNum,seqno,now,now,[],[],[],none⟩
    ⟨0,pingOpt,0,maxCount pingOpt,maxCount pingOpt,coarseTime pingOpt⟩ buffer

def recvFunction (s : Session) (pingmsg : PingMsg) (request : Nat) (resp : PingResp) : Session :=
  if pingmsg.pingOpt.recvFunction then {s with calls := s.calls ++ [⟨request,resp⟩]} else s

def pingTimeout (s : Session) (pingmsg : PingMsg) (request : Nat) : Session :=
  recvFunction {s with pingmsg := some {pingmsg with timeoutCount := pingmsg.timeoutCount + 1}} pingmsg request ⟨0,0,0,0,0,-1⟩

def pingCoarseTmr (s : Session) (pingmsg : PingMsg) (buffer : Bool) : Session :=
  if pingmsg.sentCount - 1 ≠ 0 then sendAndWait s {pingmsg with sentCount := pingmsg.sentCount - 1} buffer
  else
    {s with
      pingmsg := none
      timers := sysUntimeout .pingCoarseTmr s.timers
      report := if pingmsg.pingOpt.sentFunction then
        some ⟨pingmsg.maxCount,0,pingmsg.timeoutCount,0,pingDataSize * (pingmsg.maxCount - pingmsg.timeoutCount),0⟩ else none}

-- A reply that is taken, and not only eaten, as its number is that of the request
-- sent last and not the one of the last reply taken.
def Taken (s : Session) (iecho : Echo) : Prop :=
  (iecho.id = pingId ∧ iecho.seqno = htons s.pingSeqNum ∧ iecho.type = icmpEr) ∧ iecho.seqno ≠ s.seqno

instance (s : Session) (iecho : Echo) : Decidable (Taken s iecho) := inferInstanceAs (Decidable (_ ∧ _))

def pingRecv (s : Session) (pingmsg : PingMsg) (iecho : Echo) : Session :=
  if Taken s iecho then
    let s := {s with timers := sysUntimeout .pingTimeout s.timers,seqno := iecho.seqno}
    recvFunction s pingmsg s.requests.length ⟨0,(ntohs iecho.seqno).toUInt32,0,pingDataSize,0,0⟩
  else s

-- Time goes by until the first timer is due. A timer is given whether there is a
-- buffer, and a packet is any packet that raw_input has for the session.
inductive Event where
  | wait (ms : Nat)
  | timer (buffer : Bool)
  | packet (iecho : Echo)

def perform (s : Session) : Event → Option Session
  | .wait ms => if ∀ timeo ∈ s.timers, s.now + ms ≤ timeo.time then some {s with now := s.now + ms} else none
  | .timer buffer =>
    match s.timers,s.pingmsg with
    | timeo :: timers,some pingmsg =>
      if timeo.time = s.now then
        some (match timeo.handler with
          | .pingTimeout => pingTimeout {s with timers} pingmsg timeo.request
          | .pingCoarseTmr => pingCoarseTmr {s with timers} pingmsg buffer)
      else none
    | _,_ => none
  | .packet iecho => some (match s.pingmsg with
    | some pingmsg => pingRecv s pingmsg iecho
    | none => s)

def Step (s : Session) (event : Event) (next : Session) : Prop := perform s event = some next

def Answered (s : Session) (request : Nat) : Prop := ∃ call ∈ s.calls, call.request = request ∧ call.resp.pingErr = 0
instance (s : Session) (request : Nat) : Decidable (Answered s request) := inferInstanceAs (Decidable (∃ _ ∈ _,_))

structure Outcomes (pingOpt : PingOption) (s : Session) : Prop where
  once : ∀ k, 1 ≤ k → k ≤ s.requests.length → s.calls.countP (fun call => call.request = k) = 1
  known : ∀ call ∈ s.calls, 1 ≤ call.request ∧ call.request ≤ s.requests.length
  kinds : ∀ call ∈ s.calls, call.resp.pingErr = 0 ∨ call.resp.pingErr = -1
  sent : s.requests.length = (maxCount pingOpt).toNat
  untimed : s.timers = []
  report : pingOpt.sentFunction = true → ∃ resp, s.report = some resp ∧
    resp.timeoutCount.toNat = (List.range s.requests.length).countP fun k => ¬ Answered s (k + 1)

-- There is a buffer for every request; a reply is taken while the first timeout
-- there is is that of the request sent last; and when the session ends, its
-- interval is not shorter than the timeout or the last request has been answered.
def Orderly (s : Session) : Event → Prop
  | .wait _ => True
  | .timer buffer => ∀ timeo timers pingmsg, s.timers = timeo :: timers → timeo.handler = .pingCoarseTmr →
      s.pingmsg = some pingmsg → if pingmsg.sentCount - 1 ≠ 0 then buffer = true
        else pingTimeoutMs ≤ pingmsg.coarseTime.toNat ∨ Answered s s.requests.length
  | .packet iecho => ∀ pingmsg, s.pingmsg = some pingmsg → Taken s iecho →
      ∃ timeo, s.timers.find? (fun timeo => timeo.handler = .pingTimeout) = some timeo ∧ timeo.request = s.requests.length

variable {s next : Session} {event : Event}

inductive Move (s : Session) : Event → Session → Prop where
  | wait : (∀ timeo ∈ s.timers, s.now + ms ≤ timeo.time) → Move s (.wait ms) {s with now := s.now + ms}
  | timeout : s.timers = timeo :: timers → s.pingmsg = some pingmsg → timeo.time = s.now → timeo.handler = .pingTimeout →
      Move s (.timer buffer) (pingTimeout {s with timers} pingmsg timeo.request)
  | further : s.timers = timeo :: timers → s.pingmsg = some pingmsg → timeo.time = s.now → timeo.handler = .pingCoarseTmr →
      pingmsg.sentCount - 1 ≠ 0 →
      Move s (.timer buffer) (sendAndWait {s with timers} {pingmsg with sentCount := pingmsg.sentCount - 1} buffer)
  | last : s.timers = timeo :: timers → s.pingmsg = some pingmsg → timeo.time = s.now → timeo.handler = .pingCoarseTmr →
      pingmsg.sentCount - 1 = 0 → Move s (.timer buffer) (pingCoarseTmr {s with timers} pingmsg buffer)
  | taken : s.pingmsg = some pingmsg → Taken s iecho → Move s (.packet iecho) (pingRecv s pingmsg iecho)
  | left : (∀ pingmsg, s.pingmsg = some pingmsg → ¬ Taken s iecho) → Move s (.packet iecho) s

theorem Step.move (step : Step s event next) : Move s event next := by
  unfold Step perform at step
  cases event with
  | wait ms =>
    dsimp only at step
    split at step
    · rename_i room
      cases step
      exact .wait room
    · cases step
  | timer buffer =>
    dsimp only at step
    split at step
    · rename_i timeo timers pingmsg first running
      split at step
      · rename_i due
        cases step
        cases kind : timeo.handler with
        | pingTimeout => exact .timeout first running due kind
        | pingCoarseTmr =>
          by_cases more : pingmsg.sentCount - 1 ≠ 0
          · have further : Move s (.timer buffer) _ := .further first running due kind more
            unfold pingCoarseTmr
            rwa [if_pos more]
          · exact .last first running due kind (not_not.mp more)
      · cases step
    · cases step
  | packet iecho =>
    cases step
    cases running : s.pingmsg with
    | none => exact .left fun pingmsg other => by rw [running] at other; cases other
    | some pingmsg =>
      by_cases taken : Taken s iecho
      · exact .taken running taken
      · have idle : pingRecv s pingmsg iecho = s := if_neg taken
        dsimp only
        rw [idle]
        refine .left fun other same => taken

def OrderlyStep (s : Session) (event : Event) (next : Session) : Prop := Step s event next ∧ Orderly s event

end NonosLinkLayer.PingSession
