import NonosLinkLayer.Base.ByteMemory
import NonosLinkLayer.Base.Transitions

namespace NonosLinkLayer.Ping
open ByteMemory Transitions

def htons (v : UInt16) : UInt16 := swap16 v
def ntohs (v : UInt16) : UInt16 := swap16 v

def pingId : UInt16 := 0xafaf
def icmpEr : UInt8 := 0
def pingDataSize : UInt32 := 32
def pingCoarse : UInt32 := 1000
def defaultPingMaxCount : UInt32 := 4

structure Echo where
  type : UInt8
  id : UInt16
  seqno : UInt16
  deriving DecidableEq, Repr

structure PingOption where
  count : UInt32
  coarseTime : UInt32
  recvFunction : Bool
  sentFunction : Bool
  deriving DecidableEq, Repr

structure PingMsg where
  address : Nat
  pingOpt : PingOption
  timeoutCount : UInt32
  maxCount : UInt32
  sentCount : UInt32
  coarseTime : UInt32
  deriving DecidableEq, Repr

structure PingResp where
  totalCount : UInt32
  seqno : UInt32
  timeoutCount : UInt32
  bytes : UInt32
  totalBytes : UInt32
  pingErr : Int8
  deriving DecidableEq, Repr

inductive Callback where
  | recv (session : Nat) (resp : PingResp)
  | sent (session : Nat) (resp : PingResp)
  deriving DecidableEq, Repr

structure Request where
  session : Nat
  seqno : UInt16
  deriving DecidableEq, Repr

structure Timer where
  session : Nat
  request : Option Nat
  deriving DecidableEq, Repr

-- `pcbs` are the sessions in the order raw_input asks them, the newest first, and
-- `seqno` is the static variable of ping_recv. Beside these stands what has
-- happened: the requests in the order they were sent, those whose timeout has
-- come, and those a reply has arrived to.
structure Pings where
  pcbs : List PingMsg
  pingSeqNum : UInt16
  seqno : UInt16
  timeouts : List Timer
  born : Nat
  requests : List Request
  late : List Nat
  arrived : List Nat
  deriving DecidableEq, Repr

def pingSend (s : Pings) (session : Nat) (buffer : Bool) : Pings :=
  if buffer then
    let pingSeqNum := s.pingSeqNum + 1
    let pingSeqNum := if pingSeqNum = 0x7fff then 0 else pingSeqNum
    {s with pingSeqNum := pingSeqNum,requests := s.requests ++ [⟨session,htons pingSeqNum⟩]}
  else s

def sendAndWait (s : Pings) (session : Nat) (buffer : Bool) : Pings :=
  let request := if buffer then some s.requests.length else none
  let s := pingSend s session buffer
  {s with timeouts := s.timeouts ++ [⟨session,request⟩]}

def pingStart (s : Pings) (pingOpt : PingOption) (buffer : Bool) : Pings :=
  let maxCount := if pingOpt.count ≠ 0 then pingOpt.count else defaultPingMaxCount
  let coarseTime := if pingOpt.coarseTime ≠ 0 then pingOpt.coarseTime * pingCoarse else pingCoarse
  let pingmsg : PingMsg := ⟨s.born,pingOpt,0,maxCount,maxCount,coarseTime⟩
  sendAndWait {s with pcbs := pingmsg :: s.pcbs,born := s.born + 1} s.born buffer

def replace (s : Pings) (pingmsg : PingMsg) : Pings :=
  {s with pcbs := s.pcbs.map fun pcb => if pcb.address = pingmsg.address then pingmsg else pcb}

def pingTimeout (s : Pings) (pingmsg : PingMsg) : Pings × List Callback :=
  (replace s {pingmsg with timeoutCount := pingmsg.timeoutCount + 1},
    if pingmsg.pingOpt.recvFunction then [.recv pingmsg.address ⟨0,0,0,0,0,-1⟩] else [])

def pingCoarseTmr (s : Pings) (pingmsg : PingMsg) (buffer : Bool) : Pings × List Callback :=
  if pingmsg.sentCount - 1 ≠ 0 then
    (sendAndWait (replace s {pingmsg with sentCount := pingmsg.sentCount - 1}) pingmsg.address buffer,[])
  else
    ({s with pcbs := s.pcbs.filter fun pcb => pcb.address ≠ pingmsg.address},
      if pingmsg.pingOpt.sentFunction then
        [.sent pingmsg.address ⟨pingmsg.maxCount,0,pingmsg.timeoutCount,0,
          pingDataSize * (pingmsg.maxCount - pingmsg.timeoutCount),0⟩]
      else [])

-- A packet is what is read as an echo header behind the IP header, and behind every
-- further 20 bytes that fit in it: a session that does not eat the packet leaves
-- it to the next one as much shorter. The result says whether it has eaten.
def pingRecv (s : Pings) (pingmsg : PingMsg) : List Echo → Pings × List Callback × Bool × List Echo
  | [] => (s,[],false,[])
  | iecho :: p =>
    if iecho.id = pingId ∧ iecho.seqno = htons s.pingSeqNum ∧ iecho.type = icmpEr then
      if iecho.seqno ≠ s.seqno then
        let s := {s with timeouts := s.timeouts.eraseP fun timer => timer.session = pingmsg.address}
        let callbacks := if pingmsg.pingOpt.recvFunction then
          [.recv pingmsg.address ⟨0,(ntohs iecho.seqno).toUInt32,0,pingDataSize,0,0⟩] else []
        ({s with seqno := iecho.seqno},callbacks,true,p)
      else (s,[],true,p)
    else (s,[],false,p)

def rawInput (s : Pings) : List PingMsg → List Echo → Pings × List Callback
  | [],_ => (s,[])
  | pcb :: rest,p =>
    let (next,callbacks,eaten,p) := pingRecv s pcb p
    if eaten then (next,callbacks) else rawInput s rest p

-- The reply to a request: its header, what is read 20 bytes on in the data, whose
-- bytes count upwards, and what is read behind it.
def replyTo (request : Request) (behind : Echo) : List Echo :=
  [⟨icmpEr,pingId,request.seqno⟩,⟨12,0x1110,0x1312⟩,behind]

-- Timers come in any order. `reply` is a reply to the request of that number.
inductive Event where
  | start (pingOpt : PingOption) (buffer : Bool)
  | coarse (session : Nat) (buffer : Bool)
  | timeout (timer : Nat)
  | reply (request : Nat) (behind : Echo)

-- There is no next state for what cannot happen, nor for a timeout of a session
-- whose memory has been given back.
def perform (s : Pings) : Event → Option (Pings × List Callback)
  | .start pingOpt buffer => some (pingStart s pingOpt buffer,[])
  | .coarse session buffer => do
    let pingmsg ← s.pcbs.find? fun pcb => pcb.address = session
    pure (pingCoarseTmr s pingmsg buffer)
  | .timeout timer => do
    let ⟨session,request⟩ ← s.timeouts[timer]?
    let pingmsg ← s.pcbs.find? fun pcb => pcb.address = session
    pure (pingTimeout {s with timeouts := s.timeouts.eraseIdx timer,late := request.toList ++ s.late} pingmsg)
  | .reply request behind => do
    let sent ← s.requests[request]?
    let (s,callbacks) := rawInput s s.pcbs (replyTo sent behind)
    pure ({s with arrived := request :: s.arrived},callbacks)

def Step (s : Pings) (event : Event) (next : Pings) : Prop := ∃ callbacks, perform s event = some (next,callbacks)

def start : Pings := ⟨[],0,0,[],0,[],[],[]⟩

-- A first reply that comes before the timeout, to a request behind which its own
-- session has not sent another one, but others have.
structure Overtaken (s : Pings) (k : Nat) (request : Request) : Prop where
  first : k ∉ s.arrived
  inTime : k ∉ s.late
  own : ∀ later ∈ s.requests.drop (k+1), later.session ≠ request.session
  others : s.requests.drop (k+1) ≠ []

def Succeeds (s : Pings) (event : Event) (session : Nat) : Prop :=
  ∃ next callbacks resp, perform s event = some (next,callbacks) ∧ .recv session resp ∈ callbacks ∧ resp.pingErr = 0

-- A session succeeds only by a reply to a request of its own, and succeeds by it
-- although others have sent in between.
structure Fair (s : Pings) (event : Event) : Prop where
  own : ∀ session, Succeeds s event session → ∃ k behind request,
    event = .reply k behind ∧ s.requests[k]? = some request ∧ request.session = session
  kept : ∀ k behind request pcb, event = .reply k behind → s.requests[k]? = some request → Overtaken s k request →
    pcb ∈ s.pcbs → pcb.address = request.session → pcb.pingOpt.recvFunction = true → Succeeds s event request.session

-- The request that was sent last, as far as the numbers tell, which begin anew
-- after 32767 requests.
def Latest (s : Pings) (k : Nat) : Prop := (s.requests.length - (k+1)) % 32767 = 0
instance (s : Pings) (k : Nat) : Decidable (Latest s k) := inferInstanceAs (Decidable (_ = _))

-- Which session is to take a reply: the newest when the request is the latest, and
-- the third when what it reads behind the packet looks like a reply to that one.
def taker (s : Pings) (k : Nat) (behind : Echo) : Option PingMsg :=
  if Latest s k then s.pcbs[0]?
  else if behind = ⟨icmpEr,pingId,htons s.pingSeqNum⟩ then s.pcbs[2]?
  else none

-- The reply is to be taken by the session that has sent the request, and there is
-- none that was overtaken, short of one that its own session is to take.
def Apart (s : Pings) : Event → Prop
  | .reply k behind => ∀ request, s.requests[k]? = some request →
      (∀ pcb, taker s k behind = some pcb → s.seqno ≠ htons s.pingSeqNum → pcb.pingOpt.recvFunction = true →
        pcb.address = request.session) ∧
      (Overtaken s k request → ∀ pcb ∈ s.pcbs, pcb.address = request.session → pcb.pingOpt.recvFunction = true →
        s.seqno ≠ htons s.pingSeqNum ∧ ∃ other, taker s k behind = some other ∧ other.address = request.session ∧
          other.pingOpt.recvFunction = true)
  | _ => True

section Numbering
variable {s next : Pings} {k : Nat} {request : Request} {event : Event} {callbacks : List Callback}

structure Numbered (s : Pings) : Prop where
  counted : s.pingSeqNum = UInt16.ofNat (s.requests.length % 32767)
  named : ∀ k request, s.requests[k]? = some request → request.seqno = htons (UInt16.ofNat ((k+1) % 32767))

theorem Numbered.congr (numbered : Numbered s) (requests : next.requests = s.requests)
    (number : next.pingSeqNum = s.pingSeqNum) : Numbered next :=
  ⟨by rw [number,requests,numbered.counted],by rw [requests]; exact numbered.named⟩

theorem next_number (n : Nat) :
    (if UInt16.ofNat (n % 32767) + 1 = 0x7fff then 0 else UInt16.ofNat (n % 32767) + 1) = UInt16.ofNat ((n+1) % 32767) := by
  have bound : n % 32767 < 32767 := Nat.mod_lt n (by decide)
  have value : (UInt16.ofNat (n % 32767) + 1).toNat = n % 32767 + 1 := by
    simp only [UInt16.toNat_add,UInt16.toNat_ofNat',UInt16.reduceToNat]
    omega
  have goal : (UInt16.ofNat ((n+1) % 32767)).toNat = (n+1) % 32767 := by
    simp only [UInt16.toNat_ofNat']
    omega
  by_cases full : UInt16.ofNat (n % 32767) + 1 = 0x7fff
  · have last : n % 32767 + 1 = 32767 := by rw [← value,full]; rfl
    rw [if_pos full]
    apply UInt16.toNat_inj.mp
    rw [goal]
    simp only [UInt16.reduceToNat]
    omega
  · have inside : n % 32767 + 1 ≠ 32767 := fun last => full (UInt16.toNat_inj.mp (by rw [value,last]; rfl))
    rw [if_neg full]
    apply UInt16.toNat_inj.mp
    rw [goal,value]
    omega

theorem pingSend_numbered (session : Nat) (buffer : Bool) (numbered : Numbered s) : Numbered (pingSend s session buffer) := by
  unfold pingSend
  split
  · have number := next_number s.requests.length
    rw [← numbered.counted] at number
    constructor
    · simp only [List.length_append,List.length_singleton]
      exact number
    · intro k request sent
      rcases Nat.lt_trichotomy k s.requests.length with old | rfl | beyond
      · rw [List.getElem?_append_left old] at sent
        exact numbered.named k request sent
      · rw [List.getElem?_concat_length,Option.some.injEq] at sent
        rw [← sent,← number]
      · rw [List.getElem?_eq_none (by rw [List.length_append]; exact beyond)] at sent
        cases sent
  · exact numbered

theorem sendAndWait_numbered (session : Nat) (buffer : Bool) (numbered : Numbered s) :
    Numbered (sendAndWait s session buffer) :=
  (pingSend_numbered session buffer numbered).congr rfl rfl

theorem pingRecv_same (s : Pings) (pcb : PingMsg) (p : List Echo) :
    (pingRecv s pcb p).1.requests = s.requests ∧ (pingRecv s pcb p).1.pingSeqNum = s.pingSeqNum := by
  unfold pingRecv
  split
  · exact ⟨rfl,rfl⟩
  · repeat' split
    all_goals exact ⟨rfl,rfl⟩

theorem rawInput_same (s : Pings) (pcbs : List PingMsg) (p : List Echo) :
    (rawInput s pcbs p).1.requests = s.requests ∧ (rawInput s pcbs p).1.pingSeqNum = s.pingSeqNum := by
  induction pcbs generalizing p with
  | nil => exact ⟨rfl,rfl⟩
  | cons pcb rest ih =>
    simp only [rawInput]
    split
    · exact pingRecv_same s pcb p
    · exact ih _

theorem pingCoarseTmr_numbered (pcb : PingMsg) (buffer : Bool) (numbered : Numbered s) :
    Numbered (pingCoarseTmr s pcb buffer).1 := by
  unfold pingCoarseTmr
  split
  · exact sendAndWait_numbered _ _ (numbered.congr rfl rfl)
  · exact numbered.congr rfl rfl

theorem step_numbered (numbered : Numbered s) (step : Step s event next) : Numbered next := by
  obtain ⟨callbacks,performed⟩ := step
  cases event with
  | start pingOpt buffer =>
    simp only [perform,Option.some.injEq,Prod.mk.injEq] at performed
    rw [← performed.1]
    exact sendAndWait_numbered _ _ (numbered.congr rfl rfl)
  | coarse session buffer =>
    simp only [perform,Option.bind_eq_bind,Option.bind_eq_some_iff] at performed
    obtain ⟨pcb,_,performed⟩ := performed
    have kept := pingCoarseTmr_numbered pcb buffer numbered
    rwa [show pingCoarseTmr s pcb buffer = (next,callbacks) from Option.some.inj performed] at kept
  | timeout timer =>
    simp only [perform,Option.bind_eq_bind,Option.bind_eq_some_iff] at performed
    obtain ⟨⟨session,request⟩,_,pcb,_,performed⟩ := performed
    obtain rfl : _ = next := congrArg Prod.fst (Option.some.inj performed)
    exact numbered.congr rfl rfl
  | reply k behind =>
    simp only [perform,Option.bind_eq_bind,Option.bind_eq_some_iff] at performed
    obtain ⟨request,_,performed⟩ := performed
    obtain rfl : _ = next := congrArg Prod.fst (Option.some.inj performed)
    obtain ⟨requests,number⟩ := rawInput_same s s.pcbs (replyTo request behind)
    exact numbered.congr requests number

theorem start_numbered : Numbered start :=
  ⟨rfl,fun k request sent => by simp [start] at sent⟩

theorem latest_iff (numbered : Numbered s) (sent : s.requests[k]? = some request) :
    request.seqno = htons s.pingSeqNum ↔ Latest s k := by
  have inside : k < s.requests.length := (List.getElem?_eq_some_iff.mp sent).1
  rw [numbered.named k request sent,numbered.counted]
  unfold htons Latest
  rw [ByteMemory.swap16_inj,← UInt16.toNat_inj]
  simp only [UInt16.toNat_ofNat']
  omega

end Numbering

section Taking
variable {s : Pings} {k session : Nat} {behind : Echo} {request : Request} {event : Event}

def awaited (s : Pings) : Echo := ⟨icmpEr,pingId,htons s.pingSeqNum⟩

def take (s : Pings) (pcb : PingMsg) : Pings × List Callback :=
  ((pingRecv s pcb [awaited s]).1,(pingRecv s pcb [awaited s]).2.1)

theorem pingRecv_awaited (s : Pings) (pcb : PingMsg) (p : List Echo) :
    pingRecv s pcb (awaited s :: p) = ((take s pcb).1,(take s pcb).2,true,p) := by
  by_cases new : htons s.pingSeqNum = s.seqno <;> simp [take,pingRecv,awaited,new]

theorem pingRecv_other (pcb : PingMsg) (p : List Echo) (other : echo ≠ awaited s) :
    pingRecv s pcb (echo :: p) = (s,[],false,p) := by
  have fails : ¬ (echo.id = pingId ∧ echo.seqno = htons s.pingSeqNum ∧ echo.type = icmpEr) := by
    rintro ⟨id,seqno,type⟩
    exact other (by cases echo; simp_all [awaited])
  simp only [pingRecv,if_neg fails]

-- Each session looks at the view that is left to it, and the first to see what is
-- awaited takes the packet.
theorem rawInput_first (s : Pings) (pcbs : List PingMsg) (p : List Echo) :
    rawInput s pcbs p = (((pcbs.zip p).find? fun seen => seen.2 = awaited s).map fun seen => take s seen.1).getD (s,[]) := by
  induction pcbs generalizing p with
  | nil => rfl
  | cons pcb rest ih =>
    cases p with
    | nil =>
      have idle := ih []
      rw [List.zip_nil_right] at idle
      exact idle
    | cons echo p =>
      by_cases here : echo = awaited s
      · subst here
        simp [rawInput,pingRecv_awaited]
      · simp [rawInput,pingRecv_other pcb p here,ih,here]

theorem zip_taker (numbered : Numbered s) (sent : s.requests[k]? = some request) :
    ((s.pcbs.zip (replyTo request behind)).find? fun seen => seen.2 = awaited s).map Prod.fst = taker s k behind := by
  have header : (⟨icmpEr,pingId,request.seqno⟩ : Echo) = awaited s ↔ Latest s k := by
    rw [← latest_iff numbered sent]
    simp [awaited]
  have data : (⟨12,0x1110,0x1312⟩ : Echo) ≠ awaited s := by
    simp [awaited,icmpEr]
  rw [show taker s k behind = if Latest s k then s.pcbs[0]? else if behind = awaited s then s.pcbs[2]? else none from rfl]
  by_cases latest : Latest s k
  · have first := header.mpr latest
    rcases s.pcbs with _ | ⟨a,rest⟩ <;> simp [replyTo,first,latest]
  · have first : ¬ _ := fun same => latest (header.mp same)
    by_cases match_ : behind = awaited s
    · rcases s.pcbs with _ | ⟨a,_ | ⟨b,_ | ⟨c,rest⟩⟩⟩ <;> simp [replyTo,first,data,latest,match_]
    · rcases s.pcbs with _ | ⟨a,_ | ⟨b,_ | ⟨c,rest⟩⟩⟩ <;> simp [replyTo,first,data,latest,match_]

theorem take_recv (s : Pings) (pcb : PingMsg) (session : Nat) :
    (∃ resp, .recv session resp ∈ (take s pcb).2 ∧ resp.pingErr = 0) ↔
      s.seqno ≠ htons s.pingSeqNum ∧ pcb.pingOpt.recvFunction = true ∧ pcb.address = session := by
  rw [ne_comm]
  by_cases new : htons s.pingSeqNum = s.seqno
  · simp [take,pingRecv,awaited,new]
  · by_cases set : pcb.pingOpt.recvFunction = true
    · simp [take,pingRecv,awaited,new,set,eq_comm (a:=session)]
    · simp [take,pingRecv,awaited,new,set]

theorem perform_reply (numbered : Numbered s) (sent : s.requests[k]? = some request) :
    ∃ next, perform s (.reply k behind) = some (next,(((taker s k behind).map (take s)).getD (s,[])).2) := by
  rw [← zip_taker numbered sent,Option.map_map]
  have taken := rawInput_first s s.pcbs (replyTo request behind)
  simp only [perform,sent,Option.bind_eq_bind,Option.bind_some]
  rw [taken]
  exact ⟨_,rfl⟩

theorem succeeds_reply (numbered : Numbered s) (sent : s.requests[k]? = some request) :
    Succeeds s (.reply k behind) session ↔ ∃ pcb, taker s k behind = some pcb ∧ s.seqno ≠ htons s.pingSeqNum ∧
      pcb.pingOpt.recvFunction = true ∧ pcb.address = session := by
  obtain ⟨next,performed⟩ := @perform_reply s k behind request numbered sent
  constructor
  · rintro ⟨next',callbacks,resp,performed',told,fine⟩
    rw [performed,Option.some.injEq,Prod.mk.injEq] at performed'
    rw [← performed'.2] at told
    cases taken : taker s k behind with
    | none => simp [taken] at told
    | some pcb =>
      rw [taken] at told
      exact ⟨pcb,rfl,(take_recv s pcb session).mp ⟨resp,told,fine⟩⟩
  · rintro ⟨pcb,taken,recv⟩
    obtain ⟨resp,told,fine⟩ := (take_recv s pcb session).mpr recv
    rw [taken] at performed
    exact ⟨next,_,resp,performed,told,fine⟩

theorem succeeds_only (succeeds : Succeeds s event session) :
    ∃ k behind request, event = .reply k behind ∧ s.requests[k]? = some request := by
  obtain ⟨next,callbacks,resp,performed,told,fine⟩ := succeeds
  cases event with
  | start pingOpt buffer =>
    simp only [perform,Option.some.injEq,Prod.mk.injEq] at performed
    simp [← performed.2] at told
  | coarse address buffer =>
    simp only [perform,Option.bind_eq_bind,Option.bind_eq_some_iff] at performed
    obtain ⟨pcb,_,performed⟩ := performed
    obtain rfl : _ = callbacks := congrArg Prod.snd (Option.some.inj performed)
    unfold pingCoarseTmr at told
    split at told
    · cases told
    · split at told <;> simp at told
  | timeout timer =>
    simp only [perform,Option.bind_eq_bind,Option.bind_eq_some_iff] at performed
    obtain ⟨⟨address,request⟩,_,pcb,_,performed⟩ := performed
    obtain rfl : _ = callbacks := congrArg Prod.snd (Option.some.inj performed)
    unfold pingTimeout at told
    split at told
    · simp only [List.mem_singleton,Callback.recv.injEq] at told
      rw [told.2] at fine
      exact absurd fine (by decide)
    · cases told
  | reply k behind =>
    simp only [perform,Option.bind_eq_bind,Option.bind_eq_some_iff] at performed
    obtain ⟨request,sent,_⟩ := performed
    exact ⟨k,behind,request,rfl,sent⟩

theorem reply_apart (numbered : Numbered s) (k : Nat) (behind : Echo) : Fair s (.reply k behind) ↔ Apart s (.reply k behind) := by
  constructor
  · intro fair request sent
    refine ⟨fun pcb taken new recv => ?_,fun overtaken pcb running address recv => ?_⟩
    · obtain ⟨k',behind',request',same,sent',own⟩ := fair.own pcb.address ((succeeds_reply numbered sent).mpr ⟨pcb,taken,new,recv,rfl⟩)
      cases same
      rw [sent,Option.some.injEq] at sent'
      rw [← own,sent']
    · have kept := fair.kept k behind request pcb rfl sent overtaken running address recv
      obtain ⟨other,taken,new,recv',own⟩ := (succeeds_reply numbered sent).mp kept
      exact ⟨new,other,taken,own,recv'⟩
  · intro apart
    refine ⟨fun session succeeds => ?_,fun k' behind' request pcb same sent overtaken running address recv => ?_⟩
    · obtain ⟨_,_,request,same,sent⟩ := succeeds_only succeeds
      cases same
      obtain ⟨pcb,taken,new,recv,address⟩ := (succeeds_reply numbered sent).mp succeeds
      exact ⟨k,behind,request,rfl,sent,by rw [← address,(apart request sent).1 pcb taken new recv]⟩
    · cases same
      obtain ⟨new,other,taken,own,recv'⟩ := (apart request sent).2 overtaken pcb running address recv
      exact (succeeds_reply numbered sent).mpr ⟨other,taken,new,recv',own⟩

-- Only a reply can be taken by the wrong session.
theorem fair_apart (numbered : Numbered s) (event : Event) : Fair s event ↔ Apart s event := by
  have fair (quiet : ∀ k behind, event ≠ .reply k behind) : Fair s event := by
    refine ⟨fun session succeeds => ?_,fun k behind _ _ same => absurd same (quiet k behind)⟩
    obtain ⟨k,behind,_,same,_⟩ := succeeds_only succeeds
    exact absurd same (quiet k behind)
  cases event with
  | start => exact iff_of_true (fair fun _ _ same => by cases same) trivial
  | coarse => exact iff_of_true (fair fun _ _ same => by cases same) trivial
  | timeout => exact iff_of_true (fair fun _ _ same => by cases same) trivial
  | reply k behind => exact reply_apart numbered k behind

end Taking

theorem pings_apart (events : List Event) : EachMeets Step Fair start events ↔ EachMeets Step Apart start events :=
  eachMeets_congr step_numbered (fun _ event numbered => fair_apart numbered event) start_numbered

def usual : PingOption := ⟨4,1,true,true⟩
def both : Pings := pingStart (pingStart start usual true) usual true
def again : Pings := sendAndWait (replace both ⟨0,usual,0,4,3,1000⟩) 0 true

theorem both_reached : Runs Step start [.start usual true,.start usual true] both :=
  (Runs.single ⟨[],rfl⟩).step ⟨[],rfl⟩

theorem again_reached : Runs Step start [.start usual true,.start usual true,.coarse 0 true] again :=
  both_reached.step ⟨[],rfl⟩

-- The reply to the first session's request comes in time and is lost, as the second
-- has sent one; and when the first sends again, it is the second that gets the reply.
theorem pings_mixed : ¬ EachMeets Step Fair start [.start usual true,.start usual true,.reply 0 ⟨0,0,0⟩] ∧
    ¬ EachMeets Step Fair start [.start usual true,.start usual true,.coarse 0 true,.reply 2 ⟨0,0,0⟩] := by
  constructor
  · intro fair
    have last : Fair both (.reply 0 ⟨0,0,0⟩) := ((fair.2 _ ⟨[],rfl⟩).2 _ ⟨[],rfl⟩).1
    have apart := (fair_apart (both_reached.keeps start_numbered step_numbered) _).mp last
    have overtaken : Overtaken both 0 ⟨0,256⟩ := ⟨by decide,by decide,by decide,by decide⟩
    obtain ⟨_,other,taken,_⟩ := (apart ⟨0,256⟩ (by decide)).2 overtaken ⟨0,usual,0,4,4,1000⟩ (by decide) rfl rfl
    rw [show taker both 0 ⟨0,0,0⟩ = none by decide] at taken
    cases taken
  · intro fair
    have last : Fair again (.reply 2 ⟨0,0,0⟩) := (((fair.2 _ ⟨[],rfl⟩).2 _ ⟨[],rfl⟩).2 _ ⟨[],rfl⟩).1
    have apart := (fair_apart (again_reached.keeps start_numbered step_numbered) _).mp last
    have own := (apart ⟨0,768⟩ (by decide)).1 ⟨1,usual,0,4,4,1000⟩ (by decide) (by decide) rfl
    exact absurd own (by decide)

end NonosLinkLayer.Ping
