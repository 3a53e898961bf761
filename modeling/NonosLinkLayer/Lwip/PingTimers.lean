import NonosLinkLayer.Lwip.PingSession

namespace NonosLinkLayer.PingSession
open Ping TimerList Transitions

variable {pingOpt : PingOption} {start : Nat} {s next : Session} {m : PingMsg} {front behind : List Timeo} {buffer : Bool}
  {event : Event} {t : Timeo} {timers : List Timeo} {iecho : Echo} {ms : Nat}

section Sending

theorem pingSend_requests (s : Session) (buffer : Bool) :
    (pingSend s buffer).requests.length = s.requests.length + buffer.toNat := by
  cases buffer <;> simp [pingSend]

theorem pingSend_same (s : Session) (buffer : Bool) : (pingSend s buffer).pingmsg = s.pingmsg ∧
    (pingSend s buffer).now = s.now ∧ (pingSend s buffer).pingSent = s.pingSent ∧ (pingSend s buffer).timers = s.timers ∧
      (pingSend s buffer).calls = s.calls := by
  cases buffer <;> exact ⟨rfl,rfl,rfl,rfl,rfl⟩

theorem sendAndWait_same (s : Session) (m : PingMsg) (buffer : Bool) : (sendAndWait s m buffer).pingmsg = some m ∧
    (sendAndWait s m buffer).now = s.now ∧ (sendAndWait s m buffer).pingSent = s.now ∧
      (sendAndWait s m buffer).calls = s.calls ∧ (sendAndWait s m buffer).requests.length = s.requests.length + buffer.toNat := by
  obtain ⟨running,now,sent,_,calls⟩ := pingSend_same {s with pingmsg := some m,pingSent := s.now} buffer
  exact ⟨running,now,sent,calls,pingSend_requests _ buffer⟩

theorem sendAndWait_timers (s : Session) (m : PingMsg) (buffer : Bool) : (sendAndWait s m buffer).timers =
    sysTimeout ⟨s.now + m.coarseTime.toNat,.pingCoarseTmr,s.requests.length + buffer.toNat⟩
      (sysTimeout ⟨s.now + pingTimeoutMs,.pingTimeout,s.requests.length + buffer.toNat⟩ s.timers) := by
  obtain ⟨_,now,_,timers,_⟩ := pingSend_same {s with pingmsg := some m,pingSent := s.now} buffer
  have requests := pingSend_requests {s with pingmsg := some m,pingSent := s.now} buffer
  unfold sendAndWait
  dsimp only
  rw [now,timers,requests]

end Sending

theorem wait_step (room : ∀ t ∈ s.timers, s.now + ms ≤ t.time) : Step s (.wait ms) {s with now := s.now + ms} := if_pos room

theorem timeout_step (first : s.timers = t :: timers) (running : s.pingmsg = some m) (due : t.time = s.now)
    (kind : t.handler = .pingTimeout) : Step s (.timer buffer) (pingTimeout {s with timers} m t.request) := by
  simp [Step,perform,first,running,due,kind]

theorem coarse_step (first : s.timers = t :: timers) (running : s.pingmsg = some m) (due : t.time = s.now)
    (kind : t.handler = .pingCoarseTmr) : Step s (.timer buffer) (pingCoarseTmr {s with timers} m buffer) := by
  simp [Step,perform,first,running,due,kind]

-- A session that is on. Beside the timer of its interval it has only timeouts: those
-- in `front` fire before it and those in `behind` after it.
structure Live (pingOpt : PingOption) (start : Nat) (s : Session) (m : PingMsg) (front behind : List Timeo) : Prop where
  running : s.pingmsg = some m
  option : m.pingOpt = pingOpt
  max : m.maxCount = maxCount pingOpt
  coarse : m.coarseTime = coarseTime pingOpt
  left : 1 ≤ m.sentCount.toNat
  few : s.requests.length + m.sentCount.toNat ≤ (maxCount pingOpt).toNat + 1
  rounds : s.pingSent + m.sentCount.toNat * (coarseTime pingOpt).toNat =
    start + (maxCount pingOpt).toNat * (coarseTime pingOpt).toNat
  timers : s.timers = front ++ ⟨s.pingSent + (coarseTime pingOpt).toNat,.pingCoarseTmr,s.requests.length⟩ :: behind
  timeouts : ∀ t ∈ front ++ behind, t.handler = .pingTimeout ∧ t.time ≤ s.pingSent + pingTimeoutMs
  late : ∀ t ∈ behind, s.pingSent + (coarseTime pingOpt).toNat < t.time
  ordered : Ordered Timeo.time s.timers
  ahead : ∀ t ∈ s.timers, s.now ≤ t.time
  past : s.pingSent ≤ s.now

theorem sendAndWait_live (option : m.pingOpt = pingOpt) (max : m.maxCount = maxCount pingOpt)
    (coarse : m.coarseTime = coarseTime pingOpt) (left : 1 ≤ m.sentCount.toNat)
    (few : s.requests.length + buffer.toNat + m.sentCount.toNat ≤ (maxCount pingOpt).toNat + 1)
    (rounds : s.now + m.sentCount.toNat * (coarseTime pingOpt).toNat =
      start + (maxCount pingOpt).toNat * (coarseTime pingOpt).toNat)
    (timeouts : ∀ t ∈ s.timers, t.handler = .pingTimeout ∧ t.time ≤ s.now + pingTimeoutMs)
    (ordered : Ordered Timeo.time s.timers) (ahead : ∀ t ∈ s.timers, s.now ≤ t.time) :
    ∃ front behind, Live pingOpt start (sendAndWait s m buffer) m front behind ∧
      front ++ behind = s.timers ++ [⟨s.now + pingTimeoutMs,.pingTimeout,s.requests.length + buffer.toNat⟩] := by
  obtain ⟨running,now,sent,calls,requests⟩ := sendAndWait_same s m buffer
  have armed := sendAndWait_timers s m buffer
  have last : sysTimeout ⟨s.now + pingTimeoutMs,.pingTimeout,s.requests.length + buffer.toNat⟩ s.timers =
      s.timers ++ [⟨s.now + pingTimeoutMs,.pingTimeout,s.requests.length + buffer.toNat⟩] :=
    arm_last fun t member => (timeouts t member).2
  have ordered' : Ordered Timeo.time (sysTimeout ⟨s.now + pingTimeoutMs,.pingTimeout,s.requests.length + buffer.toNat⟩ s.timers) :=
    ordered.arm
  obtain ⟨front,behind,split,armed',_,late⟩ := arm_split ordered'
    (a:=⟨s.now + m.coarseTime.toNat,.pingCoarseTmr,s.requests.length + buffer.toNat⟩)
  have all : front ++ behind = s.timers ++ [⟨s.now + pingTimeoutMs,.pingTimeout,s.requests.length + buffer.toNat⟩] :=
    split.symm.trans last
  refine ⟨front,behind,⟨running,option,max,coarse,left,by rwa [requests],by rwa [sent],?_,?_,?_,?_,?_,
    Nat.le_of_eq (sent.trans now.symm)⟩,all⟩
  · rw [armed,sent,requests,← coarse]
    exact armed'
  · intro t member
    rw [all,List.mem_append,List.mem_singleton] at member
    rw [sent]
    rcases member with old | rfl
    · exact timeouts t old
    · exact ⟨rfl,Nat.le_refl _⟩
  · rw [sent,← coarse]
    exact late
  · rw [armed]
    exact ordered'.arm
  · intro t member
    rw [armed] at member
    rw [now]
    rcases mem_arm.mp member with rfl | member
    · exact Nat.le_add_right _ _
    · rcases mem_arm.mp member with rfl | old
      · exact Nat.le_add_right _ _
      · exact ahead t old

namespace Live
variable (live : Live pingOpt start s m front behind)
include live

theorem waits (room : ∀ t ∈ s.timers, s.now + ms ≤ t.time) : Live pingOpt start {s with now := s.now + ms} m front behind :=
  {live with ahead := room,past := Nat.le_trans live.past (Nat.le_add_right _ _)}

theorem pending (member : t ∈ s.timers) (kind : t.handler = .pingTimeout) : t ∈ front ++ behind := by
  rw [live.timers] at member
  rcases List.mem_append.mp member with early | member
  · exact List.mem_append_left _ early
  · rcases List.mem_cons.mp member with rfl | late
    · cases kind
    · exact List.mem_append_right _ late

theorem fires (first : s.timers = t :: timers) (kind : t.handler = .pingTimeout) : ∃ rest, front = t :: rest ∧
    timers = rest ++ ⟨s.pingSent + (coarseTime pingOpt).toNat,.pingCoarseTmr,s.requests.length⟩ :: behind := by
  have split := live.timers
  rw [first] at split
  cases front with
  | nil =>
    cases split
    cases kind
  | cons head rest =>
    cases split
    exact ⟨rest,rfl,rfl⟩

-- When the interval is over there is no timeout that should have fired before.
theorem rings (first : s.timers = t :: timers) (kind : t.handler = .pingCoarseTmr) :
    front = [] ∧ timers = behind ∧ t.time = s.pingSent + (coarseTime pingOpt).toNat := by
  have split := live.timers
  rw [first] at split
  cases front with
  | nil =>
    cases split
    exact ⟨rfl,rfl,rfl⟩
  | cons head rest =>
    cases split
    have timeout := (live.timeouts t (by simp)).1
    rw [timeout] at kind
    cases kind

theorem only {pingmsg : PingMsg} (running : s.pingmsg = some pingmsg) : pingmsg = m :=
  Option.some.inj (running.symm.trans live.running)

theorem recvFunction (m' : PingMsg) (request : Nat) (resp : PingResp) :
    Live pingOpt start (recvFunction s m' request resp) m front behind := by
  unfold PingSession.recvFunction
  split
  · exact ⟨live.running,live.option,live.max,live.coarse,live.left,live.few,live.rounds,live.timers,live.timeouts,live.late,
      live.ordered,live.ahead,live.past⟩
  · exact live

theorem times_out (first : s.timers = t :: timers) (kind : t.handler = .pingTimeout) : ∃ rest, front = t :: rest ∧
    Live pingOpt start (pingTimeout {s with timers} m t.request) {m with timeoutCount := m.timeoutCount + 1} rest behind := by
  obtain ⟨rest,rfl,split⟩ := live.fires first kind
  have ordered := live.ordered
  rw [first] at ordered
  have later : Live pingOpt start {s with pingmsg := some {m with timeoutCount := m.timeoutCount + 1},timers}
      {m with timeoutCount := m.timeoutCount + 1} rest behind :=
    ⟨rfl,live.option,live.max,live.coarse,live.left,live.few,live.rounds,split,
      fun u member => live.timeouts u (List.mem_cons_of_mem _ member),live.late,(List.pairwise_cons.mp ordered).2,
      fun u member => live.ahead u (by rw [first]; exact List.mem_cons_of_mem _ member),live.past⟩
  exact ⟨rest,rfl,later.recvFunction m t.request _⟩

theorem timeout_result (recv : pingOpt.recvFunction = true) (request : Nat) : pingTimeout {s with timers} m request =
    {s with
      pingmsg := some {m with timeoutCount := m.timeoutCount + 1}
      timers
      calls := s.calls ++ [⟨request,⟨0,0,0,0,0,-1⟩⟩]} := by
  have set : m.pingOpt.recvFunction = true := by rw [live.option,recv]
  simp [pingTimeout,PingSession.recvFunction,set]

theorem erases : ∃ front' behind', sysUntimeout .pingTimeout s.timers =
      front' ++ ⟨s.pingSent + (coarseTime pingOpt).toNat,.pingCoarseTmr,s.requests.length⟩ :: behind' ∧
    front' ++ behind' = (front ++ behind).tail ∧ (∀ t ∈ behind', t ∈ behind) := by
  have others : ∀ t ∈ front ++ behind, decide (t.handler = .pingTimeout) = true := fun t member =>
    decide_eq_true (live.timeouts t member).1
  obtain ⟨front',behind',erased,all,_,behinds⟩ := eraseP_split others
    (a:=⟨s.pingSent + (coarseTime pingOpt).toNat,.pingCoarseTmr,s.requests.length⟩) rfl
  refine ⟨front',behind',?_,all,behinds⟩
  rw [live.timers]
  exact erased

theorem takes (taken : Taken s iecho) : ∃ front' behind', front' ++ behind' = (front ++ behind).tail ∧
    Live pingOpt start (pingRecv s m iecho) m front' behind' := by
  have fewer : (sysUntimeout .pingTimeout s.timers).Sublist s.timers := List.eraseP_sublist
  obtain ⟨front',behind',split,all,behinds⟩ := live.erases
  have later : Live pingOpt start {s with timers := sysUntimeout .pingTimeout s.timers,seqno := iecho.seqno} m front' behind' :=
    ⟨live.running,live.option,live.max,live.coarse,live.left,live.few,live.rounds,split,
      fun t member => live.timeouts t (List.mem_of_mem_tail (all ▸ member)),fun t member => live.late t (behinds t member),
      live.ordered.sublist fewer,fun t member => live.ahead t (fewer.subset member),live.past⟩
  refine ⟨front',behind',all,?_⟩
  rw [pingRecv,if_pos taken]
  exact later.recvFunction m _ _

theorem taken_result (recv : pingOpt.recvFunction = true) (taken : Taken s iecho) : pingRecv s m iecho =
    {s with
      timers := sysUntimeout .pingTimeout s.timers
      seqno := iecho.seqno
      calls := s.calls ++ [⟨s.requests.length,⟨0,(ntohs iecho.seqno).toUInt32,0,pingDataSize,0,0⟩⟩]} := by
  have set : m.pingOpt.recvFunction = true := by rw [live.option,recv]
  simp [pingRecv,PingSession.recvFunction,taken,set]

theorem pred_left (more : m.sentCount - 1 ≠ 0) :
    (m.sentCount - 1).toNat + 1 = m.sentCount.toNat ∧ 1 ≤ (m.sentCount - 1).toNat := by
  have pred : (m.sentCount - 1).toNat = m.sentCount.toNat - 1 :=
    UInt32.toNat_sub_of_le _ _ (UInt32.le_iff_toNat_le.mpr live.left)
  have some_ : (m.sentCount - 1).toNat ≠ 0 := fun zero => more (UInt32.toNat_inj.mp zero)
  have left := live.left
  omega

theorem sends (first : s.timers = t :: timers) (kind : t.handler = .pingCoarseTmr) (due : t.time = s.now)
    (more : m.sentCount - 1 ≠ 0) (buffer : Bool) :
    ∃ front' behind', Live pingOpt start (sendAndWait {s with timers} {m with sentCount := m.sentCount - 1} buffer)
        {m with sentCount := m.sentCount - 1} front' behind' ∧
      front' ++ behind' = behind ++ [⟨s.now + pingTimeoutMs,.pingTimeout,s.requests.length + buffer.toNat⟩] := by
  obtain ⟨rfl,rfl,over_⟩ := live.rings first kind
  obtain ⟨pred,some_⟩ := live.pred_left more
  have few := live.few
  have rounds := live.rounds
  have past := live.past
  have ordered := live.ordered
  have room : buffer.toNat ≤ 1 := Bool.toNat_le buffer
  rw [first] at ordered
  rw [← pred,Nat.succ_mul] at rounds
  refine sendAndWait_live live.option live.max live.coarse some_ ?_ ?_ (fun u member => ?_) (List.pairwise_cons.mp ordered).2
    fun u member => live.ahead u (by rw [first]; exact List.mem_cons_of_mem _ member)
  · dsimp only
    omega
  · dsimp only
    omega
  · obtain ⟨timeout,near⟩ := live.timeouts u member
    exact ⟨timeout,Nat.le_trans near (Nat.add_le_add_right past _)⟩

theorem in_time : s.now ≤ start + (maxCount pingOpt).toNat * (coarseTime pingOpt).toNat := by
  calc
    s.now ≤ s.pingSent + (coarseTime pingOpt).toNat :=
      live.ahead ⟨s.pingSent + (coarseTime pingOpt).toNat,.pingCoarseTmr,s.requests.length⟩ (by rw [live.timers]; simp)
    _ ≤ s.pingSent + m.sentCount.toNat * (coarseTime pingOpt).toNat :=
      Nat.add_le_add_left (Nat.le_mul_of_pos_left _ live.left) _
    _ = start + (maxCount pingOpt).toNat * (coarseTime pingOpt).toNat := live.rounds

theorem until_first (first : s.timers = t :: timers) : Step s (.wait (t.time - s.now)) {s with now := t.time} ∧
    Live pingOpt start {s with now := t.time} m front behind := by
  have ahead : s.now + (t.time - s.now) = t.time :=
    Nat.add_sub_of_le (live.ahead t (by rw [first]; exact List.mem_cons_self))
  have ordered := live.ordered
  rw [first] at ordered
  have room : ∀ u ∈ s.timers, s.now + (t.time - s.now) ≤ u.time := by
    rw [first,ahead]
    exact List.forall_mem_cons.mpr ⟨Nat.le_refl _,(List.pairwise_cons.mp ordered).1⟩
  have later := live.waits room
  have step := wait_step room
  rw [ahead] at later step
  exact ⟨step,later⟩

end Live

theorem Live.ends (live : Live pingOpt start s m front behind) (first : s.timers = t :: timers) (kind : t.handler = .pingCoarseTmr)
    (over_ : m.sentCount - 1 = 0) (buffer : Bool) : ∃ report, pingCoarseTmr {s with timers} m buffer =
        {s with pingmsg := none,timers := behind,report} ∧
      (pingOpt.sentFunction = true → ∃ resp, report = some resp ∧ resp.timeoutCount = m.timeoutCount) := by
  obtain ⟨rfl,rfl,_⟩ := live.rings first kind
  have none_ : sysUntimeout .pingCoarseTmr timers = timers := by
    refine List.eraseP_of_forall_not fun t member => ?_
    rw [(live.timeouts t member).1]
    decide
  rw [pingCoarseTmr,if_neg (not_not.mpr over_)]
  dsimp only
  rw [none_,live.option]
  refine ⟨_,rfl,fun set => ?_⟩
  rw [if_pos set]
  exact ⟨_,rfl,rfl⟩

theorem Live.to_ring (live : Live pingOpt start s m front behind) :
    ∃ events next m', Runs Step s events next ∧ Live pingOpt start next m' [] behind ∧ m'.sentCount = m.sentCount := by
  induction front generalizing s m with
  | nil => exact ⟨[],s,m,.nil,live,rfl⟩
  | cons t front ih =>
    have first := live.timers
    rw [List.cons_append] at first
    obtain ⟨wait,due⟩ := live.until_first first
    have kind := (live.timeouts t (by simp)).1
    obtain ⟨rest,same,later⟩ := due.times_out first kind
    obtain ⟨_,rfl⟩ := List.cons.inj same
    obtain ⟨events,next,m',path,rings,left⟩ := ih later
    have fires : Step {s with now := t.time} (.timer true) _ := timeout_step first live.running rfl kind
    exact ⟨_,next,m',.first wait (.first fires path),rings,left⟩

-- A session can be brought to its end from everywhere.
theorem Live.finishes (live : Live pingOpt start s m front behind) :
    ∃ events next, Runs Step s events next ∧ next.pingmsg = none := by
  generalize left : m.sentCount.toNat = count
  induction count generalizing s m front behind with
  | zero =>
    have some_ := live.left
    omega
  | succ count ih =>
    obtain ⟨events,middle,m',path,rings,same⟩ := live.to_ring
    obtain ⟨wait,due⟩ := rings.until_first rings.timers
    by_cases more : m'.sentCount - 1 ≠ 0
    · obtain ⟨front',behind',later,_⟩ := due.sends rings.timers rfl rfl more true
      have pred := (rings.pred_left more).1
      have fewer : (m'.sentCount - 1).toNat = count := Nat.succ.inj (pred.trans ((congrArg UInt32.toNat same).trans left))
      obtain ⟨events',next,path',over_⟩ := ih later fewer
      have further : Step _ (.timer true) _ := coarse_step due.timers due.running rfl rfl
      rw [pingCoarseTmr,if_pos more] at further
      exact ⟨_,next,path.append (.first wait (.first further path')),over_⟩
    · have last : Step _ (.timer true) _ := coarse_step due.timers due.running rfl rfl
      obtain ⟨report,result,_⟩ := due.ends rings.timers rfl (not_not.mp more) true
      rw [result] at last
      exact ⟨_,_,path.append (.first wait (.single last)),rfl⟩

theorem Live.find (live : Live pingOpt start s m front behind) :
    s.timers.find? (fun timeo => timeo.handler = .pingTimeout) = (front ++ behind).head? := by
  have front_timeouts : ∀ t ∈ front ++ behind, decide (t.handler = .pingTimeout) = true := fun t member =>
    decide_eq_true (live.timeouts t member).1
  rw [live.timers]
  cases front with
  | nil =>
    rw [List.nil_append,List.find?_cons_of_neg (by simp)]
    cases behind with
    | nil => rfl
    | cons u behind => exact List.find?_cons_of_pos (front_timeouts u (by simp))
  | cons u front => exact List.find?_cons_of_pos (front_timeouts u (by simp))

theorem over_same (over_ : s.pingmsg = none) (step : Step s event next) : ∃ now, next = {s with now} := by
  cases step.move with
  | wait room => exact ⟨_,rfl⟩
  | timeout first running => cases over_.symm.trans running
  | further first running => cases over_.symm.trans running
  | last first running => cases over_.symm.trans running
  | taken running => cases over_.symm.trans running
  | left => exact ⟨s.now,rfl⟩

theorem Live.step (live : Live pingOpt start s m front behind) (step : Step s event next) :
    (∃ m front behind, Live pingOpt start next m front behind) ∨ next.pingmsg = none := by
  cases step.move with
  | wait room => exact .inl ⟨m,front,behind,live.waits room⟩
  | timeout first running due kind =>
    obtain rfl := live.only running
    obtain ⟨rest,_,later⟩ := live.times_out first kind
    exact .inl ⟨_,rest,behind,later⟩
  | further first running due kind more =>
    obtain rfl := live.only running
    obtain ⟨front',behind',later,_⟩ := live.sends first kind due more _
    exact .inl ⟨_,front',behind',later⟩
  | @last t timers pingmsg buffer first running due kind over_ =>
    obtain rfl := live.only running
    obtain ⟨report,result,_⟩ := live.ends first kind over_ buffer
    rw [result]
    exact .inr rfl
  | taken running taken =>
    obtain rfl := live.only running
    obtain ⟨front',behind',_,later⟩ := live.takes taken
    exact .inl ⟨_,front',behind',later⟩
  | left _ => exact .inl ⟨m,front,behind,live⟩

def Begun (pingOpt : PingOption) (start : Nat) (s : Session) : Prop :=
  (∃ m front behind, Live pingOpt start s m front behind) ∨ s.pingmsg = none

theorem Begun.step (begun : Begun pingOpt start s) (step : Step s event next) : Begun pingOpt start next := by
  rcases begun with ⟨m,front,behind,live⟩ | over_
  · exact live.step step
  · obtain ⟨now,rfl⟩ := over_same over_ step
    exact .inr over_

section Start
variable (pingSeqNum seqno : UInt16) (now : Nat) (pingOpt : PingOption)

theorem maxCount_pos : 1 ≤ (maxCount pingOpt).toNat := by
  unfold maxCount
  split
  · rename_i set
    exact Nat.one_le_iff_ne_zero.mpr fun zero => set (UInt32.toNat_inj.mp zero)
  · decide

theorem pingStart_live (buffer : Bool) : ∃ front behind, Live pingOpt now (pingStart pingSeqNum seqno now pingOpt buffer)
      ⟨0,pingOpt,0,maxCount pingOpt,maxCount pingOpt,coarseTime pingOpt⟩ front behind ∧
    front ++ behind = [⟨now + pingTimeoutMs,.pingTimeout,buffer.toNat⟩] := by
  have room : buffer.toNat ≤ 1 := Bool.toNat_le buffer
  have few : 0 + buffer.toNat + (maxCount pingOpt).toNat ≤ (maxCount pingOpt).toNat + 1 := by omega
  rw [← Nat.zero_add buffer.toNat]
  exact sendAndWait_live rfl rfl rfl (maxCount_pos pingOpt) few rfl (by simp) .nil (by simp)

end Start

end NonosLinkLayer.PingSession
