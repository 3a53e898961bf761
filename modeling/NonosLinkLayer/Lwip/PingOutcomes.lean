import Mathlib.Data.List.Nodup
import NonosLinkLayer.Lwip.PingTimers

namespace NonosLinkLayer.PingSession
open Ping TimerList Transitions

variable {pingOpt : PingOption} {start : Nat} {s next : Session} {m : PingMsg} {front behind : List Timeo} {buffer : Bool}
  {event : Event} {t : Timeo} {timers : List Timeo} {iecho : Echo} {ms : Nat}

structure Regular (pingOpt : PingOption) (s : Session) (m : PingMsg) (pending : List Timeo) : Prop where
  first : 1 ≤ s.requests.length
  full : s.requests.length + m.sentCount.toNat = (maxCount pingOpt).toNat + 1
  tags : pending.Pairwise fun t u => t.request < u.request
  among : ∀ t ∈ pending, 1 ≤ t.request ∧ t.request ≤ s.requests.length
  own : ∀ t ∈ pending, t.request = s.requests.length → t.time = s.pingSent + pingTimeoutMs
  settled : ∀ k, 1 ≤ k → k ≤ s.requests.length →
    s.calls.countP (fun call => call.request = k) + pending.countP (fun t => t.request = k) = 1
  known : ∀ call ∈ s.calls, 1 ≤ call.request ∧ call.request ≤ s.requests.length
  kinds : ∀ call ∈ s.calls, call.resp.pingErr = 0 ∨ call.resp.pingErr = -1
  counted : m.timeoutCount = UInt32.ofNat (s.calls.countP fun call => call.resp.pingErr = -1)
  answered : Answered s s.requests.length → pending = []
  expired : ∀ call ∈ s.calls, call.request = s.requests.length → call.resp.pingErr = -1 → s.pingSent + pingTimeoutMs ≤ s.now

theorem settled_shift {calls : List Call} {pending : List Timeo} {resp : PingResp} {k : Nat}
    (settled : calls.countP (fun call => call.request = k) + (t :: pending).countP (fun t => t.request = k) = 1) :
    (calls ++ [(⟨t.request,resp⟩ : Call)]).countP (fun call => call.request = k) + pending.countP (fun t => t.request = k) = 1 := by
  rw [List.countP_cons] at settled
  rw [List.countP_append,List.countP_singleton]
  dsimp only
  omega

namespace Regular
variable {pending : List Timeo}

theorem waits (regular : Regular pingOpt s m pending) (ms : Nat) : Regular pingOpt {s with now := s.now + ms} m pending :=
  {regular with expired := fun call member own late =>
    Nat.le_trans (regular.expired call member own late) (Nat.le_add_right _ _)}

theorem times_out (regular : Regular pingOpt s m (t :: pending)) (due : t.time = s.now) :
    Regular pingOpt {s with
      pingmsg := some {m with timeoutCount := m.timeoutCount + 1}
      timers
      calls := s.calls ++ [⟨t.request,⟨0,0,0,0,0,-1⟩⟩]} {m with timeoutCount := m.timeoutCount + 1} pending := by
  have here := regular.among t List.mem_cons_self
  have others : ∀ u ∈ pending, u ∈ t :: pending := fun u => List.mem_cons_of_mem t
  refine ⟨regular.first,regular.full,(List.pairwise_cons.mp regular.tags).2,fun u member => regular.among u (others u member),
    fun u member => regular.own u (others u member),fun k low high => settled_shift (regular.settled k low high),?_,?_,?_,?_,?_⟩
  · exact List.forall_mem_append.mpr ⟨regular.known,List.forall_mem_singleton.mpr here⟩
  · exact List.forall_mem_append.mpr ⟨regular.kinds,List.forall_mem_singleton.mpr (.inr rfl)⟩
  · dsimp only
    rw [regular.counted,List.countP_append]
    exact (UInt32.ofNat_add _ _).symm
  · rintro ⟨call,member,own,success⟩
    rcases List.mem_append.mp member with old | new
    · have none_ := regular.answered ⟨call,old,own,success⟩
      cases none_
    · cases List.mem_singleton.mp new
      cases success
  · intro call member own late
    rcases List.mem_append.mp member with old | new
    · exact regular.expired call old own late
    · cases List.mem_singleton.mp new
      exact Nat.le_of_eq ((regular.own t List.mem_cons_self own).symm.trans due)

theorem alone (regular : Regular pingOpt s m (t :: pending)) (own : t.request = s.requests.length) : pending = [] := by
  cases pending with
  | nil => rfl
  | cons u pending =>
    have later := (List.pairwise_cons.mp regular.tags).1 u List.mem_cons_self
    have among := regular.among u (by simp)
    omega

theorem takes (regular : Regular pingOpt s m (t :: pending)) (own : t.request = s.requests.length) (seqno : UInt16) :
    Regular pingOpt {s with
      timers
      seqno
      calls := s.calls ++ [⟨s.requests.length,⟨0,(ntohs seqno).toUInt32,0,pingDataSize,0,0⟩⟩]} m pending := by
  obtain rfl := regular.alone own
  refine ⟨regular.first,regular.full,.nil,by simp,by simp,fun k low high => ?_,?_,?_,?_,fun _ => rfl,?_⟩
  · rw [← own]
    exact settled_shift (regular.settled k low high)
  · exact List.forall_mem_append.mpr ⟨regular.known,List.forall_mem_singleton.mpr ⟨regular.first,Nat.le_refl _⟩⟩
  · exact List.forall_mem_append.mpr ⟨regular.kinds,List.forall_mem_singleton.mpr (.inl rfl)⟩
  · dsimp only
    rw [regular.counted,List.countP_append]
    rfl
  · intro call member latest late
    rcases List.mem_append.mp member with old | new
    · exact regular.expired call old latest late
    · cases List.mem_singleton.mp new
      cases late

theorem fresh (regular : Regular pingOpt s m pending) : ∀ call ∈ s.calls, call.request ≠ s.requests.length + 1 := by
  intro call member
  have known := regular.known call member
  omega

theorem settled_further (regular : Regular pingOpt s m pending) (due : Nat) {k : Nat} (low : 1 ≤ k)
    (high : k ≤ s.requests.length + 1) :
    s.calls.countP (fun call => call.request = k) +
      (pending ++ [(⟨due,.pingTimeout,s.requests.length + 1⟩ : Timeo)]).countP (fun t => t.request = k) = 1 := by
  rw [List.countP_append,List.countP_singleton]
  dsimp only
  by_cases latest : k = s.requests.length + 1
  · have uncalled : s.calls.countP (fun call => call.request = k) = 0 :=
      List.countP_eq_zero.mpr fun call member => by simpa [latest] using regular.fresh call member
    have unarmed : pending.countP (fun t => t.request = k) = 0 := by
      refine List.countP_eq_zero.mpr fun t member => ?_
      have among := regular.among t member
      simp only [decide_eq_true_eq]
      omega
    rw [uncalled,unarmed,latest]
    simp
  · have settled := regular.settled k low (by omega)
    have other : ¬ s.requests.length + 1 = k := fun equal => latest equal.symm
    simpa [other] using settled

theorem sends (regular : Regular pingOpt s m pending) {m' : PingMsg} (pred : m'.sentCount.toNat + 1 = m.sentCount.toNat)
    (same : m'.timeoutCount = m.timeoutCount) : Regular pingOpt (sendAndWait {s with timers} m' true) m'
      (pending ++ [⟨s.now + pingTimeoutMs,.pingTimeout,s.requests.length + 1⟩]) := by
  obtain ⟨_,now,sent,calls,requests⟩ := sendAndWait_same {s with timers} m' true
  have full := regular.full
  dsimp only [Bool.toNat_true] at requests
  refine ⟨by omega,by omega,?_,?_,?_,fun k low high => ?_,?_,?_,?_,?_,?_⟩
  · refine List.pairwise_append.mpr ⟨regular.tags,List.pairwise_singleton _ _,fun t member u new => ?_⟩
    rw [List.mem_singleton.mp new]
    exact Nat.lt_succ_of_le (regular.among t member).2
  · rw [requests]
    refine List.forall_mem_append.mpr ⟨fun t member => ?_,List.forall_mem_singleton.mpr ⟨Nat.le_add_left 1 _,Nat.le_refl _⟩⟩
    have among := regular.among t member
    omega
  · rw [requests,sent]
    refine List.forall_mem_append.mpr ⟨fun t member latest => ?_,List.forall_mem_singleton.mpr fun _ => rfl⟩
    have among := regular.among t member
    omega
  · rw [calls]
    exact regular.settled_further _ low (by omega)
  · rw [calls,requests]
    intro call member
    have known := regular.known call member
    omega
  · rw [calls]
    exact regular.kinds
  · rw [calls,same]
    exact regular.counted
  · rw [requests]
    rintro ⟨call,member,latest,_⟩
    rw [calls] at member
    exact absurd latest (regular.fresh call member)
  · rw [requests,calls]
    intro call member latest
    exact absurd latest (regular.fresh call member)

theorem unanswered (regular : Regular pingOpt s m []) : s.calls.countP (fun call => call.resp.pingErr = -1) =
    (List.range s.requests.length).countP fun k => ¬ Answered s (k + 1) := by
  have once : ∀ k, 1 ≤ k → k ≤ s.requests.length → s.calls.countP (fun call => call.request = k) = 1 := fun k low high => by
    simpa using regular.settled k low high
  have nodup : (s.calls.map Call.request).Nodup := by
    refine List.nodup_iff_count_le_one.mpr fun k => ?_
    have counts : (s.calls.map Call.request).count k = s.calls.countP fun call => call.request = k := by
      rw [List.count,List.countP_map]
      exact List.countP_congr fun call _ => by simp
    rw [counts]
    by_cases inside : 1 ≤ k ∧ k ≤ s.requests.length
    · exact Nat.le_of_eq (once k inside.1 inside.2)
    · have none_ : s.calls.countP (fun call => call.request = k) = 0 :=
        List.countP_eq_zero.mpr fun call member same => inside (of_decide_eq_true same ▸ regular.known call member)
      omega
  have apart : ∀ one ∈ s.calls, ∀ two ∈ s.calls, one.request = two.request → one = two :=
    fun one first two second => List.inj_on_of_nodup_map nodup first second
  have same : ((s.calls.filter fun call => call.resp.pingErr = -1).map Call.request).Perm
      (((List.range s.requests.length).filter fun k => ¬ Answered s (k + 1)).map (· + 1)) := by
    refine (List.perm_ext_iff_of_nodup ?_ ?_).mpr fun k => ?_
    · exact nodup.sublist (List.filter_sublist.map _)
    · exact (List.nodup_range.filter _).map fun _ _ => Nat.succ.inj
    · simp only [List.mem_map,List.mem_filter,List.mem_range,decide_eq_true_eq]
      constructor
      · rintro ⟨call,⟨member,late⟩,rfl⟩
        obtain ⟨low,high⟩ := regular.known call member
        refine ⟨call.request - 1,⟨by omega,?_⟩,by omega⟩
        rintro ⟨other,member',equal,success⟩
        rw [apart other member' call member (by omega),late] at success
        exact absurd success (by decide)
      · rintro ⟨j,⟨below,open_⟩,rfl⟩
        have some_ : 0 < s.calls.countP (fun call => call.request = j + 1) := by
          rw [once (j + 1) (by omega) (by omega)]
          exact Nat.one_pos
        obtain ⟨call,member,equal⟩ := List.countP_pos_iff.mp some_
        have request := of_decide_eq_true equal
        refine ⟨call,⟨member,?_⟩,request⟩
        rcases regular.kinds call member with success | late
        · exact absurd ⟨call,member,request,success⟩ open_
        · exact late
  have length := same.length_eq
  rwa [List.length_map,List.length_map,← List.countP_eq_length_filter,← List.countP_eq_length_filter] at length

-- At the end of a session no timeout is left exactly when the interval has been
-- long enough or the last request has been answered.
theorem closed_iff (live : Live pingOpt start s m [] behind) (regular : Regular pingOpt s m behind)
    (due : s.pingSent + (coarseTime pingOpt).toNat = s.now) :
    behind = [] ↔ pingTimeoutMs ≤ (coarseTime pingOpt).toNat ∨ Answered s s.requests.length := by
  constructor
  · intro none_
    by_cases long : pingTimeoutMs ≤ (coarseTime pingOpt).toNat
    · exact .inl long
    · have settled := regular.settled s.requests.length regular.first (Nat.le_refl _)
      rw [none_,List.countP_nil] at settled
      obtain ⟨call,member,equal⟩ := List.countP_pos_iff.mp (by omega : 0 < s.calls.countP fun call => call.request = s.requests.length)
      have latest := of_decide_eq_true equal
      rcases regular.kinds call member with success | late
      · exact .inr ⟨call,member,latest,success⟩
      · have expired := regular.expired call member latest late
        omega
  · rintro (long | answered)
    · refine List.eq_nil_iff_forall_not_mem.mpr fun t member => ?_
      have after := live.late t member
      have near := (live.timeouts t member).2
      omega
    · exact regular.answered answered

theorem outcomes (regular : Regular pingOpt s m []) (over_ : m.sentCount.toNat = 1) {report : Option PingResp}
    (told : pingOpt.sentFunction = true → ∃ resp, report = some resp ∧ resp.timeoutCount = m.timeoutCount) :
    Outcomes pingOpt {s with pingmsg := none,timers := [],report} := by
  have full := regular.full
  have sent : s.requests.length = (maxCount pingOpt).toNat := by omega
  refine ⟨fun k low high => by simpa using regular.settled k low high,regular.known,regular.kinds,sent,rfl,fun set => ?_⟩
  obtain ⟨resp,same,counted⟩ := told set
  refine ⟨resp,same,?_⟩
  have few : s.calls.countP (fun call => call.resp.pingErr = -1) < 4294967296 := by
    have less := List.countP_le_length (p:=fun k => decide ¬ Answered s (k + 1)) (l:=List.range s.requests.length)
    have small := (maxCount pingOpt).toNat_lt
    rw [List.length_range,← regular.unanswered,sent] at less
    omega
  rw [counted,regular.counted,UInt32.toNat_ofNat',Nat.mod_eq_of_lt few]
  exact regular.unanswered

end Regular

def remaining (s : Session) : Nat := s.pingmsg.elim 0 fun m => m.sentCount.toNat - 1

-- What cannot be made good any more: a request that was not sent, one with two
-- outcomes, one that is to have none, and a timer that refers to freed memory.
inductive Spoiled (pingOpt : PingOption) (s : Session) : Prop where
  | short : s.requests.length + remaining s < (maxCount pingOpt).toNat → Spoiled pingOpt s
  | twice : 1 ≤ k → k ≤ s.requests.length → 2 ≤ s.calls.countP (fun call => call.request = k) → Spoiled pingOpt s
  | lost : 1 ≤ k → k < s.requests.length → (∀ call ∈ s.calls, call.request ≠ k) →
      (∀ t ∈ s.timers, t.handler = .pingTimeout → t.request ≠ k) → Spoiled pingOpt s
  | dangling : s.pingmsg = none → s.timers ≠ [] → Spoiled pingOpt s

theorem Regular.taken_twice {resp : PingResp} (regular : Regular pingOpt s m []) (requests : next.requests = s.requests)
    (calls : next.calls = s.calls ++ [⟨s.requests.length,resp⟩]) : Spoiled pingOpt next := by
  have once := regular.settled s.requests.length regular.first (Nat.le_refl _)
  rw [List.countP_nil,Nat.add_zero] at once
  refine .twice (k:=s.requests.length) regular.first (Nat.le_of_eq (by rw [requests])) ?_
  rw [calls,List.countP_append,List.countP_singleton,if_pos (decide_eq_true rfl)]
  exact Nat.succ_le_succ (Nat.le_of_eq once.symm)

theorem Regular.taken_lost {resp : PingResp} {rest : List Timeo} (regular : Regular pingOpt s m (t :: rest))
    (other : t.request ≠ s.requests.length) (requests : next.requests = s.requests)
    (calls : next.calls = s.calls ++ [⟨s.requests.length,resp⟩])
    (pending : ∀ u ∈ next.timers, u.handler = .pingTimeout → u ∈ rest) : Spoiled pingOpt next := by
  have among := regular.among t List.mem_cons_self
  have once := regular.settled t.request among.1 among.2
  rw [List.countP_cons,if_pos (decide_eq_true rfl)] at once
  have never := List.countP_eq_zero.mp (by omega : s.calls.countP (fun call => call.request = t.request) = 0)
  refine .lost (k:=t.request) among.1 ?_ ?_ fun u member kind => ?_
  · rw [requests]
    exact Nat.lt_of_le_of_ne among.2 other
  · rw [calls]
    refine List.forall_mem_append.mpr ⟨fun call member => by simpa using never call member,List.forall_mem_singleton.mpr ?_⟩
    exact fun equal => other equal.symm
  · exact Nat.ne_of_gt ((List.pairwise_cons.mp regular.tags).1 u (pending u member kind))

theorem Spoiled.not_outcomes (spoiled : Spoiled pingOpt s) (over_ : s.pingmsg = none) : ¬ Outcomes pingOpt s := by
  intro outcomes
  cases spoiled with
  | short less =>
    have sent := outcomes.sent
    rw [remaining,over_,Option.elim_none] at less
    omega
  | twice low high more =>
    have once := outcomes.once _ low high
    omega
  | lost low high never _ =>
    have once := outcomes.once _ low (Nat.le_of_lt high)
    rw [List.countP_eq_zero.mpr fun call member => by simpa using never call member] at once
    cases once
  | dangling _ some_ => exact some_ outcomes.untimed

structure Grows (s next : Session) : Prop where
  requests : s.requests.length ≤ next.requests.length
  calls : ∃ more, next.calls = s.calls ++ more ∧ ∀ call ∈ more, call.request = s.requests.length ∨
    ∃ t ∈ s.timers, t.handler = .pingTimeout ∧ t.request = call.request
  timers : ∀ t ∈ next.timers, t.handler = .pingTimeout → t ∈ s.timers ∨ s.requests.length ≤ t.request

theorem Grows.quiet (requests : next.requests = s.requests) (calls : next.calls = s.calls)
    (timers : ∀ t ∈ next.timers, t ∈ s.timers) : Grows s next := by
  exact ⟨Nat.le_of_eq (by rw [requests]),⟨[],by rw [calls,List.append_nil],by simp⟩,fun t member _ => .inl (timers t member)⟩

theorem sendAndWait_grows (m : PingMsg) (buffer : Bool) (fewer : ∀ t ∈ timers, t ∈ s.timers) :
    Grows s (sendAndWait {s with timers} m buffer) := by
  obtain ⟨_,_,_,calls,requests⟩ := sendAndWait_same {s with timers} m buffer
  refine ⟨by rw [requests]; exact Nat.le_add_right _ _,⟨[],by rw [calls,List.append_nil],by simp⟩,fun t member kind => ?_⟩
  rw [sendAndWait_timers] at member
  rcases mem_arm.mp member with rfl | member
  · cases kind
  · rcases mem_arm.mp member with rfl | old
    · exact .inr (Nat.le_add_right _ _)
    · exact .inl (fewer t old)

theorem Live.grows (live : Live pingOpt start s m front behind) (recv : pingOpt.recvFunction = true)
    (step : Step s event next) : Grows s next := by
  cases step.move with
  | wait room => exact .quiet rfl rfl fun t => id
  | @timeout t timers pingmsg _ first running due kind =>
    obtain rfl := live.only running
    rw [live.timeout_result recv]
    refine ⟨Nat.le_refl _,⟨_,rfl,List.forall_mem_singleton.mpr (.inr ⟨t,by rw [first]; exact List.mem_cons_self,kind,rfl⟩)⟩,?_⟩
    exact fun u member _ => .inl (by rw [first]; exact List.mem_cons_of_mem _ member)
  | further first running due kind more =>
    exact sendAndWait_grows _ _ fun u member => by rw [first]; exact List.mem_cons_of_mem _ member
  | @last t timers pingmsg buffer first running due kind over_ =>
    obtain rfl := live.only running
    obtain ⟨report,result,_⟩ := live.ends first kind over_ buffer
    rw [result]
    refine .quiet rfl rfl fun u member => ?_
    rw [live.timers]
    exact List.mem_append_right _ (List.mem_cons_of_mem _ member)
  | taken running taken =>
    obtain rfl := live.only running
    rw [live.taken_result recv taken]
    exact ⟨Nat.le_refl _,⟨_,rfl,List.forall_mem_singleton.mpr (.inl rfl)⟩,fun t member _ => .inl (List.mem_of_mem_eraseP member)⟩
  | left _ => exact .quiet rfl rfl fun t => id

-- No step makes up for a request that has not been sent.
theorem Live.counts (live : Live pingOpt start s m front behind) (recv : pingOpt.recvFunction = true)
    (step : Step s event next) : next.requests.length + remaining next ≤ s.requests.length + remaining s := by
  have before : remaining s = m.sentCount.toNat - 1 := by rw [remaining,live.running,Option.elim_some]
  cases step.move with
  | wait room => exact Nat.le_refl _
  | timeout first running due kind =>
    obtain rfl := live.only running
    rw [live.timeout_result recv,before]
    exact Nat.le_refl _
  | @further t timers pingmsg buffer first running due kind more =>
    obtain rfl := live.only running
    obtain ⟨pred,some_⟩ := live.pred_left more
    obtain ⟨on,_,_,_,requests⟩ := sendAndWait_same {s with timers} {pingmsg with sentCount := pingmsg.sentCount - 1} buffer
    have room : buffer.toNat ≤ 1 := Bool.toNat_le buffer
    rw [before,remaining,on,Option.elim_some,requests]
    dsimp only
    omega
  | @last t timers pingmsg buffer first running due kind over_ =>
    obtain rfl := live.only running
    obtain ⟨report,result,_⟩ := live.ends first kind over_ buffer
    rw [result]
    exact Nat.le_add_right _ _
  | taken running taken =>
    obtain rfl := live.only running
    rw [live.taken_result recv taken]
    exact Nat.le_refl _
  | left _ => exact Nat.le_refl _

theorem Spoiled.step (begun : Begun pingOpt start s) (recv : pingOpt.recvFunction = true) (spoiled : Spoiled pingOpt s)
    (step : Step s event next) : Spoiled pingOpt next := by
  rcases begun with ⟨m,front,behind,live⟩ | over_
  · have grows := live.grows recv step
    obtain ⟨more,calls,about⟩ := grows.calls
    cases spoiled with
    | short less => exact .short (Nat.lt_of_le_of_lt (live.counts recv step) less)
    | twice low high many =>
      refine .twice low (Nat.le_trans high grows.requests) ?_
      rw [calls,List.countP_append]
      exact Nat.le_trans many (Nat.le_add_right _ _)
    | @lost k low high never none_ =>
      refine .lost low (Nat.lt_of_lt_of_le high grows.requests) (fun call member => ?_) fun t member kind => ?_
      · rw [calls] at member
        rcases List.mem_append.mp member with old | new
        · exact never call old
        · rcases about call new with latest | ⟨t,there,kind,same⟩
          · omega
          · exact same ▸ none_ t there kind
      · rcases grows.timers t member kind with old | latest
        · exact none_ t old kind
        · omega
    | dangling over_ _ => cases live.running.symm.trans over_
  · obtain ⟨now,rfl⟩ := over_same over_ step
    cases spoiled with
    | short less => exact .short less
    | twice low high many => exact .twice low high many
    | lost low high never none_ => exact .lost low high never none_
    | dangling over_ some_ => exact .dangling over_ some_

def Good (pingOpt : PingOption) (start : Nat) (s : Session) : Prop :=
  (∃ m front behind, Live pingOpt start s m front behind ∧ Regular pingOpt s m (front ++ behind)) ∨
    (s.pingmsg = none ∧ Outcomes pingOpt s)

section Steps
variable (live : Live pingOpt start s m front behind) (regular : Regular pingOpt s m (front ++ behind))
  (recv : pingOpt.recvFunction = true)
include live regular

theorem further_good (first : s.timers = t :: timers) (due : t.time = s.now) (kind : t.handler = .pingCoarseTmr)
    (more : m.sentCount - 1 ≠ 0) (buffer : Bool) :
    (Orderly s (.timer buffer) ↔ buffer = true) ∧
      (buffer = true → Good pingOpt start (sendAndWait {s with timers} {m with sentCount := m.sentCount - 1} buffer)) ∧
      (buffer ≠ true → Spoiled pingOpt (sendAndWait {s with timers} {m with sentCount := m.sentCount - 1} buffer)) := by
  obtain ⟨rfl,_,_⟩ := live.rings first kind
  obtain ⟨pred,some_⟩ := live.pred_left more
  obtain ⟨front',behind',later,all⟩ := live.sends first kind due more buffer
  refine ⟨⟨fun orderly => ?_,fun given t' timers' m' first' _ running' => ?_⟩,fun given => ?_,fun refused => ?_⟩
  · have asked := orderly t timers m first kind live.running
    rwa [if_pos more] at asked
  · cases live.running.symm.trans running'
    rwa [if_pos more]
  · subst given
    refine .inl ⟨_,front',behind',later,?_⟩
    rw [all]
    exact regular.sends pred rfl
  · obtain ⟨on,_,_,_,requests⟩ := sendAndWait_same {s with timers} {m with sentCount := m.sentCount - 1} buffer
    have full := regular.full
    refine .short ?_
    rw [remaining,on,Option.elim_some,requests,Bool.eq_false_iff.mpr refused,Bool.toNat_false]
    dsimp only
    omega

theorem last_good (first : s.timers = t :: timers) (due : t.time = s.now) (kind : t.handler = .pingCoarseTmr)
    (over_ : m.sentCount - 1 = 0) (buffer : Bool) :
    (Orderly s (.timer buffer) ↔ behind = []) ∧ (behind = [] → Good pingOpt start (pingCoarseTmr {s with timers} m buffer)) ∧
      (behind ≠ [] → Spoiled pingOpt (pingCoarseTmr {s with timers} m buffer)) := by
  obtain ⟨rfl,rfl,rings⟩ := live.rings first kind
  obtain ⟨report,result,told⟩ := live.ends first kind over_ buffer
  have closed := regular.closed_iff live (rings.symm.trans due)
  have one : m.sentCount.toNat = 1 := by
    have pred : (m.sentCount - 1).toNat = m.sentCount.toNat - 1 :=
      UInt32.toNat_sub_of_le _ _ (UInt32.le_iff_toNat_le.mpr live.left)
    have left := live.left
    rw [over_,UInt32.toNat_zero] at pred
    omega
  refine ⟨⟨fun orderly => ?_,fun none_ t' timers' m' first' _ running' => ?_⟩,fun none_ => .inr ?_,fun some_ => ?_⟩
  · have asked := orderly t timers m first kind live.running
    rw [if_neg (not_not.mpr over_),live.coarse] at asked
    exact closed.mpr asked
  · cases live.running.symm.trans running'
    rw [if_neg (not_not.mpr over_),live.coarse]
    exact closed.mp none_
  · rw [result]
    subst none_
    exact ⟨rfl,regular.outcomes one told⟩
  · rw [result]
    exact .dangling rfl some_

include recv

theorem taken_good (taken : Taken s iecho) :
    (Orderly s (.packet iecho) ∧ Good pingOpt start (pingRecv s m iecho)) ∨
      (¬ Orderly s (.packet iecho) ∧ Spoiled pingOpt (pingRecv s m iecho)) := by
  obtain ⟨front',behind',all,later⟩ := live.takes taken
  have result := live.taken_result recv taken
  have find := live.find
  generalize pending_ : front ++ behind = pending at regular find all
  cases pending with
  | nil =>
    refine .inr ⟨fun orderly => ?_,?_⟩
    · obtain ⟨u,found,_⟩ := orderly m live.running taken
      cases find.symm.trans found
    · rw [result]
      exact regular.taken_twice rfl rfl
  | cons u rest =>
    by_cases own : u.request = s.requests.length
    · refine .inl ⟨fun m' running' _ => ⟨u,find,own⟩,.inl ⟨m,front',behind',later,?_⟩⟩
      rw [all,result]
      exact regular.takes own iecho.seqno
    · refine .inr ⟨fun orderly => ?_,?_⟩
      · obtain ⟨v,found,latest⟩ := orderly m live.running taken
        cases find.symm.trans found
        exact own latest
      · have pending : ∀ t ∈ (pingRecv s m iecho).timers, t.handler = .pingTimeout → t ∈ rest := by
          intro t member kind
          have inside := later.pending member kind
          rwa [all] at inside
        rw [result] at pending ⊢
        exact regular.taken_lost own rfl rfl pending

end Steps

-- Here all orders of replies, timeouts and further requests come together.
theorem Good.step (good : Good pingOpt start s) (recv : pingOpt.recvFunction = true) (step : Step s event next) :
    (Orderly s event ∧ Good pingOpt start next) ∨ (¬ Orderly s event ∧ Spoiled pingOpt next) := by
  rcases good with ⟨m,front,behind,live,regular⟩ | ⟨over_,outcomes⟩
  · cases step.move with
    | wait room => exact .inl ⟨trivial,.inl ⟨m,front,behind,live.waits room,regular.waits _⟩⟩
    | timeout first running due kind =>
      obtain rfl := live.only running
      obtain ⟨rest,rfl,later⟩ := live.times_out first kind
      refine .inl ⟨fun t timers m first' kind' => ?_,.inl ⟨_,rest,behind,later,?_⟩⟩
      · cases first.symm.trans first'
        cases kind.symm.trans kind'
      · rw [live.timeout_result recv]
        exact Regular.times_out regular due
    | further first running due kind more =>
      obtain rfl := live.only running
      obtain ⟨orderly,good,spoiled⟩ := further_good live regular first due kind more _
      exact (Classical.em _).imp (fun given => ⟨orderly.mpr given,good given⟩)
        fun refused => ⟨mt orderly.mp refused,spoiled refused⟩
    | last first running due kind over_ =>
      obtain rfl := live.only running
      obtain ⟨orderly,good,spoiled⟩ := last_good live regular first due kind over_ _
      exact (Classical.em _).imp (fun none_ => ⟨orderly.mpr none_,good none_⟩)
        fun some_ => ⟨mt orderly.mp some_,spoiled some_⟩
    | taken running taken =>
      obtain rfl := live.only running
      exact taken_good live regular recv taken
    | left idle => exact .inl ⟨fun m running taken => absurd taken (idle m running),.inl ⟨m,front,behind,live,regular⟩⟩
  · obtain ⟨now,rfl⟩ := over_same over_ step
    refine .inl ⟨?_,.inr ⟨over_,outcomes.once,outcomes.known,outcomes.kinds,outcomes.sent,outcomes.untimed,outcomes.report⟩⟩
    cases event with
    | wait ms => trivial
    | timer buffer => exact fun t timers m _ _ running => by cases over_.symm.trans running
    | packet iecho => exact fun m running => by cases over_.symm.trans running

section Silent
variable (unset : pingOpt.recvFunction = false)
include unset

theorem recvFunction_unset (option : m.pingOpt = pingOpt) (s : Session) (request : Nat) (resp : PingResp) :
    recvFunction s m request resp = s := by
  simp [recvFunction,option,unset]

theorem Live.silent (live : Live pingOpt start s m front behind) (step : Step s event next) : next.calls = s.calls := by
  cases step.move with
  | wait room => rfl
  | timeout first running due kind =>
    obtain rfl := live.only running
    rw [pingTimeout,recvFunction_unset unset live.option]
  | further first running due kind more => exact (sendAndWait_same _ _ _).2.2.2.1
  | @last t timers pingmsg buffer first running due kind over_ =>
    obtain rfl := live.only running
    obtain ⟨report,result,_⟩ := live.ends first kind over_ buffer
    rw [result]
  | taken running taken =>
    obtain rfl := live.only running
    rw [pingRecv,if_pos taken]
    dsimp only
    rw [recvFunction_unset unset live.option]
  | left _ => rfl

end Silent

section Start
variable (pingSeqNum seqno : UInt16) (now : Nat) (pingOpt : PingOption)

theorem pingStart_good : Good pingOpt now (pingStart pingSeqNum seqno now pingOpt true) := by
  obtain ⟨front,behind,live,all⟩ := pingStart_live pingSeqNum seqno now pingOpt true
  have calls : (pingStart pingSeqNum seqno now pingOpt true).calls = [] := rfl
  refine .inl ⟨_,front,behind,live,?_⟩
  rw [all]
  refine ⟨Nat.le_refl _,Nat.add_comm _ _,List.pairwise_singleton _ _,List.forall_mem_singleton.mpr ⟨Nat.le_refl _,Nat.le_refl _⟩,
    List.forall_mem_singleton.mpr fun _ => rfl,fun k low high => ?_,by simp [calls],by simp [calls],rfl,?_,by simp [calls]⟩
  · cases Nat.le_antisymm low high
    rfl
  · rintro ⟨call,member,_⟩
    cases member

theorem pingStart_spoiled : Spoiled pingOpt (pingStart pingSeqNum seqno now pingOpt false) := by
  have pos := maxCount_pos pingOpt
  refine .short ?_
  change 0 + ((maxCount pingOpt).toNat - 1) < (maxCount pingOpt).toNat
  omega

variable {pingSeqNum seqno now pingOpt}

theorem silent_run (unset : pingOpt.recvFunction = false) (path : Runs Step (pingStart pingSeqNum seqno now pingOpt buffer) past s) :
    s.calls = [] := by
  obtain ⟨front,behind,live,_⟩ := pingStart_live pingSeqNum seqno now pingOpt buffer
  have both : Begun pingOpt now s ∧ s.calls = [] := by
    refine path.keeps (I:=fun s => Begun pingOpt now s ∧ s.calls = []) ⟨.inl ⟨_,front,behind,live⟩,?_⟩ ?_
    · exact (sendAndWait_same _ _ _).2.2.2.1
    · rintro s event next ⟨begun,none_⟩ step
      refine ⟨begun.step step,?_⟩
      rcases begun with ⟨m,front,behind,live⟩ | over_
      · rw [live.silent unset step,none_]
      · obtain ⟨now,rfl⟩ := over_same over_ step
        exact none_
  exact both.2

theorem Good.begun (good : Good pingOpt now s) : Begun pingOpt now s :=
  good.imp (fun ⟨m,front,behind,live,_⟩ => ⟨m,front,behind,live⟩) And.left

theorem spoiled_run (recv : pingOpt.recvFunction = true)
    (path : Runs Step (pingStart pingSeqNum seqno now pingOpt false) past s) : Spoiled pingOpt s := by
  obtain ⟨front,behind,live,_⟩ := pingStart_live pingSeqNum seqno now pingOpt false
  have both : Begun pingOpt now s ∧ Spoiled pingOpt s := by
    refine path.keeps (I:=fun s => Begun pingOpt now s ∧ Spoiled pingOpt s)
      ⟨.inl ⟨_,front,behind,live⟩,pingStart_spoiled _ _ _ _⟩ ?_
    exact fun ⟨begun,spoiled⟩ step => ⟨begun.step step,spoiled.step begun recv step⟩
  exact both.2

theorem orderly_run (recv : pingOpt.recvFunction = true)
    (path : Runs Step (pingStart pingSeqNum seqno now pingOpt true) past s) :
    Runs OrderlyStep (pingStart pingSeqNum seqno now pingOpt true) past s ∨ Spoiled pingOpt s := by
  have splits {s next : Session} {event : Event} (good : Good pingOpt now s) (step : Step s event next) :
      (Orderly s event ∧ Good pingOpt now next) ∨ (¬ Orderly s event ∧ Begun pingOpt now next ∧ Spoiled pingOpt next) :=
    (good.step recv step).imp_right fun bad => ⟨bad.1,good.begun.step step,bad.2⟩
  have stays {s next : Session} {event : Event} (bad : Begun pingOpt now s ∧ Spoiled pingOpt s) (step : Step s event next) :
      Begun pingOpt now next ∧ Spoiled pingOpt next := ⟨bad.1.step step,bad.2.step bad.1 recv step⟩
  have either := path.meets_or (pingStart_good pingSeqNum seqno now pingOpt) splits stays
  exact either.imp And.left fun bad => bad.2

theorem good_run (recv : pingOpt.recvFunction = true)
    (path : Runs OrderlyStep (pingStart pingSeqNum seqno now pingOpt true) past s) : Good pingOpt now s := by
  refine path.keeps (pingStart_good pingSeqNum seqno now pingOpt) fun good step => ?_
  exact (good.step recv step.1).elim And.right fun bad => absurd step.2 bad.1

-- What a finished session is to have done it has done exactly when every step of it
-- was orderly; and one that goes on can be finished, and is not later than its end.
theorem ping_outcomes (path : Runs Step (pingStart pingSeqNum seqno now pingOpt buffer) past s) :
    (s.pingmsg = none → (Outcomes pingOpt s ↔ pingOpt.recvFunction = true ∧ buffer = true ∧
      Runs OrderlyStep (pingStart pingSeqNum seqno now pingOpt buffer) past s)) ∧
    (s.pingmsg ≠ none → s.now ≤ now + (maxCount pingOpt).toNat * (coarseTime pingOpt).toNat ∧
      ∃ events next, Runs Step s events next ∧ next.pingmsg = none) := by
  refine ⟨fun over_ => ⟨fun outcomes => ?_,?_⟩,fun on => ?_⟩
  · have some_ : 1 ≤ s.requests.length := by
      rw [outcomes.sent]
      exact maxCount_pos pingOpt
    have recv : pingOpt.recvFunction = true := by
      refine Bool.of_not_eq_false fun unset => ?_
      have once := outcomes.once 1 (Nat.le_refl 1) some_
      rw [silent_run unset path] at once
      cases once
    cases buffer with
    | false => exact absurd outcomes ((spoiled_run recv path).not_outcomes over_)
    | true =>
      refine ⟨recv,rfl,(orderly_run recv path).resolve_right fun spoiled => ?_⟩
      exact spoiled.not_outcomes over_ outcomes
  · rintro ⟨recv,rfl,orderly⟩
    rcases good_run recv orderly with ⟨m,front,behind,live,_⟩ | ⟨_,outcomes⟩
    · cases live.running.symm.trans over_
    · exact outcomes
  · obtain ⟨front,behind,live,_⟩ := pingStart_live pingSeqNum seqno now pingOpt buffer
    rcases path.keeps (.inl ⟨_,front,behind,live⟩) Begun.step with ⟨m,front,behind,live⟩ | over_
    · exact ⟨live.in_time,live.finishes⟩
    · exact absurd over_ on

end Start

theorem one_answered : ∃ past s, Runs Step (pingStart 0 0 0 ⟨1,2,true,true⟩ true) past s ∧ Outcomes ⟨1,2,true,true⟩ s := by
  have sent : Runs OrderlyStep (pingStart 0 0 0 ⟨1,2,true,true⟩ true) [.wait 300] _ := .single ⟨wait_step (by decide),trivial⟩
  have replied : Runs OrderlyStep _ (_ ++ [.packet ⟨icmpEr,pingId,htons 1⟩]) _ :=
    sent.step ⟨rfl,fun m _ _ => ⟨⟨1000,.pingTimeout,1⟩,rfl,rfl⟩⟩
  have waited : Runs OrderlyStep _ (_ ++ [.wait 1700]) _ := replied.step ⟨wait_step (by decide),trivial⟩
  have path : Runs OrderlyStep _ (_ ++ [.timer true]) _ := waited.step
    ⟨coarse_step rfl rfl rfl rfl,fun t timers m first kind running => by cases first; cases running; decide⟩
  exact ⟨_,_,path.mono And.left,((ping_outcomes (path.mono And.left)).1 rfl).mpr ⟨rfl,rfl,path⟩⟩

-- A reply that comes after the timeout of its request is reported as well.
theorem late_outcomes : ¬ ∀ (pingSeqNum seqno : UInt16) (now : Nat) (pingOpt : PingOption) (past : List Event) (s : Session),
    pingOpt.recvFunction = true → Runs Step (pingStart pingSeqNum seqno now pingOpt true) past s → s.pingmsg = none →
      Outcomes pingOpt s := by
  intro all
  have run : [.wait 1000,.timer true,.wait 500,.packet ⟨icmpEr,pingId,htons 1⟩,.wait 500,.timer true].foldlM perform
      (pingStart 0 0 0 ⟨1,2,true,true⟩ true) = some ⟨none,1,htons 1,2000,0,[],[htons 1],
        [⟨1,⟨0,0,0,0,0,-1⟩⟩,⟨1,⟨0,1,0,32,0,0⟩⟩],some ⟨1,0,1,0,0,0⟩⟩ := by decide
  have once := (all 0 0 0 _ _ _ rfl (.of_foldlM run) rfl).once 1 (by decide) (by decide)
  cases once

end NonosLinkLayer.PingSession
