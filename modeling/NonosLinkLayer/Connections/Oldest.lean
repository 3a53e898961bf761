import NonosLinkLayer.Base.GreatestScan
import NonosLinkLayer.Connections.Task
import Mathlib.Data.List.Count

namespace NonosLinkLayer.Connections
open HeapList Transitions GreatestScan

inductive TcpState where
  | closed | listen | synSent | synRcvd | established | finWait1 | finWait2 | closeWait | closing | lastAck | timeWait
deriving DecidableEq

def TcpState.isFinWait (state : TcpState) : Bool := state = .finWait1 || state = .finWait2
def TcpState.isLastAck (state : TcpState) : Bool := state = .lastAck
def TcpState.isTimeWait (state : TcpState) : Bool := state = .timeWait

def TcpState.ends (state : TcpState) : Bool := state = .finWait1 || state = .finWait2 || state = .lastAck

-- The blocks of lwIP with their state and tmr, and tcp_ticks.
structure Aged where
  pcbs : Pcbs
  state : Ptr → TcpState
  tmr : Ptr → UInt32
  tcpTicks : UInt32

namespace Aged

def inactivity (s : Aged) (x : Ptr) : Nat := (s.tcpTicks - s.tmr x).toNat

def inactive (s : Aged) (counts : Ptr → Bool) (l : List Ptr) : Option Ptr := (scanLast s.inactivity counts l (0,none)).2

-- tcp_abort of a block in TIME_WAIT, which takes it out of the list and frees it.
def tcpAbort (s : Aged) (x : Ptr) : Aged :=
  {s with pcbs := {s.pcbs with live := Function.update s.pcbs.live x false,tw := s.pcbs.tw.erase x}}

def tcpPcbRemove (s : Aged) (x : Ptr) : Aged :=
  {s with pcbs := {s.pcbs with live := Function.update s.pcbs.live x false,active := s.pcbs.active.erase x}}

def killTimeWait (s : Aged) : Aged :=
  match s.inactive (fun _ => true) s.pcbs.tw with
  | some x => s.tcpAbort x
  | none => s

def killActive (kind : TcpState → Bool) (s : Aged) : Aged :=
  match s.inactive (fun x => kind (s.state x)) s.pcbs.active with
  | some x => s.tcpPcbRemove x
  | none => s

def espconnKillOldest (s : Aged) : Aged := (s.killTimeWait.killActive TcpState.isFinWait).killActive TcpState.isLastAck

-- The loop over one list: the count, and whether it has run to the end.
def countFin (state : Ptr → TcpState) : UInt8 → List Ptr → UInt8 × Bool
  | num,[] => (num,true)
  | num,x :: rest =>
    let num := if (state x).isTimeWait then num + 1 else num
    if (state x).isTimeWait ∧ num.toNat = mempNumTcpPcb then (num,false)
    else
      let num := if (state x).ends then num + 1 else num
      if (state x).ends ∧ num.toNat = mempNumTcpPcb then (num,false) else countFin state num rest

def killTurn (list : Pcbs → List Ptr) (numTcpFin : UInt8) (s : Aged) : Aged × UInt8 :=
  let (num,atEnd) := countFin s.state numTcpFin (list s.pcbs)
  if num.toNat = mempNumTcpPcb then (s.espconnKillOldest,0)
  else if atEnd then (s,0)
  else (s,num)

def espconnKillOldestPcb (s : Aged) : Aged :=
  let (s,num) := s.killTurn Pcbs.active 0
  (s.killTurn Pcbs.tw num).1

def ending (s : Aged) : Nat := s.pcbs.active.countP fun x => (s.state x).ends
def waiting (s : Aged) : Nat := s.pcbs.tw.length

structure Listed (s : Aged) : Prop where
  active : s.pcbs.active.Nodup
  tw : s.pcbs.tw.Nodup
  apart : ∀ x ∈ s.pcbs.active, x ∉ s.pcbs.tw
  waits : ∀ x ∈ s.pcbs.tw, s.state x = .timeWait
  others : ∀ x ∈ s.pcbs.active, s.state x ≠ .timeWait
  live : ∀ x, x ∈ s.pcbs.active ∨ x ∈ s.pcbs.tw → s.pcbs.live x = true

inductive Drops (s : Aged) (counts : Ptr → Bool) : List Ptr → List Ptr → Prop where
  | nothing : l.filter counts = [] → Drops s counts l l
  | oldest : LastGreatest s.inactivity (l.filter counts) x → Drops s counts l (l.erase x)

structure Alike (s next : Aged) : Prop where
  state : next.state = s.state
  tmr : next.tmr = s.tmr
  tcpTicks : next.tcpTicks = s.tcpTicks
  pcb : next.pcbs.pcb = s.pcbs.pcb
  bound : next.pcbs.bound = s.pcbs.bound

structure Kills (s next : Aged) : Prop where
  tw : Drops s (fun _ => true) s.pcbs.tw next.pcbs.tw
  active : ∃ middle, Drops s (fun x => (s.state x).isFinWait) s.pcbs.active middle ∧
    Drops s (fun x => (s.state x).isLastAck) middle next.pcbs.active
  live : ∀ x, next.pcbs.live x = true ↔
    s.pcbs.live x = true ∧ (x ∈ s.pcbs.active → x ∈ next.pcbs.active) ∧ (x ∈ s.pcbs.tw → x ∈ next.pcbs.tw)
  alike : Alike s next

variable {s next : Aged} {counts : Ptr → Bool} {l l' : List Ptr} {x : Ptr}

theorem inactive_drops (s : Aged) (counts : Ptr → Bool) (l : List Ptr) :
    (s.inactive counts l = none ∧ l.filter counts = []) ∨
      ∃ x, s.inactive counts l = some x ∧ LastGreatest s.inactivity (l.filter counts) x :=
  scanLast_finds (fun x => Nat.zero_le (s.inactivity x)) counts l

theorem greatest_member (greatest : LastGreatest s.inactivity (l.filter counts) x) : x ∈ l ∧ counts x = true :=
  List.mem_filter.mp greatest.member

theorem Drops.sublist (drops : Drops s counts l l') : l'.Sublist l := by
  cases drops with
  | nothing => exact List.Sublist.refl l
  | oldest => exact List.erase_sublist

theorem Drops.fewer (drops : Drops s counts l l') : l'.countP counts = l.countP counts - 1 := by
  cases drops with
  | nothing empty =>
    have zero : l.countP counts = 0 := by rw [List.countP_eq_length_filter,empty,List.length_nil]
    rw [zero]
  | oldest greatest =>
    rw [List.countP_erase,if_pos (greatest_member greatest)]

theorem Drops.kept (drops : Drops s counts l l') (nodup : l.Nodup) (other : counts x = false) : x ∈ l' ↔ x ∈ l := by
  cases drops with
  | nothing => exact Iff.rfl
  | oldest greatest =>
    refine (nodup.mem_erase_iff).trans (and_iff_right_of_imp fun _ same => ?_)
    rw [same,(greatest_member greatest).2] at other
    cases other

theorem Alike.trans {last : Aged} (one : Alike s next) (two : Alike next last) : Alike s last :=
  ⟨two.state.trans one.state,two.tmr.trans one.tmr,two.tcpTicks.trans one.tcpTicks,two.pcb.trans one.pcb,two.bound.trans one.bound⟩

theorem freed_iff {live : Ptr → Bool} (nodup : l.Nodup) (member : x ∈ l) (y : Ptr) :
    Function.update live x false y = true ↔ live y = true ∧ (y ∈ l → y ∈ l.erase x) := by
  rw [Function.update_apply]
  by_cases same : y = x
  · subst same
    rw [if_pos rfl,nodup.mem_erase_iff]
    exact iff_of_false Bool.false_ne_true fun both => (both.2 member).1 rfl
  · rw [if_neg same,nodup.mem_erase_iff]
    exact (and_iff_left fun inside => ⟨same,inside⟩).symm

theorem killTimeWait_drops (nodup : s.pcbs.tw.Nodup) :
    Drops s (fun _ => true) s.pcbs.tw s.killTimeWait.pcbs.tw ∧ s.killTimeWait.pcbs.active = s.pcbs.active ∧
      (∀ y, s.killTimeWait.pcbs.live y = true ↔ s.pcbs.live y = true ∧ (y ∈ s.pcbs.tw → y ∈ s.killTimeWait.pcbs.tw)) ∧
      Alike s s.killTimeWait := by
  unfold killTimeWait
  rcases inactive_drops s (fun _ => true) s.pcbs.tw with ⟨missing,empty⟩ | ⟨x,found,greatest⟩
  · rw [missing]
    exact ⟨.nothing empty,rfl,fun y => (and_iff_left id).symm,⟨rfl,rfl,rfl,rfl,rfl⟩⟩
  · rw [found]
    exact ⟨.oldest greatest,rfl,freed_iff nodup (greatest_member greatest).1,⟨rfl,rfl,rfl,rfl,rfl⟩⟩

theorem killActive_drops (kind : TcpState → Bool) (nodup : s.pcbs.active.Nodup) :
    Drops s (fun x => kind (s.state x)) s.pcbs.active (s.killActive kind).pcbs.active ∧
      (s.killActive kind).pcbs.tw = s.pcbs.tw ∧
      (∀ y, (s.killActive kind).pcbs.live y = true ↔
        s.pcbs.live y = true ∧ (y ∈ s.pcbs.active → y ∈ (s.killActive kind).pcbs.active)) ∧
      Alike s (s.killActive kind) := by
  unfold killActive
  rcases inactive_drops s (fun x => kind (s.state x)) s.pcbs.active with ⟨missing,empty⟩ | ⟨x,found,greatest⟩
  · rw [missing]
    exact ⟨.nothing empty,rfl,fun y => (and_iff_left id).symm,⟨rfl,rfl,rfl,rfl,rfl⟩⟩
  · rw [found]
    exact ⟨.oldest greatest,rfl,freed_iff nodup (greatest_member greatest).1,⟨rfl,rfl,rfl,rfl,rfl⟩⟩

theorem Alike.drops (alike : Alike s next) (drops : Drops next counts l l') : Drops s counts l l' := by
  have same : next.inactivity = s.inactivity := by
    funext x
    unfold inactivity
    rw [alike.tcpTicks,alike.tmr]
  cases drops with
  | nothing empty => exact .nothing empty
  | oldest greatest =>
    rw [same] at greatest
    exact .oldest greatest

theorem killOldest_kills (listed : Listed s) : Kills s s.espconnKillOldest := by
  obtain ⟨twDrops,sameActive,twLive,one⟩ := killTimeWait_drops listed.tw
  have nodup : s.killTimeWait.pcbs.active.Nodup := by
    rw [sameActive]
    exact listed.active
  obtain ⟨finDrops,sameTw,finLive,two⟩ := killActive_drops TcpState.isFinWait nodup
  obtain ⟨ackDrops,lastTw,ackLive,three⟩ := killActive_drops TcpState.isLastAck (nodup.sublist finDrops.sublist)
  have finGone := finDrops.sublist
  have ackGone := ackDrops.sublist
  rw [one.state] at finDrops
  rw [two.state,one.state] at ackDrops
  rw [sameActive] at finDrops finGone finLive
  refine ⟨?_,⟨_,one.drops finDrops,(one.trans two).drops ackDrops⟩,fun y => ?_,(one.trans two).trans three⟩
  · unfold espconnKillOldest
    rw [lastTw,sameTw]
    exact twDrops
  · unfold espconnKillOldest
    rw [ackLive,finLive,twLive,lastTw,sameTw]
    constructor
    · rintro ⟨⟨⟨live,tw⟩,fin⟩,ack⟩
      exact ⟨live,fun inside => ack (fin inside),tw⟩
    · rintro ⟨live,active,tw⟩
      exact ⟨⟨⟨live,tw⟩,fun inside => ackGone.subset (active inside)⟩,fun inside => active (finGone.subset inside)⟩

theorem Drops.others (drops : Drops s counts l l') (p : Ptr → Bool) (other : ∀ x, counts x = true → p x = false) :
    l'.countP p = l.countP p := by
  cases drops with
  | nothing => rfl
  | oldest greatest =>
    rw [List.countP_erase,other _ (greatest_member greatest).2]
    simp

theorem ends_split (state : Ptr → TcpState) (l : List Ptr) : l.countP (fun x => (state x).ends) =
    l.countP (fun x => (state x).isFinWait) + l.countP fun x => (state x).isLastAck := by
  induction l with
  | nil => rfl
  | cons x rest ih =>
    simp only [List.countP_cons,ih]
    cases state x <;> simp [TcpState.ends,TcpState.isFinWait,TcpState.isLastAck] <;> omega

theorem finWait_apart (state : TcpState) (fin : state.isFinWait = true) : state.isLastAck = false := by
  cases state <;> first | rfl | cases fin

theorem lastAck_apart (state : TcpState) (ack : state.isLastAck = true) : state.isFinWait = false := by
  cases state <;> first | rfl | cases ack

theorem Kills.ending (kills : Kills s next) : next.ending =
    (s.pcbs.active.countP (fun x => (s.state x).isFinWait) - 1) +
      (s.pcbs.active.countP (fun x => (s.state x).isLastAck) - 1) := by
  obtain ⟨middle,fin,ack⟩ := kills.active
  have fins := (ack.others (fun x => (s.state x).isFinWait) fun x => lastAck_apart (s.state x)).trans fin.fewer
  have acks := fin.others (fun x => (s.state x).isLastAck) fun x => finWait_apart (s.state x)
  unfold Aged.ending
  rw [kills.alike.state,ends_split,fins,ack.fewer,acks]

theorem Kills.ending_less (kills : Kills s next) : next.ending ≤ s.ending - 1 := by
  rw [kills.ending]
  unfold Aged.ending
  rw [ends_split]
  omega

theorem Kills.waiting (kills : Kills s next) : next.waiting = s.waiting - 1 := by
  have fewer := kills.tw.fewer
  simpa [Aged.waiting] using fewer

theorem Kills.listed (kills : Kills s next) (listed : Listed s) : Listed next := by
  obtain ⟨middle,fin,ack⟩ := kills.active
  have active := ack.sublist.trans fin.sublist
  have tw := kills.tw.sublist
  refine ⟨listed.active.sublist active,listed.tw.sublist tw,?_,?_,?_,?_⟩
  · exact fun x inside waits => listed.apart x (active.subset inside) (tw.subset waits)
  · rw [kills.alike.state]
    exact fun x inside => listed.waits x (tw.subset inside)
  · rw [kills.alike.state]
    exact fun x inside => listed.others x (active.subset inside)
  · rintro x (inside | inside)
    · have before := active.subset inside
      exact (kills.live x).mpr ⟨listed.live x (.inl before),fun _ => inside,fun waits => absurd waits (listed.apart x before)⟩
    · have before := tw.subset inside
      exact (kills.live x).mpr ⟨listed.live x (.inr before),fun other => absurd before (listed.apart x other),fun _ => inside⟩

theorem timeWait_ends (state : TcpState) (waits : state.isTimeWait = true) : state.ends = false := by
  cases state <;> first | rfl | cases waits

theorem countFin_cons (state : Ptr → TcpState) (num : UInt8) (x : Ptr) (rest : List Ptr) :
    countFin state num (x :: rest) =
      if ((state x).isTimeWait || (state x).ends) = true then
        if (num + 1).toNat = 5 then (num + 1,false) else countFin state (num + 1) rest
      else countFin state num rest := by
  rw [countFin]
  cases waits : (state x).isTimeWait with
  | true => simp [timeWait_ends (state x) waits,mempNumTcpPcb]
  | false => cases ends : (state x).ends <;> simp [mempNumTcpPcb]

theorem countFin_counts (state : Ptr → TcpState) (l : List Ptr) {num : UInt8} (few : num.toNat < 5) :
    (countFin state num l).1.toNat = min 5 (num.toNat + l.countP fun x => (state x).isTimeWait || (state x).ends) ∧
      ((countFin state num l).2 = true ∨ (countFin state num l).1.toNat = 5) := by
  induction l generalizing num with
  | nil =>
    refine ⟨?_,.inl rfl⟩
    rw [List.countP_nil]
    unfold countFin
    dsimp only
    omega
  | cons x rest ih =>
    have next : (num + 1).toNat = num.toNat + 1 := by
      rw [UInt8.toNat_add]
      exact Nat.mod_eq_of_lt (by change num.toNat + 1 < 256; omega)
    rw [List.countP_cons,countFin_cons]
    split
    case isTrue counted =>
      split
      case isTrue full =>
        refine ⟨?_,.inr full⟩
        dsimp only
        omega
      case isFalse room =>
        have later := @ih (num + 1) (by omega)
        rw [next] at later
        refine ⟨?_,later.2⟩
        rw [later.1]
        omega
    case isFalse other => exact ih few

theorem killTurn_eq (list : Pcbs → List Ptr) (s : Aged) : s.killTurn list 0 =
    (if 5 ≤ (list s.pcbs).countP (fun x => (s.state x).isTimeWait || (s.state x).ends) then s.espconnKillOldest else s,0) := by
  obtain ⟨count,atEnd⟩ := countFin_counts s.state (list s.pcbs) (show (0 : UInt8).toNat < 5 by decide)
  rw [show (0 : UInt8).toNat = 0 from rfl,Nat.zero_add] at count
  unfold killTurn mempNumTcpPcb
  dsimp only
  by_cases full : (countFin s.state 0 (list s.pcbs)).1.toNat = 5
  · rw [if_pos full,if_pos (by omega)]
  · rw [if_neg full,if_pos (atEnd.resolve_right full),if_neg (by omega)]

theorem ending_count (listed : Listed s) :
    s.pcbs.active.countP (fun x => (s.state x).isTimeWait || (s.state x).ends) = s.ending := by
  refine List.countP_congr fun x inside => ?_
  have other : (s.state x).isTimeWait = false := decide_eq_false (listed.others x inside)
  rw [other,Bool.false_or]

theorem waiting_count (listed : Listed s) :
    s.pcbs.tw.countP (fun x => (s.state x).isTimeWait || (s.state x).ends) = s.waiting := by
  refine List.countP_eq_length.mpr fun x inside => ?_
  rw [listed.waits x inside]
  rfl

def Culls (five : Prop) (s next : Aged) : Prop := (¬five ∧ next = s) ∨ (five ∧ Kills s next)

theorem culls (listed : Listed s) (five : Prop) [Decidable five] : Culls five s (if five then s.espconnKillOldest else s) := by
  by_cases full : five
  · rw [if_pos full]
    exact .inr ⟨full,killOldest_kills listed⟩
  · rw [if_neg full]
    exact .inl ⟨full,rfl⟩

theorem Culls.listed {five : Prop} (culls : Culls five s next) (listed : Listed s) : Listed next := by
  rcases culls with ⟨_,rfl⟩ | ⟨_,kills⟩
  · exact listed
  · exact kills.listed listed

def Culled (s next : Aged) : Prop :=
  ∃ middle, Culls (5 ≤ s.ending) s middle ∧ Culls (5 ≤ middle.waiting) middle next

theorem kill_culled (listed : Listed s) : Culled s s.espconnKillOldestPcb := by
  have first := culls listed (5 ≤ s.ending)
  have second := culls (first.listed listed) (5 ≤ (if 5 ≤ s.ending then s.espconnKillOldest else s).waiting)
  refine ⟨_,first,?_⟩
  unfold espconnKillOldestPcb
  rw [killTurn_eq,ending_count listed]
  dsimp only
  rw [killTurn_eq,waiting_count (first.listed listed)]
  exact second

theorem Culled.listed (culled : Culled s next) (listed : Listed s) : Listed next := by
  obtain ⟨middle,first,second⟩ := culled
  exact second.listed (first.listed listed)

theorem Culls.fewer {five : Prop} (culls : Culls five s next) : next.ending ≤ s.ending ∧ next.waiting ≤ s.waiting := by
  rcases culls with ⟨_,rfl⟩ | ⟨_,kills⟩
  · exact ⟨Nat.le_refl _,Nat.le_refl _⟩
  · have ending := kills.ending_less
    have waiting := kills.waiting
    omega

-- Each list is down to four, or has one less than before; and where both had more than
-- four together the two have one less.
theorem Culled.fewer (culled : Culled s next) : (next.ending ≤ 4 ∨ next.ending + 1 ≤ s.ending) ∧
    (next.ending + next.waiting ≤ 8 ∨ next.ending + next.waiting + 1 ≤ s.ending + s.waiting) := by
  obtain ⟨middle,first,second⟩ := culled
  have one := first.fewer
  have two := second.fewer
  rcases first with ⟨few,rfl⟩ | ⟨full,kills⟩
  · rcases second with ⟨calm,rfl⟩ | ⟨full,kills⟩
    · omega
    · have waiting := kills.waiting
      omega
  · have ending := kills.ending_less
    omega

end Aged

-- The blocks, and how many events that end in espconn_kill_oldest_pcb are posted. `owed`
-- keeps record of the blocks that have come to be closing and that no such event has
-- made up for.
structure Closing where
  blocks : Aged
  posted : Nat
  owed : Nat

inductive Change where
  | closes | enters | lwip | task
deriving DecidableEq

-- A connection that espconn closes posts one event. A block may also come to be closing
-- or to wait without one: when lwIP sends its FIN late, when it goes from CLOSING to
-- TIME_WAIT, or when somebody else closes a connection of its own. All else that lwIP does
-- moves such blocks on, frees them and makes new ones.
inductive Closing.Step : Closing → Change → Closing → Prop where
  | closes : Aged.Listed next → next.ending ≤ s.ending + 1 → next.ending + next.waiting ≤ s.ending + s.waiting + 1 →
      Step ⟨s,n,k⟩ .closes ⟨next,n + 1,k + 1⟩
  | enters : Aged.Listed next → next.ending ≤ s.ending + 1 → next.ending + next.waiting ≤ s.ending + s.waiting + 1 →
      Step ⟨s,n,k⟩ .enters ⟨next,n,k + 1⟩
  | lwip : Aged.Listed next → next.ending ≤ s.ending → next.ending + next.waiting ≤ s.ending + s.waiting →
      Step ⟨s,n,k⟩ .lwip ⟨next,n,k⟩
  | task : Step ⟨s,n + 1,k⟩ .task ⟨s.espconnKillOldestPcb,n,k - 1⟩

structure Closing.Scarce (c : Closing) : Prop where
  listed : c.blocks.Listed
  ending : c.blocks.ending ≤ 4 + c.owed
  both : c.blocks.ending + c.blocks.waiting ≤ 8 + c.owed

theorem step_scarce {c next : Closing} {change : Change} (scarce : c.Scarce) (step : c.Step change next) : next.Scarce := by
  obtain ⟨listed,ending,both⟩ := scarce
  cases step with
  | closes after one two | enters after one two =>
    dsimp only at ending both
    refine ⟨after,?_,?_⟩
    · dsimp only
      omega
    · dsimp only
      omega
  | lwip after one two => exact ⟨after,one.trans ending,two.trans both⟩
  | task =>
    have culled := Aged.kill_culled listed
    have fewer := culled.fewer
    dsimp only at ending both fewer
    refine ⟨culled.listed listed,?_,?_⟩
    · dsimp only
      omega
    · dsimp only
      omega

theorem runs_owed {c : Closing} {changes : List Change} {s : Aged} (path : Runs Closing.Step ⟨s,0,0⟩ changes c)
    (posting : .enters ∉ changes) : c.owed ≤ c.posted := by
  refine path.records (I := fun changes c => .enters ∉ changes → c.owed ≤ c.posted) (fun _ => Nat.le_refl 0) ?_ posting
  intro past c change next _ ih step posting
  have before : c.owed ≤ c.posted := ih fun member => posting (List.mem_append_left _ member)
  cases step with
  | closes => exact Nat.succ_le_succ before
  | enters => exact absurd (by simp) posting
  | lwip => exact before
  | task => exact Nat.sub_le_of_le_add before

def finsTo (count : Nat) : Aged :=
  ⟨⟨fun _ => ⟨0,0,0,0,null,none⟩,fun _ => true,[],(List.range count).map (· + 1),[]⟩,fun _ => .finWait1,fun x => UInt32.ofNat x,9⟩

theorem finsTo_listed (count : Nat) : (finsTo count).Listed := by
  refine ⟨?_,List.nodup_nil,?_,?_,?_,?_⟩
  · exact List.nodup_range.map fun x y same => Nat.succ.inj same
  · exact fun x _ waits => nomatch waits
  · exact fun x waits => nomatch waits
  · exact fun x _ waits => nomatch waits
  · exact fun x _ => rfl

theorem finsTo_ending (count : Nat) : (finsTo count).ending = count := by
  simp [Aged.ending,finsTo,TcpState.ends]

theorem finsTo_closes (count n k : Nat) : Closing.Step ⟨finsTo count,n,k⟩ .closes ⟨finsTo (count + 1),n + 1,k + 1⟩ := by
  refine .closes (finsTo_listed (count + 1)) ?_ ?_
  · rw [finsTo_ending,finsTo_ending]
  · rw [finsTo_ending,finsTo_ending]
    exact Nat.le_of_eq (Nat.add_right_comm count 1 0)

example : (finsTo 5).espconnKillOldestPcb.pcbs.active = [2,3,4,5] := by decide

end NonosLinkLayer.Connections
