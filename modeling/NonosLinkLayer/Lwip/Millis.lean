import NonosLinkLayer.Base.Transitions

namespace NonosLinkLayer.Millis
open Transitions

def usecPeriod : Nat := 4294967296

-- The static variables of esp-millis.c. Of the timer only what it was armed with, in milliseconds.
structure Statics where
  microsOverflowTimer : Option UInt32
  microsAtLastOverflowTick : UInt32
  microsOverflowCount : UInt32
  once : Bool
  deriving DecidableEq, Repr

-- The microseconds since boot in 32 bits, which is also what micros() gives.
def systemGetTime (time : Nat) : UInt32 := .ofNat time

def microsOverflowTick (s : Statics) (m : UInt32) : Statics :=
  {s with
    microsOverflowCount := if m < s.microsAtLastOverflowTick then s.microsOverflowCount + 1 else s.microsOverflowCount
    microsAtLastOverflowTick := m}

def millis (s : Statics) (m : UInt32) : Statics × UInt32 :=
  let s := if s.once then s else {s with microsOverflowTimer := some 60000,once := true}
  let c := s.microsOverflowCount + (if m < s.microsAtLastOverflowTick then 1 else 0)
  (s,c * 4294967 + m / 1000)

-- The macro of cc.h, which casts to the 32 bits millis already has.
def sysNow (s : Statics) (m : UInt32) : Statics × UInt32 := millis s m

structure Timed where
  statics : Statics
  clock : Nat
  ticked : Nat
  deriving DecidableEq, Repr

def boot : Timed := ⟨⟨none,0,0,false⟩,0,0⟩

inductive Event where
  | tick (time : Nat)
  | millis (time : Nat) (reply : UInt32)
  | sysNow (time : Nat) (reply : UInt32)
  deriving DecidableEq, Repr

def Event.time : Event → Nat
  | .tick time | .millis time _ | .sysNow time _ => time

def Event.call : Event → Option (Nat × UInt32)
  | .tick _ => none
  | .millis time reply | .sysNow time reply => some (time,reply)

def InTime (s : Timed) (time : Nat) : Prop := s.clock ≤ time ∧ time < s.ticked + usecPeriod

instance (s : Timed) (time : Nat) : Decidable (InTime s time) := inferInstanceAs (Decidable (_ ∧ _))

inductive Step : Timed → Event → Timed → Prop where
  | tick : InTime s time → Step s (.tick time) ⟨microsOverflowTick s.statics (systemGetTime time),time,time⟩
  | millis : InTime s time → millis s.statics (systemGetTime time) = (statics,reply) →
      Step s (.millis time reply) ⟨statics,time,s.ticked⟩
  | sysNow : InTime s time → sysNow s.statics (systemGetTime time) = (statics,reply) →
      Step s (.sysNow time reply) ⟨statics,time,s.ticked⟩

-- What millis() counts: 4294967 for every period of the counter, 296 microseconds less than it lasts.
def millisAt (time : Nat) : Nat := time / usecPeriod * 4294967 + time % usecPeriod / 1000

structure Kept (s : Timed) : Prop where
  last : s.statics.microsAtLastOverflowTick = .ofNat s.ticked
  count : s.statics.microsOverflowCount = .ofNat (s.ticked / usecPeriod)
  past : s.ticked ≤ s.clock

variable {s t : Timed} {event : Event} {past : List Event} {time later : Nat}

theorem millisAt_mono (le : time ≤ later) : millisAt time ≤ millisAt later := by
  unfold millisAt usecPeriod
  omega

theorem millisAt_le (time : Nat) : millisAt time ≤ time / 1000 := by
  unfold millisAt usecPeriod
  omega

-- Less than a millisecond is lost in each period.
theorem millisAt_lag (time : Nat) : time / 1000 - millisAt time ≤ time / usecPeriod := by
  unfold millisAt usecPeriod
  omega

theorem millisAt_second (ahead : time + 4000000 ≤ later) : millisAt time + 1000 ≤ millisAt later := by
  unfold millisAt usecPeriod
  omega

theorem systemGetTime_toNat (time : Nat) : (systemGetTime time).toNat = time % usecPeriod := UInt32.toNat_ofNat'

-- The counter is behind where it was at the tick exactly when it has gone round since.
theorem period_next (since : s.ticked ≤ time) (soon : time < s.ticked + usecPeriod) :
    time / usecPeriod = s.ticked / usecPeriod + if systemGetTime time < systemGetTime s.ticked then 1 else 0 := by
  simp only [UInt32.lt_iff_toNat_lt,systemGetTime_toNat]
  unfold usecPeriod at *
  split
  · omega
  · omega

theorem Kept.overflows (kept : Kept s) (inTime : InTime s time) :
    s.statics.microsOverflowCount + (if systemGetTime time < s.statics.microsAtLastOverflowTick then 1 else 0) =
      .ofNat (time / usecPeriod) := by
  rw [period_next (Nat.le_trans kept.past inTime.1) inTime.2,UInt32.ofNat_add,kept.count,kept.last]
  by_cases behind : systemGetTime time < systemGetTime s.ticked
  · rw [if_pos behind]
    exact congrArg _ (if_pos behind)
  · rw [if_neg behind]
    exact congrArg _ (if_neg behind)

theorem millis_statics (s : Statics) (m : UInt32) :
    (millis s m).1.microsAtLastOverflowTick = s.microsAtLastOverflowTick ∧
      (millis s m).1.microsOverflowCount = s.microsOverflowCount := by
  unfold millis
  cases s.once with
  | true => exact ⟨rfl,rfl⟩
  | false => exact ⟨rfl,rfl⟩

theorem millis_counts (s : Statics) (m : UInt32) :
    (millis s m).2 =
      (s.microsOverflowCount + if m < s.microsAtLastOverflowTick then 1 else 0) * 4294967 + m / 1000 := by
  unfold millis
  cases s.once with
  | true => rfl
  | false => rfl

theorem systemGetTime_millis (time : Nat) : systemGetTime time / 1000 = .ofNat (time % usecPeriod / 1000) := by
  apply UInt32.toNat_inj.mp
  rw [UInt32.toNat_div,systemGetTime_toNat,UInt32.toNat_ofNat']
  have small : time % usecPeriod < 4294967296 := Nat.mod_lt _ (by decide)
  exact (Nat.mod_eq_of_lt (Nat.lt_of_le_of_lt (Nat.div_le_self ..) small)).symm

theorem Kept.reply (kept : Kept s) (inTime : InTime s time) :
    (millis s.statics (systemGetTime time)).2 = .ofNat (millisAt time) := by
  rw [millis_counts,kept.overflows inTime,systemGetTime_millis,millisAt,UInt32.ofNat_add,UInt32.ofNat_mul]
  rfl

theorem Kept.tick (kept : Kept s) (inTime : InTime s time) :
    Kept ⟨microsOverflowTick s.statics (systemGetTime time),time,time⟩ where
  last := rfl
  count := by
    rw [← kept.overflows inTime]
    simp only [microsOverflowTick]
    split
    · rfl
    · rw [UInt32.add_zero]
  past := Nat.le_refl time

theorem Kept.called (kept : Kept s) (inTime : InTime s time) :
    Kept ⟨(millis s.statics (systemGetTime time)).1,time,s.ticked⟩ where
  last := (millis_statics s.statics (systemGetTime time)).1.trans kept.last
  count := (millis_statics s.statics (systemGetTime time)).2.trans kept.count
  past := Nat.le_trans kept.past inTime.1

theorem boot_kept : Kept boot := ⟨rfl,rfl,Nat.le_refl 0⟩

theorem Step.kept (kept : Kept s) (step : Step s event t) : Kept t := by
  cases step with
  | tick inTime => exact kept.tick inTime
  | millis inTime returned =>
    have after := kept.called inTime
    rwa [returned] at after
  | sysNow inTime returned =>
    have after := kept.called inTime
    rwa [show Millis.millis s.statics _ = _ from returned] at after

theorem Step.clock (step : Step s event t) : t.clock = event.time := by
  cases step <;> rfl

theorem Step.inTime (step : Step s event t) : InTime s event.time := by
  cases step <;> assumption

theorem Step.reply (kept : Kept s) (step : Step s event t) : ∀ call ∈ event.call, call.2 = .ofNat (millisAt call.1) := by
  cases step with
  | tick inTime => simp [Event.call]
  | millis inTime returned => simpa [Event.call,returned] using kept.reply inTime
  | sysNow inTime returned =>
    have replied := kept.reply inTime
    rw [show Millis.millis s.statics _ = _ from returned] at replied
    simpa [Event.call] using replied

theorem run_kept (path : Runs Step boot past s) : Kept s :=
  path.keeps boot_kept fun kept step => step.kept kept

theorem run_ordered (path : Runs Step boot past s) :
    (past.map Event.time).Pairwise (· ≤ ·) ∧ ∀ event ∈ past, event.time ≤ s.clock := by
  refine path.records (I:=fun past s => (past.map Event.time).Pairwise (· ≤ ·) ∧ ∀ event ∈ past, event.time ≤ s.clock)
    ⟨.nil,by simp⟩ ?_
  rintro past s event t _ ⟨ordered,behind⟩ step
  have now : s.clock ≤ t.clock := by
    rw [step.clock]
    exact step.inTime.1
  constructor
  · rw [List.map_append,List.pairwise_append]
    refine ⟨ordered,by simp,?_⟩
    simp only [List.mem_map,List.map_cons,List.map_nil,List.mem_singleton]
    rintro _ ⟨earlier,member,rfl⟩ _ rfl
    exact Nat.le_trans (behind earlier member) step.inTime.1
  · intro earlier member
    rcases List.mem_append.mp member with old | new
    · exact Nat.le_trans (behind earlier old) now
    · rw [List.mem_singleton.mp new]
      exact Nat.le_of_eq step.clock.symm

theorem run_replies (path : Runs Step boot past s) : ∀ call ∈ past.filterMap Event.call, call.2 = .ofNat (millisAt call.1) := by
  refine path.records (I:=fun past _ => ∀ call ∈ past.filterMap Event.call, call.2 = .ofNat (millisAt call.1)) (by simp) ?_
  intro past s event t path replies step call member
  rw [List.filterMap_append,List.mem_append] at member
  rcases member with old | new
  · exact replies call old
  · refine step.reply (run_kept path) call ?_
    cases called : event.call with
    | none => simp [called] at new
    | some made => simpa [called,eq_comm] using new

-- Whatever the order of ticks and calls, every call gives the milliseconds counted
-- to its time, which never step back and lag less than one for each period.
theorem replies_follow (path : Runs Step boot past s) :
    (∀ call ∈ past.filterMap Event.call, call.2 = .ofNat (millisAt call.1)) ∧
      (past.map fun event => millisAt event.time).Pairwise (· ≤ ·) ∧
      ∀ event ∈ past, millisAt event.time ≤ event.time / 1000 ∧
        event.time / 1000 - millisAt event.time ≤ event.time / usecPeriod := by
  refine ⟨run_replies path,?_,fun event _ => ⟨millisAt_le _,millisAt_lag _⟩⟩
  have ordered := (run_ordered path).1
  rw [List.pairwise_map] at ordered ⊢
  exact ordered.imp millisAt_mono

-- The counter goes round, a call sees it before the tick does, and another behind the tick.
theorem around_follows :
    ∃ s, Runs Step boot [.tick 60000,.millis 4294967295 4294967,.sysNow 4294967296 4294967,
        .tick 4294967300,.millis 4294969000 4294968] s ∧
      (4294967 : UInt32) = .ofNat (millisAt 4294967296) ∧ (4294968 : UInt32) = .ofNat (millisAt 4294969000) := by
  have path : Runs Step boot [.tick 60000,.millis 4294967295 4294967,.sysNow 4294967296 4294967,
      .tick 4294967300,.millis 4294969000 4294968] ⟨⟨some 60000,4,1,true⟩,4294969000,4294967300⟩ :=
    .step (s:=⟨⟨some 60000,4,1,true⟩,4294967300,4294967300⟩)
      (.step (s:=⟨⟨some 60000,60000,0,true⟩,4294967296,60000⟩)
        (.step (s:=⟨⟨some 60000,60000,0,true⟩,4294967295,60000⟩)
          (.step (s:=⟨⟨none,60000,0,false⟩,60000,60000⟩)
            (.single (.tick (by decide))) (.millis (by decide) (by decide)))
          (.sysNow (by decide) (by decide)))
        (.tick (by decide)))
      (.millis (by decide) (by decide))
  have replies := (replies_follow path).1
  exact ⟨_,path,replies (_,_) (by decide),replies (4294969000,4294968) (by decide)⟩

end NonosLinkLayer.Millis
