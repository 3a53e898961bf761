import NonosLinkLayer.Lwip.Millis
import Mathlib.Algebra.Group.Nat.Defs

namespace NonosLinkLayer.Gettimeofday
open Transitions Millis

-- What time_t and suseconds_t are is up to the toolchain: signed, and of 32 bits or more.
structure Signed where
  bits : Nat
  wide : 32 ≤ bits

def Signed.half (w : Signed) : Nat := 2 ^ (w.bits - 1)
def Signed.convert (w : Signed) (v : Int) : Int := v.bmod (2 * w.half)

structure Timeval where
  tvSec : Int
  tvUsec : Int
  deriving DecidableEq, Repr

structure Times where
  statics : Statics
  bootTime : Int
  deriving DecidableEq, Repr

-- `timestamp` is what sntp_get_current_timestamp returns.
def ensureBootTimeIsSet (timeT : Signed) (s : Times) (timestamp : Int) (m : UInt32) : Times :=
  if s.bootTime = 0 then
    let now := timeT.convert timestamp
    if now ≠ 0 then
      let (statics,ms) := millis s.statics m
      ⟨statics,timeT.convert (now - (ms / 1000).toNat)⟩
    else s
  else s

-- `m` is the counter, of which micros() and millis() are made. The result is always 0.
def gettimeofday (timeT susecondsT : Signed) (s : Times) (tp : Bool) (timestamp : Int) (m : UInt32) : Times × Option Timeval :=
  if tp then
    let s := ensureBootTimeIsSet timeT s timestamp m
    let (statics,ms) := millis s.statics m
    ({s with statics := statics},
      some ⟨timeT.convert (s.bootTime + (ms / 1000).toNat),susecondsT.convert (m * 1000).toNat⟩)
  else (s,none)

structure Daytime where
  timed : Timed
  bootTime : Int
  deriving DecidableEq, Repr

def start : Daytime := ⟨boot,0⟩

inductive Deed where
  | count (event : Event)
  | gettimeofday (time : Nat) (tp : Bool) (timestamp : Int) (answer : Option Timeval)
  deriving DecidableEq, Repr

inductive Passes (timeT susecondsT : Signed) : Daytime → Deed → Daytime → Prop where
  | count : Step s.timed event timed → Passes timeT susecondsT s (.count event) {s with timed := timed}
  | gettimeofday : InTime s.timed time →
      gettimeofday timeT susecondsT ⟨s.timed.statics,s.bootTime⟩ tp timestamp (systemGetTime time) =
        (⟨statics,bootTime⟩,answer) →
      Passes timeT susecondsT s (.gettimeofday time tp timestamp answer) ⟨⟨statics,time,s.timed.ticked⟩,bootTime⟩

def Normalised (tv : Timeval) : Prop := 0 ≤ tv.tvUsec ∧ tv.tvUsec < 1000000

def NotAfter (one two : Timeval) : Prop := one.tvSec < two.tvSec ∨ one.tvSec = two.tvSec ∧ one.tvUsec ≤ two.tvUsec

-- micros() * 1000 are nanoseconds in 32 bits, so that they are below a million
-- only in the first millisecond after they have gone round.
def FirstMilli (time : Nat) : Prop := 1000 * time % 4294967296 < 1000000

def NoWrap (timeT : Signed) (bootTime : Int) (time later : Nat) : Prop :=
  bootTime + (millisAt later / 1000 : Nat) < timeT.half ∨ timeT.half ≤ bootTime + (millisAt time / 1000 : Nat)

instance (tv : Timeval) : Decidable (Normalised tv) := inferInstanceAs (Decidable (_ ∧ _))
instance (one two : Timeval) : Decidable (NotAfter one two) := inferInstanceAs (Decidable (_ ∨ _))
instance (time : Nat) : Decidable (FirstMilli time) := inferInstanceAs (Decidable (_ < _))
instance (timeT : Signed) (bootTime : Int) (time later : Nat) : Decidable (NoWrap timeT bootTime time later) :=
  inferInstanceAs (Decidable (_ ∨ _))

structure Standing (timeT : Signed) (s : Daytime) : Prop where
  kept : Kept s.timed
  lower : -timeT.half ≤ s.bootTime
  upper : s.bootTime < timeT.half

variable {timeT susecondsT w : Signed} {s t : Daytime} {v : Int} {time later : Nat} {timestamp : Int} {tp : Bool}

theorem Signed.half_wide (w : Signed) : 2147483648 ≤ w.half :=
  show 2 ^ 31 ≤ 2 ^ (w.bits - 1) from Nat.pow_le_pow_right (by decide) (by have := w.wide; omega)

theorem convert_range (w : Signed) (v : Int) : -w.half ≤ w.convert v ∧ w.convert v < w.half := by
  have wide := w.half_wide
  have lower := Int.le_bmod (x:=v) (m:=2 * w.half) (by omega)
  have upper := Int.bmod_lt (x:=v) (m:=2 * w.half) (by omega)
  unfold Signed.convert
  omega

theorem convert_same (lower : -w.half ≤ v) (upper : v < w.half) : w.convert v = v :=
  Int.bmod_eq_of_le (by omega) (by omega)

-- Above the range once, the value comes out at its lower end.
theorem convert_over (lower : w.half ≤ v) (upper : v < 3 * w.half) : w.convert v = v - 2 * w.half := by
  have moved : w.convert (v - 2 * w.half) = w.convert v := by
    unfold Signed.convert
    rw [Int.bmod_def,Int.bmod_def]
    have same : (v - 2 * (w.half : Int)) % ((2 * w.half : Nat) : Int) = v % ((2 * w.half : Nat) : Int) := by
      rw [show (2 * (w.half : Int)) = ((2 * w.half : Nat) : Int) by omega,Int.sub_emod_right]
    rw [same]
  rw [← moved]
  exact convert_same (by omega) (by omega)

theorem millisAt_small (up : time / 1000 < 4294967296) : (UInt32.ofNat (millisAt time) / 1000).toNat = millisAt time / 1000 := by
  rw [UInt32.toNat_div,UInt32.toNat_ofNat_of_lt' (Nat.lt_of_le_of_lt (millisAt_le time) up)]
  rfl

theorem systemGetTime_nanos (time : Nat) : (systemGetTime time * 1000).toNat = 1000 * time % 4294967296 := by
  rw [UInt32.toNat_mul,systemGetTime_toNat,Nat.mul_comm]
  exact Nat.mul_mod_mod ..

theorem ensured_cases (timeT : Signed) (s : Times) (timestamp : Int) (m : UInt32) :
    ensureBootTimeIsSet timeT s timestamp m = s ∨
      ∃ v, ensureBootTimeIsSet timeT s timestamp m = ⟨(millis s.statics m).1,timeT.convert v⟩ := by
  unfold ensureBootTimeIsSet
  by_cases unset : s.bootTime = 0
  · by_cases known : timeT.convert timestamp ≠ 0
    · rw [if_pos unset]
      exact .inr ⟨_,if_pos known⟩
    · rw [if_pos unset]
      exact .inl (if_neg known)
  · exact .inl (if_neg unset)

theorem ensured_set (s : Times) (set : s.bootTime ≠ 0) (m : UInt32) : ensureBootTimeIsSet timeT s timestamp m = s :=
  if_neg set

theorem gettimeofday_told (s : Times) (m : UInt32) :
    let after := ensureBootTimeIsSet timeT s timestamp m
    gettimeofday timeT susecondsT s true timestamp m = ({after with statics := (millis after.statics m).1},
      some ⟨timeT.convert (after.bootTime + ((millis after.statics m).2 / 1000).toNat),susecondsT.convert (m * 1000).toNat⟩) := rfl

theorem Standing.onward (standing : Standing timeT s) (le : s.timed.clock ≤ time) :
    Standing timeT {s with timed := {s.timed with clock := time}} :=
  ⟨⟨standing.kept.last,standing.kept.count,Nat.le_trans standing.kept.past le⟩,standing.lower,standing.upper⟩

theorem Standing.called (standing : Standing timeT s) (inTime : InTime s.timed time) :
    Standing timeT {s with timed := ⟨(millis s.timed.statics (systemGetTime time)).1,time,s.timed.ticked⟩} :=
  {standing with kept := standing.kept.called inTime}

theorem Standing.ensured (standing : Standing timeT s) (inTime : InTime s.timed time) (timestamp : Int) :
    let after := ensureBootTimeIsSet timeT ⟨s.timed.statics,s.bootTime⟩ timestamp (systemGetTime time)
    Standing timeT ⟨⟨after.statics,time,s.timed.ticked⟩,after.bootTime⟩ := by
  rcases ensured_cases timeT ⟨s.timed.statics,s.bootTime⟩ timestamp (systemGetTime time) with same | ⟨v,set⟩
  · rw [same]
    exact standing.onward inTime.1
  · rw [set]
    have range := convert_range timeT v
    exact ⟨standing.kept.called inTime,range.1,range.2⟩

theorem start_standing : Standing timeT start := by
  have wide := timeT.half_wide
  refine ⟨boot_kept,?_,?_⟩
  · change -(timeT.half : Int) ≤ 0
    omega
  · change (0 : Int) < timeT.half
    omega

theorem Passes.standing (standing : Standing timeT s) (passes : Passes timeT susecondsT s deed t) : Standing timeT t := by
  cases passes with
  | count step => exact {standing with kept := step.kept standing.kept}
  | @gettimeofday time tp timestamp statics bootTime answer _ inTime returned =>
    cases tp with
    | false =>
      cases returned
      exact standing.onward inTime.1
    | true =>
      rw [gettimeofday_told] at returned
      cases returned
      exact (standing.ensured inTime timestamp).called ⟨Nat.le_refl time,inTime.2⟩

theorem run_standing (standing : Standing timeT s) (path : Runs (Passes timeT susecondsT) s past t) : Standing timeT t :=
  path.keeps standing fun standing passes => passes.standing standing

theorem Passes.stays (set : s.bootTime ≠ 0) (passes : Passes timeT susecondsT s deed t) :
    t.bootTime = s.bootTime ∧ s.timed.clock ≤ t.timed.clock := by
  cases passes with
  | count step =>
    refine ⟨rfl,?_⟩
    rw [step.clock]
    exact step.inTime.1
  | @gettimeofday time tp timestamp statics bootTime answer _ inTime returned =>
    refine ⟨?_,inTime.1⟩
    cases tp with
    | false =>
      cases returned
      rfl
    | true =>
      rw [gettimeofday_told] at returned
      cases returned
      exact congrArg Times.bootTime (ensured_set ⟨s.timed.statics,s.bootTime⟩ set (systemGetTime time))

theorem run_stays (set : s.bootTime ≠ 0) (path : Runs (Passes timeT susecondsT) s past t) :
    t.bootTime = s.bootTime ∧ s.timed.clock ≤ t.timed.clock := by
  refine path.keeps (I:=fun t => t.bootTime = s.bootTime ∧ s.timed.clock ≤ t.timed.clock) ⟨rfl,Nat.le_refl _⟩ ?_
  rintro t deed next ⟨same,later⟩ passes
  have step := passes.stays (same.symm ▸ set)
  exact ⟨step.1.trans same,Nat.le_trans later step.2⟩

theorem Passes.clock (passes : Passes timeT susecondsT s (.gettimeofday time tp timestamp answer) t) :
    t.timed.clock = time ∧ s.timed.clock ≤ time := by
  cases passes with
  | gettimeofday inTime returned => exact ⟨rfl,inTime.1⟩

def told (timeT susecondsT : Signed) (bootTime : Int) (time : Nat) : Timeval :=
  ⟨timeT.convert (bootTime + (millisAt time / 1000 : Nat)),susecondsT.convert (1000 * time % 4294967296 : Nat)⟩

theorem Passes.answer {tv : Timeval} (standing : Standing timeT s) (up : time / 1000 < 4294967296)
    (passes : Passes timeT susecondsT s (.gettimeofday time true timestamp (some tv)) t) :
    tv = told timeT susecondsT t.bootTime time := by
  cases passes with
  | gettimeofday inTime returned =>
    rw [gettimeofday_told] at returned
    cases returned
    have replied := (standing.ensured inTime timestamp).kept.reply ⟨Nat.le_refl time,inTime.2⟩
    dsimp only at replied
    rw [replied,millisAt_small up,systemGetTime_nanos]
    rfl

theorem normalised_nanos (nanos : Nat) (small : nanos < 4294967296) :
    (0 ≤ w.convert nanos ∧ w.convert nanos < 1000000) ↔ nanos < 1000000 := by
  have wide := w.half_wide
  by_cases low : (nanos : Int) < w.half
  · rw [convert_same (by omega) low]
    omega
  · rw [convert_over (by omega) (by omega)]
    omega

-- The exact sums are in order: within one round of the nanoseconds these are, and
-- the first milliseconds of two rounds are more than a second apart.
theorem firstMilli_order (le : time ≤ later) (first : FirstMilli time) (second : FirstMilli later) :
    millisAt time / 1000 < millisAt later / 1000 ∨
      millisAt time / 1000 ≤ millisAt later / 1000 ∧ 1000 * time % 4294967296 ≤ 1000 * later % 4294967296 := by
  unfold FirstMilli at *
  by_cases same : 1000 * time / 4294967296 = 1000 * later / 4294967296
  · have up := millisAt_mono le
    omega
  · have up : millisAt time + 1000 ≤ millisAt later := millisAt_second (by omega)
    omega

theorem convert_sum {base : Int} {span : Nat} (lower : -w.half ≤ base) (upper : base < w.half) (short : span ≤ 4294967) :
    w.convert (base + span) = if base + span < w.half then base + span else base + span - 2 * w.half := by
  have wide := w.half_wide
  split
  · exact convert_same (by omega) (by omega)
  · exact convert_over (by omega) (by omega)

theorem seconds_apart {base : Int} {one two : Nat} (lower : -w.half ≤ base) (upper : base < w.half) (le : one ≤ two)
    (short : two ≤ 4294967) :
    if base + two < w.half ∨ w.half ≤ base + one then
      w.convert (base + two) - w.convert (base + one) = two - one
    else w.convert (base + two) < w.convert (base + one) := by
  have wide := w.half_wide
  rw [convert_sum lower upper short,convert_sum lower upper (Nat.le_trans le short)]
  split
  · split <;> split <;> omega
  · split <;> split <;> omega

theorem told_normalised (bootTime : Int) (time : Nat) : Normalised (told timeT susecondsT bootTime time) ↔ FirstMilli time :=
  normalised_nanos _ (Nat.mod_lt _ (by decide))

theorem told_nanos {bootTime : Int} (first : FirstMilli time) :
    (told timeT susecondsT bootTime time).tvUsec = (1000 * time % 4294967296 : Nat) := by
  have wide := susecondsT.half_wide
  unfold FirstMilli at first
  exact convert_same (by omega) (by omega)

theorem told_order {bootTime : Int} (lower : -timeT.half ≤ bootTime) (upper : bootTime < timeT.half) (le : time ≤ later)
    (up : later / 1000 < 4294967296) (first : FirstMilli time) (second : FirstMilli later) :
    NotAfter (told timeT susecondsT bootTime time) (told timeT susecondsT bootTime later) ↔
      NoWrap timeT bootTime time later := by
  have order := firstMilli_order le first second
  have short : millisAt later / 1000 ≤ 4294967 := by
    have bound := millisAt_le later
    omega
  have apart := seconds_apart lower upper (show millisAt time / 1000 ≤ millisAt later / 1000 by omega) short
  unfold NotAfter NoWrap
  rw [told_nanos first,told_nanos second]
  by_cases room : bootTime + (millisAt later / 1000 : Nat) < timeT.half ∨ timeT.half ≤ bootTime + (millisAt time / 1000 : Nat)
  · rw [if_pos room] at apart
    refine iff_of_true ?_ room
    simp only [told]
    omega
  · rw [if_neg room] at apart
    refine iff_of_false ?_ room
    simp only [told]
    omega

-- Two answers are normalised and in order exactly when both calls come while the
-- nanoseconds are below a million, and time_t has room for the seconds between them.
theorem answers_iff {one two : Timeval} {stamp stamp' : Int} {earlier between : List Deed} {before middle last : Daytime}
    (path : Runs (Passes timeT susecondsT) start earlier before)
    (first : Passes timeT susecondsT before (.gettimeofday time true stamp (some one)) s) (set : s.bootTime ≠ 0)
    (onward : Runs (Passes timeT susecondsT) s between middle)
    (second : Passes timeT susecondsT middle (.gettimeofday later true stamp' (some two)) last)
    (up : later / 1000 < 4294967296) :
    (Normalised one ∧ Normalised two ∧ NotAfter one two) ↔
      FirstMilli time ∧ FirstMilli later ∧ NoWrap timeT s.bootTime time later := by
  have standing := run_standing start_standing path
  have stood := first.standing standing
  have reached := run_standing stood onward
  have stays := run_stays set onward
  have stayed := (second.stays (stays.1.symm ▸ set)).1.trans stays.1
  have le : time ≤ later := by
    rw [← first.clock.1]
    exact Nat.le_trans stays.2 second.clock.2
  rw [first.answer standing (by omega),second.answer reached up,stayed,told_normalised,told_normalised]
  constructor
  · rintro ⟨early,late,order⟩
    exact ⟨early,late,(told_order stood.lower stood.upper le up early late).mp order⟩
  · rintro ⟨early,late,room⟩
    exact ⟨early,late,(told_order stood.lower stood.upper le up early late).mpr room⟩

def long : Signed := ⟨32,Nat.le_refl 32⟩

-- Half a millisecond after boot, and just behind one round of the nanoseconds.
theorem rounds_told :
    ∃ s last, Passes long long start (.gettimeofday 500 true 1700000000 (some ⟨1700000000,500000⟩)) s ∧
      Passes long long s (.gettimeofday 4294968 true 0 (some ⟨1700000004,704⟩)) last ∧
      Normalised ⟨1700000000,500000⟩ ∧ Normalised ⟨1700000004,704⟩ ∧ NotAfter ⟨1700000000,500000⟩ ⟨1700000004,704⟩ := by
  have first : Passes long long start (.gettimeofday 500 true 1700000000 (some ⟨1700000000,500000⟩))
      ⟨⟨⟨some 60000,0,0,true⟩,500,0⟩,1700000000⟩ := .gettimeofday (by decide) (by decide)
  have second : Passes long long ⟨⟨⟨some 60000,0,0,true⟩,500,0⟩,1700000000⟩
      (.gettimeofday 4294968 true 0 (some ⟨1700000004,704⟩)) ⟨⟨⟨some 60000,0,0,true⟩,4294968,0⟩,1700000000⟩ :=
    .gettimeofday (by decide) (by decide)
  exact ⟨_,_,first,second,(answers_iff .nil first (by decide) .nil second (by decide)).mpr (by decide)⟩

-- Two seconds after boot the answers are no microseconds, and step back.
theorem nanos_told :
    ∃ s last, Passes long long start (.gettimeofday 2147483 true 1700000000 (some ⟨1700000000,2147483000⟩)) s ∧
      s.bootTime ≠ 0 ∧ Passes long long s (.gettimeofday 2147484 true 0 (some ⟨1700000000,-2147483296⟩)) last ∧
      ¬ Normalised ⟨1700000000,2147483000⟩ ∧ ¬ Normalised ⟨1700000000,-2147483296⟩ ∧
      ¬ NotAfter ⟨1700000000,2147483000⟩ ⟨1700000000,-2147483296⟩ :=
  ⟨⟨⟨⟨some 60000,0,0,true⟩,2147483,0⟩,1699999998⟩,⟨⟨⟨some 60000,0,0,true⟩,2147484,0⟩,1699999998⟩,
    .gettimeofday (by decide) (by decide),by decide,.gettimeofday (by decide) (by decide),by decide,by decide,by decide⟩

end NonosLinkLayer.Gettimeofday
