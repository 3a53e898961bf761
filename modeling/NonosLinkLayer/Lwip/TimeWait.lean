import NonosLinkLayer.Base.Transitions
import NonosLinkLayer.Base.Turns

namespace NonosLinkLayer.TimeWait
open Transitions Turns
variable {P : Type}

-- The counting loop of TCP_TW_LIMIT, which begins at the second pcb.
def countOn : UInt32 → List P → UInt32
  | count,[] => count
  | count,_ :: rest => countOn (count + 1) rest

def countPlus1 : List P → UInt32
  | [] => 1
  | _ :: rest => countOn 1 rest

def killLoop (kill : List P → List P) (l : UInt32) : Nat → UInt32 → List P → Option (List P)
  | 0,_,_ => none
  | turns+1,count,s =>
    let count := count - 1
    if count > l then killLoop kill l turns count (kill s) else some s

def tcpTwLimit (kill : List P → List P) (l : UInt32) (turns : Nat) (s : List P) : Option (List P) :=
  if l = 0 then some s else killLoop kill l turns (countPlus1 s) s

-- What becomes of tcp_tw_pcbs: tcp_process puts a pcb into TIME_WAIT, or one is
-- taken out of the list.
inductive Event (P : Type) where
  | enter (pcb : P)
  | remove

inductive Step (kill : List P → List P) (limit : UInt32) : List P → Event P → List P → Prop where
  | enter : Ends (fun turns => tcpTwLimit kill (limit - 1) turns s) t → Step kill limit s (.enter pcb) (pcb :: t)
  | remove : Step kill limit (before ++ pcb :: after) .remove (before ++ after)

-- tcp_kill_timewait takes one pcb out of a list that has any.
def Kills (kill : List P → List P) : Prop :=
  ∀ s, s ≠ [] → ∃ before pcb after, s = before ++ pcb :: after ∧ kill s = before ++ after

def Roomy (kill : List P → List P) (limit : UInt32) (s : List P) (event : Event P) (t : List P) : Prop :=
  Step kill limit s event t ∧ ∀ pcb, event = .enter pcb → s.length < limit.toNat

variable {kill : List P → List P} {s t : List P} {limit : UInt32}

theorem Kills.length (kills : Kills kill) (some_ : s ≠ []) : (kill s).length + 1 = s.length := by
  obtain ⟨before,pcb,after,split,killed⟩ := kills s some_
  rw [killed,split,List.length_append,List.length_append,List.length_cons]
  rfl

theorem countOn_toNat (count : UInt32) (s : List P) (fits : count.toNat + s.length < 4294967296) :
    (countOn count s).toNat = count.toNat + s.length := by
  induction s generalizing count with
  | nil => rfl
  | cons pcb rest ih =>
    rw [List.length_cons] at fits ⊢
    have next : (count + 1).toNat = count.toNat + 1 := by
      rw [UInt32.toNat_add,UInt32.toNat_one]
      omega
    have onward := ih (count + 1) (by omega)
    rw [countOn,onward,next]
    omega

-- One for the empty list, and else the number of pcbs.
theorem countPlus1_toNat (fits : s.length < 4294967296) : (countPlus1 s).toNat = max 1 s.length := by
  cases s with
  | nil => rfl
  | cons pcb rest =>
    rw [List.length_cons] at fits
    have counted := countOn_toNat 1 rest (by rw [UInt32.toNat_one]; omega)
    rw [UInt32.toNat_one] at counted
    rw [countPlus1,counted,List.length_cons]
    omega

theorem pred_toNat {v : UInt32} (positive : 1 ≤ v.toNat) : (v - 1).toNat = v.toNat - 1 :=
  UInt32.toNat_sub_of_le _ _ (UInt32.le_iff_toNat_le.mpr positive)

theorem killLoop_rest (count l : UInt32) (s : List P) (some_ : 1 ≤ count.toNat) (room : count.toNat ≤ l.toNat + 1) :
    Ends (fun turns => killLoop kill l turns count s) s := by
  refine .turn (fun turns => rfl) (.always fun turns => if_neg ?_)
  have before := pred_toNat some_
  rw [gt_iff_lt,UInt32.lt_iff_toNat_lt,before]
  omega

-- The loop leaves one pcb more than the limit it is given.
theorem killLoop_kills (kills : Kills kill) (l : UInt32) (k : Nat) (count : UInt32) (s : List P)
    (many : count.toNat = l.toNat + 1 + k) (length : s.length = count.toNat) :
    Yields (fun turns => killLoop kill l turns count s) fun t => t.length = l.toNat + 1 := by
  induction k generalizing count s with
  | zero => exact ⟨s,by omega,killLoop_rest count l s (by omega) (by omega)⟩
  | succ k ih =>
    have before := pred_toNat (by omega : 1 ≤ count.toNat)
    have more : count - 1 > l := by
      rw [gt_iff_lt,UInt32.lt_iff_toNat_lt,before]
      omega
    have some_ : s ≠ [] := List.ne_nil_of_length_pos (by omega)
    have fewer := kills.length some_
    refine .turn (fun turns => if_pos more) (ih (count - 1) (kill s) (by omega) (by omega))

-- No pcb is killed while the list is within its limit. A full list stays full, so
-- that the pcb that enters is one too many.
theorem limit_rests (positive : 1 ≤ limit.toNat) (within : s.length ≤ limit.toNat) :
    Ends (fun turns => tcpTwLimit kill (limit - 1) turns s) s := by
  have small := limit.toNat_lt
  have before := pred_toNat positive
  have counted := countPlus1_toNat (s:=s) (by omega)
  unfold tcpTwLimit
  by_cases off : limit - 1 = 0
  · exact .always fun turns => if_pos off
  · simp only [if_neg off]
    exact killLoop_rest _ _ s (by omega) (by omega)

theorem enter_length (positive : 1 ≤ limit.toNat) (bounded : s.length ≤ limit.toNat)
    (step : Step kill limit s (.enter pcb) t) : t.length = s.length + 1 := by
  cases step with
  | enter ends => rw [ends.unique (limit_rests positive bounded),List.length_cons]

theorem Roomy.bounded (positive : 1 ≤ limit.toNat) (bounded : s.length ≤ limit.toNat) (roomy : Roomy kill limit s event t) :
    t.length ≤ limit.toNat := by
  obtain ⟨step,room⟩ := roomy
  cases event with
  | enter pcb =>
    have before := room pcb rfl
    rw [enter_length positive bounded step]
    exact before
  | remove =>
    cases step with
    | remove =>
      rw [List.length_append,List.length_cons] at bounded
      rw [List.length_append]
      omega

theorem enter_full (kills : Kills kill) (many : 2 ≤ limit.toNat) (small : limit.toNat < 4294967295)
    (extra : s.length = limit.toNat + 1) (step : Step kill limit s (.enter pcb) t) : t.length = limit.toNat + 1 := by
  have before := pred_toNat (by omega : 1 ≤ limit.toNat)
  have counted := countPlus1_toNat (s:=s) (by omega)
  have on : limit - 1 ≠ 0 := by
    intro off
    rw [off,UInt32.toNat_zero] at before
    omega
  have killed := killLoop_kills kills (limit - 1) 1 (countPlus1 s) s (by omega) (by omega)
  cases step with
  | enter ends =>
    unfold tcpTwLimit at ends
    simp only [if_neg on] at ends
    have left := killed.holds ends
    rw [List.length_cons]
    omega

theorem time_wait_steady (kills : Kills kill) (many : 2 ≤ limit.toNat) (small : limit.toNat < 4294967295)
    (path : Runs (Step kill limit) [] past s) : s.length ≤ limit.toNat + 1 := by
  refine path.keeps (I:=fun s => s.length ≤ limit.toNat + 1) (Nat.zero_le _) fun held step => ?_
  rename_i s event t
  cases event with
  | enter pcb =>
    rcases Nat.lt_or_eq_of_le held with fits | extra
    · rw [enter_length (Nat.le_of_succ_le many) (Nat.le_of_lt_succ fits) step]
      exact fits
    · exact Nat.le_of_eq (enter_full kills many small extra step)
  | remove =>
    cases step with
    | remove =>
      rw [List.length_append,List.length_cons] at held
      rw [List.length_append]
      omega

-- While pcbs only enter a list that is not full it stays within its limit, and
-- just one that enters a full list breaks it; none is killed where there is room.
theorem time_wait_limited (positive : 1 ≤ limit.toNat) (path : Runs (Roomy kill limit) [] past s) :
    s.length ≤ limit.toNat ∧ (∀ pcb t, Step kill limit s (.enter pcb) t → (t.length ≤ limit.toNat ↔ s.length < limit.toNat)) ∧
      (s.length < limit.toNat → Ends (fun turns => tcpTwLimit kill (limit - 1) turns s) s) := by
  have bounded : s.length ≤ limit.toNat := path.keeps (I:=fun s => s.length ≤ limit.toNat) (Nat.zero_le _)
    fun held roomy => roomy.bounded positive held
  refine ⟨bounded,fun pcb t step => ?_,fun room => limit_rests positive (Nat.le_of_lt room)⟩
  rw [enter_length positive bounded step]
  exact Nat.succ_le_iff

-- TCP_REG puts a pcb in front, so the oldest is the last.
theorem dropLast_kills : Kills (List.dropLast : List P → List P) := by
  intro s some_
  exact ⟨s.dropLast,s.getLast some_,[],(List.dropLast_concat_getLast some_).symm,(List.append_nil _).symm⟩

theorem enters (s : List P) (pcb : P) (room : s.length < 5) : Roomy List.dropLast 5 s (.enter pcb) (pcb :: s) :=
  ⟨.enter (limit_rests (by decide) (Nat.le_of_lt room)),fun _ _ => room⟩

theorem two_limited : [2,1].length ≤ 5 ∧
    (∀ pcb t, Step List.dropLast 5 [2,1] (.enter pcb) t → (t.length ≤ 5 ↔ [2,1].length < 5)) ∧
    ([2,1].length < 5 → Ends (fun turns => tcpTwLimit List.dropLast (5 - 1) turns [2,1]) [2,1]) :=
  time_wait_limited (by decide) ((Runs.single (enters [] 1 (by decide))).step (enters [1] 2 (by decide)))

-- Six connections are closed one after the other, and the limit is five.
theorem time_wait_exceeded : ¬ (∀ (kill : List Nat → List Nat) (limit : UInt32) (past : List (Event Nat)) (s : List Nat),
    Kills kill → 1 ≤ limit.toNat → Runs (Step kill limit) [] past s → s.length ≤ limit.toNat) := by
  intro claimed
  have five : Runs (Step List.dropLast 5) [] _ [5,4,3,2,1] :=
    (((((Runs.single (enters [] 1 (by decide)).1).step (enters [1] 2 (by decide)).1).step (enters [2,1] 3 (by decide)).1).step
      (enters [3,2,1] 4 (by decide)).1).step (enters [4,3,2,1] 5 (by decide)).1)
  have six : Step List.dropLast 5 [5,4,3,2,1] (.enter 6) [6,5,4,3,2,1] := .enter (limit_rests (by decide) (by decide))
  have bounded := claimed List.dropLast 5 _ _ dropLast_kills (by decide) (five.step six)
  exact absurd bounded (by decide)

end NonosLinkLayer.TimeWait
