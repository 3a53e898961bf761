import Mathlib.Data.List.Basic

namespace TimerList
universe u
variable {α : Type u} {due : α → Nat} {a b : α} {l front behind : List α} {p : α → Bool}

-- Timers in the order in which they fire: what is due earlier is first, and of
-- those due at the same time the one that was armed first.
def arm (due : α → Nat) (a : α) : List α → List α
  | [] => [a]
  | b :: l => if due a < due b then a :: b :: l else b :: arm due a l

def Ordered (due : α → Nat) (l : List α) : Prop := l.Pairwise fun a b => due a ≤ due b

theorem mem_arm : b ∈ arm due a l ↔ b = a ∨ b ∈ l := by
  induction l with
  | nil => simp [arm]
  | cons c l ih =>
    unfold arm
    split
    · simp
    · simp only [List.mem_cons,ih]
      exact or_left_comm

theorem Ordered.arm (ordered : Ordered due l) : Ordered due (arm due a l) := by
  induction l with
  | nil => exact List.pairwise_singleton _ _
  | cons b l ih =>
    obtain ⟨first,rest⟩ := List.pairwise_cons.mp ordered
    unfold TimerList.arm
    split
    · rename_i before
      refine List.pairwise_cons.mpr ⟨fun c member => ?_,ordered⟩
      rcases List.mem_cons.mp member with rfl | later
      · exact Nat.le_of_lt before
      · exact Nat.le_trans (Nat.le_of_lt before) (first c later)
    · rename_i after
      refine List.pairwise_cons.mpr ⟨fun c member => ?_,ih rest⟩
      rcases mem_arm.mp member with rfl | old
      · exact Nat.le_of_not_lt after
      · exact first c old

theorem arm_last (last : ∀ b ∈ l, due b ≤ due a) : arm due a l = l ++ [a] := by
  induction l with
  | nil => rfl
  | cons b l ih =>
    obtain ⟨first,rest⟩ := List.forall_mem_cons.mp last
    rw [arm,if_neg (Nat.not_lt_of_le first),ih rest,List.cons_append]

theorem arm_split (ordered : Ordered due l) : ∃ front behind, l = front ++ behind ∧ arm due a l = front ++ a :: behind ∧
    (∀ b ∈ front, due b ≤ due a) ∧ ∀ b ∈ behind, due a < due b := by
  induction l with
  | nil => exact ⟨[],[],rfl,rfl,by simp,by simp⟩
  | cons b l ih =>
    obtain ⟨first,rest⟩ := List.pairwise_cons.mp ordered
    by_cases before : due a < due b
    · refine ⟨[],b :: l,rfl,by rw [arm,if_pos before]; rfl,by simp,?_⟩
      exact List.forall_mem_cons.mpr ⟨before,fun c member => Nat.lt_of_lt_of_le before (first c member)⟩
    · obtain ⟨front,behind,split,armed,early,late⟩ := ih rest
      refine ⟨b :: front,behind,by rw [split]; rfl,by rw [arm,if_neg before,armed]; rfl,?_,late⟩
      exact List.forall_mem_cons.mpr ⟨Nat.le_of_not_lt before,early⟩

theorem eraseP_split (others : ∀ b ∈ front ++ behind, p b = true) (spared : p a = false) :
    ∃ front' behind', (front ++ a :: behind).eraseP p = front' ++ a :: behind' ∧ front' ++ behind' = (front ++ behind).tail ∧
      (∀ b ∈ front', b ∈ front) ∧ ∀ b ∈ behind', b ∈ behind := by
  cases front with
  | nil =>
    refine ⟨[],behind.tail,?_,rfl,by simp,fun b => List.mem_of_mem_tail⟩
    rw [List.nil_append,List.eraseP_cons_of_neg (by simp [spared])]
    cases behind with
    | nil => rfl
    | cons b behind => rw [List.eraseP_cons_of_pos (others b (by simp))]; rfl
  | cons b front =>
    refine ⟨front,behind,?_,rfl,fun c => List.mem_cons_of_mem b,fun c => id⟩
    rw [List.cons_append,List.eraseP_cons_of_pos (others b (by simp))]

theorem Ordered.sublist (ordered : Ordered due l) (less : front.Sublist l) : Ordered due front := List.Pairwise.sublist less ordered

end TimerList
