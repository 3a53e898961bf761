import Mathlib.Data.Int.ModEq
import Mathlib.Algebra.BigOperators.Group.List.Basic

namespace OnesComplement

-- Numbers in ones' complement. `m` has all bits set, so 0 and `m` are the two zeros.
structure Digit (m x : Int) : Prop where
  low : 0 ≤ x
  high : x ≤ m

-- One word less, or more, with the borrow and the carry brought around.
def sub (m x w : Int) : Int :=
  let x := x - w
  if x ≤ 0 then (x - 1) % (m+1) else x

def add (m x w : Int) : Int :=
  let x := x + w
  if x / (m+1) % 2 = 1 then (x + 1) % (m+1) else x

def subAll (m : Int) : Int → List Int → Int := List.foldl (sub m)
def addAll (m : Int) : Int → List Int → Int := List.foldl (add m)

variable {m x y w c : Int} {ws olds news : List Int}

theorem Digit.sub_eq (digit : Digit m x) (word : Digit m w) : sub m x w = if x ≤ w then x - w + m else x - w := by
  obtain ⟨low,high⟩ := digit
  obtain ⟨low',high'⟩ := word
  unfold sub
  dsimp only
  by_cases borrow : x ≤ w
  · rw [if_pos (by omega),if_pos borrow,←Int.add_emod_right,Int.emod_eq_of_lt (by omega) (by omega)]
    omega
  · rw [if_neg (by omega),if_neg borrow]

theorem Digit.add_eq (digit : Digit m x) (word : Digit m w) : add m x w = if m < x + w then x + w - m else x + w := by
  obtain ⟨low,high⟩ := digit
  obtain ⟨low',high'⟩ := word
  unfold add
  dsimp only
  by_cases carry : m < x + w
  · have one : (x + w) / (m+1) = 1 := by
      rw [Int.ediv_eq_iff_of_pos (by omega)]
      omega
    rw [one,if_pos (by decide),if_pos carry,←Int.sub_emod_right,Int.emod_eq_of_lt (by omega) (by omega)]
    omega
  · have zero : (x + w) / (m+1) = 0 := Int.ediv_eq_zero_of_lt (by omega) (by omega)
    rw [zero,if_neg (by decide),if_neg carry]

-- What one step does: it stays in range, it counts modulo `m`, and it gives the
-- zero 0 only where it says so.
theorem Digit.sub (digit : Digit m x) (word : Digit m w) :
    Digit m (sub m x w) ∧ sub m x w ≡ x - w [ZMOD m] ∧ (sub m x w = 0 ↔ x = 0 ∧ w = m) := by
  rw [digit.sub_eq word]
  obtain ⟨low,high⟩ := digit
  obtain ⟨low',high'⟩ := word
  split_ifs
  · refine ⟨⟨by omega,by omega⟩,?_,by omega⟩
    exact Int.add_modEq_right
  · exact ⟨⟨by omega,by omega⟩,rfl,by omega⟩

theorem Digit.add (digit : Digit m x) (word : Digit m w) :
    Digit m (add m x w) ∧ add m x w ≡ x + w [ZMOD m] ∧ (add m x w = 0 ↔ x = 0 ∧ w = 0) := by
  rw [digit.add_eq word]
  obtain ⟨low,high⟩ := digit
  obtain ⟨low',high'⟩ := word
  split_ifs
  · refine ⟨⟨by omega,by omega⟩,?_,by omega⟩
    exact Int.sub_modulus_modEq_iff.mpr rfl
  · exact ⟨⟨by omega,by omega⟩,rfl,by omega⟩

theorem Digit.subAll (digit : Digit m x) (words : ∀ w ∈ ws, Digit m w) :
    Digit m (subAll m x ws) ∧ subAll m x ws ≡ x - ws.sum [ZMOD m] ∧
      (subAll m x ws = 0 ↔ x = 0 ∧ ∀ w ∈ ws, w = m) := by
  induction ws generalizing x with
  | nil => exact ⟨digit,by simp [OnesComplement.subAll],by simp [OnesComplement.subAll]⟩
  | cons w ws ih =>
    obtain ⟨one,counts,zero⟩ := digit.sub (words w (by simp))
    obtain ⟨all,onward,zeros⟩ := ih one fun v member => words v (List.mem_cons_of_mem _ member)
    refine ⟨all,?_,?_⟩
    · rw [List.sum_cons,←sub_sub]
      exact onward.trans (counts.sub_right _)
    · rw [List.forall_mem_cons,←and_assoc,←zero]
      exact zeros

theorem Digit.addAll (digit : Digit m x) (words : ∀ w ∈ ws, Digit m w) :
    Digit m (addAll m x ws) ∧ addAll m x ws ≡ x + ws.sum [ZMOD m] ∧
      (addAll m x ws = 0 ↔ x = 0 ∧ ∀ w ∈ ws, w = 0) := by
  induction ws generalizing x with
  | nil => exact ⟨digit,by simp [OnesComplement.addAll],by simp [OnesComplement.addAll]⟩
  | cons w ws ih =>
    obtain ⟨one,counts,zero⟩ := digit.add (words w (by simp))
    obtain ⟨all,onward,zeros⟩ := ih one fun v member => words v (List.mem_cons_of_mem _ member)
    refine ⟨all,?_,?_⟩
    · rw [List.sum_cons,←add_assoc]
      exact onward.trans (counts.add_right _)
    · rw [List.forall_mem_cons,←and_assoc,←zero]
      exact zeros

theorem Digit.cases_modEq (one : Digit m x) (two : Digit m y) (same : x ≡ y [ZMOD m]) :
    x = y ∨ (x = 0 ∧ y = m) ∨ (x = m ∧ y = 0) := by
  obtain ⟨k,factor⟩ := same.dvd
  obtain ⟨low,high⟩ := one
  obtain ⟨low',high'⟩ := two
  rcases lt_trichotomy k 0 with down | none | up
  · have bound : m * k ≤ m * -1 := Int.mul_le_mul_of_nonneg_left (by omega) (by omega)
    omega
  · rw [none] at factor
    omega
  · have bound : m * 1 ≤ m * k := Int.mul_le_mul_of_nonneg_left (by omega) (by omega)
    omega

-- A sum of words is all ones when it counts as zero, unless there is nothing in it.
theorem addAll_full (words : ∀ w ∈ ws, Digit m w) (positive : 0 < m) :
    addAll m 0 ws = m ↔ ws.sum ≡ 0 [ZMOD m] ∧ ∃ w ∈ ws, w ≠ 0 := by
  obtain ⟨digit,counts,zero⟩ := (show Digit m 0 from ⟨by omega,by omega⟩).addAll words
  rw [zero_add] at counts
  constructor
  · intro full
    refine ⟨?_,?_⟩
    · refine counts.symm.trans ?_
      rw [full]
      exact Int.modEq_zero_iff_dvd.mpr dvd_rfl
    · by_contra none
      push Not at none
      have isZero := zero.mpr ⟨rfl,none⟩
      omega
  · rintro ⟨sum,w,member,some⟩
    rcases digit.cases_modEq ⟨by omega,by omega⟩ (counts.trans sum) with isZero | ⟨isZero,_⟩ | ⟨full,_⟩
    · exact absurd ((zero.mp isZero).2 w member) some
    · exact absurd ((zero.mp isZero).2 w member) some
    · exact full

-- A checksum is the complement of a sum. When words of the sum are replaced, it
-- is enough to take the old words out of it and put the new ones in.
def adjust (m c : Int) (olds news : List Int) : Int := m - addAll m (subAll m (m - c) olds) news

-- The one case in which a checksum that is all ones stays all ones.
def Drained (m c : Int) (olds news : List Int) : Prop := c = m ∧ (∀ w ∈ olds, w = m) ∧ ∀ w ∈ news, w = 0

instance (m c : Int) (olds news : List Int) : Decidable (Drained m c olds news) :=
  inferInstanceAs (Decidable (_ ∧ _ ∧ _))

theorem Digit.adjust (digit : Digit m c) (old : ∀ w ∈ olds, Digit m w) (new : ∀ w ∈ news, Digit m w) :
    Digit m (adjust m c olds news) ∧ adjust m c olds news ≡ c + olds.sum - news.sum [ZMOD m] ∧
      (adjust m c olds news = m ↔ Drained m c olds news) := by
  obtain ⟨low,high⟩ := digit
  obtain ⟨out,counts,zero⟩ := (show Digit m (m - c) from ⟨by omega,by omega⟩).subAll old
  obtain ⟨sum,counts',zero'⟩ := out.addAll new
  rw [zero] at zero'
  unfold OnesComplement.adjust Drained
  refine ⟨⟨by have := sum.high; omega,by have := sum.low; omega⟩,?_,?_⟩
  · have total := counts'.trans (counts.add_right _)
    have same : m - (m - c - olds.sum + news.sum) = c + olds.sum - news.sum := by omega
    rw [←same]
    exact total.sub_left m
  · rw [show m - OnesComplement.addAll m (OnesComplement.subAll m (m - c) olds) news = m ↔
      OnesComplement.addAll m (OnesComplement.subAll m (m - c) olds) news = 0 by omega,zero',and_assoc]
    exact and_congr_left fun _ => by omega

theorem Digit.eq_of_modEq (one : Digit m x) (two : Digit m y) (same : x ≡ y [ZMOD m]) (full : x = m ↔ y = m) :
    x = y := by
  rcases one.cases_modEq two same with equal | ⟨zero,isFull⟩ | ⟨isFull,zero⟩
  · exact equal
  · exact (full.mpr isFull).trans isFull.symm
  · exact isFull.trans (full.mp isFull).symm

theorem adjust_append (digit : Digit m c) (old : ∀ w ∈ olds, Digit m w) (new : ∀ w ∈ news, Digit m w)
    (old' : ∀ w ∈ olds', Digit m w) (new' : ∀ w ∈ news', Digit m w) :
    adjust m (adjust m c olds news) olds' news' = adjust m c (olds ++ olds') (news ++ news') := by
  obtain ⟨first,counts,full⟩ := digit.adjust old new
  obtain ⟨second,counts',full'⟩ := first.adjust old' new'
  have olds_digit : ∀ w ∈ olds ++ olds', Digit m w := List.forall_mem_append.mpr ⟨old,old'⟩
  have news_digit : ∀ w ∈ news ++ news', Digit m w := List.forall_mem_append.mpr ⟨new,new'⟩
  obtain ⟨both,counts'',full''⟩ := digit.adjust olds_digit news_digit
  refine second.eq_of_modEq both ?_ ?_
  · have total := counts'.trans ((counts.add_right olds'.sum).sub_right news'.sum)
    have same : c + olds.sum - news.sum + olds'.sum - news'.sum = c + (olds ++ olds').sum - (news ++ news').sum := by
      rw [List.sum_append,List.sum_append]
      omega
    rw [same] at total
    exact total.trans counts''.symm
  · rw [full',full'']
    unfold Drained at full ⊢
    rw [full,List.forall_mem_append,List.forall_mem_append]
    tauto

theorem Digit.adjust_zero (digit : Digit m c) (old : ∀ w ∈ olds, Digit m w) (new : ∀ w ∈ news, Digit m w)
    (positive : 0 < m) :
    OnesComplement.adjust m c olds news = 0 ↔ c + olds.sum ≡ news.sum [ZMOD m] ∧ ¬ Drained m c olds news := by
  obtain ⟨result,counts,full⟩ := digit.adjust old new
  rw [←full]
  have shifted : c + olds.sum ≡ news.sum [ZMOD m] ↔ OnesComplement.adjust m c olds news ≡ 0 [ZMOD m] := by
    constructor
    · intro same
      exact counts.trans (by simpa using same.sub_right news.sum)
    · intro zero
      simpa using (counts.symm.trans zero).add_right news.sum
  rw [shifted]
  constructor
  · intro zero
    rw [zero]
    exact ⟨rfl,by omega⟩
  · rintro ⟨zero,other⟩
    rcases result.cases_modEq ⟨by omega,by omega⟩ zero with equal | ⟨equal,_⟩ | ⟨isFull,_⟩
    · exact equal
    · exact equal
    · exact absurd isFull other

theorem Digit.adjust_same (digit : Digit m c) (old : ∀ w ∈ olds, Digit m w) (new : ∀ w ∈ news, Digit m w) :
    OnesComplement.adjust m c olds news = c ↔
      olds.sum ≡ news.sum [ZMOD m] ∧ (c = m → Drained m c olds news) := by
  obtain ⟨result,counts,full⟩ := digit.adjust old new
  rw [←full]
  have shifted : olds.sum ≡ news.sum [ZMOD m] ↔ OnesComplement.adjust m c olds news ≡ c [ZMOD m] := by
    constructor
    · intro same
      exact counts.trans (by simpa using (same.add_left c).sub_right news.sum)
    · intro back
      have total := (counts.symm.trans back).add_right news.sum
      rw [sub_add_cancel] at total
      exact total.add_left_cancel'
  rw [shifted]
  constructor
  · intro same
    rw [same]
    exact ⟨rfl,id⟩
  · rintro ⟨back,kept⟩
    refine result.eq_of_modEq digit back ⟨fun isFull => ?_,kept⟩
    exact (full.mp isFull).1

end OnesComplement
