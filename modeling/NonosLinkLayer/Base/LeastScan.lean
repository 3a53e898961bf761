import Mathlib.Data.List.Basic
import Mathlib.Order.Lattice

namespace LeastScan

section Lists
variable {α : Type*} {β : Type*} [LinearOrder β] {f : α → β} {l : List α} {k j : Nat} {q p : α}

structure FirstLeast (f : α → β) (l : List α) (k : Nat) (q : α) : Prop where
  here : l[k]? = some q
  least : ∀ p ∈ l, f q ≤ f p
  first : ∀ p ∈ l.take k, f q < f p

theorem FirstLeast.below (found : FirstLeast f l k q) : k < l.length := (List.getElem?_eq_some_iff.mp found.here).1

theorem FirstLeast.member (found : FirstLeast f l k q) : q ∈ l := List.mem_of_getElem? found.here

theorem firstLeast_single (f : α → β) (p : α) : FirstLeast f [p] 0 p := by
  refine ⟨rfl,?_,?_⟩
  · intro q member
    rw [List.mem_singleton.mp member]
  · intro q member
    cases member

theorem firstLeast_split {front back : List α} (above : ∀ r ∈ front, f q < f r) (behind : ∀ r ∈ back, f q ≤ f r) :
    FirstLeast f (front ++ q :: back) front.length q := by
  refine ⟨List.getElem?_append_right (Nat.le_refl _) |>.trans (by rw [Nat.sub_self]; rfl),?_,?_⟩
  · intro r member
    rcases List.mem_append.mp member with early | late
    · exact (above r early).le
    · rcases List.mem_cons.mp late with rfl | late
      · exact le_refl _
      · exact behind r late
  · rw [List.take_left]
    exact above

theorem FirstLeast.less (found : FirstLeast f l k q) (less : f p < f q) : FirstLeast f (l ++ [p]) l.length p := by
  refine ⟨List.getElem?_concat_length,?_,?_⟩
  · intro r member
    rcases List.mem_append.mp member with old | new
    · exact less.le.trans (found.least r old)
    · rw [List.mem_singleton.mp new]
  · intro r member
    rw [List.take_left] at member
    exact less.trans_le (found.least r member)

theorem FirstLeast.more (found : FirstLeast f l k q) (more : f q ≤ f p) : FirstLeast f (l ++ [p]) k q := by
  refine ⟨(List.getElem?_append_left found.below).trans found.here,?_,?_⟩
  · intro r member
    rcases List.mem_append.mp member with old | new
    · exact found.least r old
    · rw [List.mem_singleton.mp new]
      exact more
  · rw [List.take_append_of_le_length (Nat.le_of_lt found.below)]
    exact found.first

theorem FirstLeast.not_before (found : FirstLeast f l k q) (other : FirstLeast f l j p) : ¬j < k := by
  intro before
  have inside : p ∈ l.take k := List.mem_of_getElem? ((List.getElem?_take_of_lt before).trans other.here)
  exact absurd (other.least q found.member) (found.first p inside).not_ge

theorem FirstLeast.unique (found : FirstLeast f l k q) (other : FirstLeast f l j p) : k = j :=
  Nat.le_antisymm (Nat.not_lt.mp (found.not_before other)) (Nat.not_lt.mp (other.not_before found))

end Lists

end LeastScan
