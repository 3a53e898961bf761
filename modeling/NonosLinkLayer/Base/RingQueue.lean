import Mathlib.Data.List.Rotate
import Mathlib.Data.List.DropRight

namespace RingQueue
variable {α : Type} {ring q xs ys : List α} {cap n k p : Nat}

-- What a queue with room for `cap` items keeps: the newest ones.
def push (cap : Nat) (q xs : List α) : List α := (q ++ xs).rtake cap

def overwrite (ring : List α) (p : Nat) (xs : List α) : List α :=
  ring.take p ++ xs ++ ring.drop (p + xs.length)

-- The `n` items met from `p` on, going round the ring.
def circular (ring : List α) (p n : Nat) : List α := (ring.rotate p).take n

theorem length_rtake (l : List α) : (l.rtake n).length = min n l.length := by
  rw [List.rtake,List.length_drop]
  omega

theorem rtake_all {l : List α} (fits : l.length ≤ n) : l.rtake n = l := by
  rw [List.rtake,Nat.sub_eq_zero_of_le fits,List.drop_zero]

theorem rtake_append_of_le (l : List α) (short : n ≤ xs.length) : (l ++ xs).rtake n = xs.rtake n := by
  rw [List.rtake,List.rtake,List.length_append,List.drop_append,List.drop_eq_nil_of_le (by omega),List.nil_append]
  congr 1
  omega

theorem rtake_append_of_ge (l : List α) (long : xs.length ≤ n) :
    (l ++ xs).rtake n = l.rtake (n - xs.length) ++ xs := by
  rw [List.rtake,List.rtake,List.length_append,List.drop_append]
  have before : l.length + xs.length - n = l.length - (n - xs.length) := by omega
  have none : l.length + xs.length - n - l.length = 0 := by omega
  rw [none,List.drop_zero,before]

theorem rtake_rtake (l : List α) (less : k ≤ n) : (l.rtake n).rtake k = l.rtake k := by
  rw [List.rtake,length_rtake,List.rtake,List.drop_drop,List.rtake]
  congr 1
  omega

theorem rtake_append_rtake (l xs : List α) (reach : k ≤ n + xs.length) :
    (l.rtake n ++ xs).rtake k = (l ++ xs).rtake k := by
  by_cases short : k ≤ xs.length
  · rw [rtake_append_of_le _ short,rtake_append_of_le _ short]
  · rw [rtake_append_of_ge _ (by omega),rtake_append_of_ge _ (by omega),rtake_rtake _ (by omega)]

theorem push_push (cap : Nat) (q xs ys : List α) : push cap (push cap q xs) ys = push cap q (xs ++ ys) := by
  unfold push
  rw [rtake_append_rtake _ _ (by omega),List.append_assoc]

theorem push_all (room : q.length + xs.length ≤ cap) : push cap q xs = q ++ xs :=
  rtake_all (by rwa [List.length_append])

theorem length_overwrite (fits : p + xs.length ≤ ring.length) : (overwrite ring p xs).length = ring.length := by
  simp only [overwrite,List.length_append,List.length_take,List.length_drop]
  omega

-- One turn of the ring, read from where the next item goes, is the record of
-- the last `ring.length` items put in.
theorem rotate_overwrite (fits : p + xs.length ≤ ring.length) :
    (overwrite ring p xs).rotate (p + xs.length) = push ring.length (ring.rotate p) xs := by
  have front : (ring.take p ++ xs).length = p + xs.length := by
    rw [List.length_append,List.length_take]
    omega
  have all : p + xs.length ≤ (overwrite ring p xs).length := by rwa [length_overwrite fits]
  rw [List.rotate_eq_drop_append_take all,push,rtake_append_of_ge _ (by omega),List.rotate_eq_drop_append_take (by omega)]
  rw [overwrite,List.drop_left' front,List.take_left' front,List.rtake,List.length_append,List.length_drop,List.length_take]
  have gone : ring.length - p + min p ring.length - (ring.length - xs.length) = xs.length := by omega
  rw [gone,List.drop_append_of_le_length (by rw [List.length_drop]; omega),List.drop_drop,List.append_assoc]

theorem length_circular (most : n ≤ ring.length) : (circular ring p n).length = n := by
  rw [circular,List.length_take,List.length_rotate,Nat.min_eq_left most]

theorem circular_mod (ring : List α) (p n : Nat) : circular ring (p % ring.length) n = circular ring p n := by
  rw [circular,List.rotate_mod,circular]

theorem circular_back (most : n ≤ ring.length) : circular ring p n = (ring.rotate (p + n)).rtake n := by
  have cut : n ≤ (ring.rotate p).length := by rwa [List.length_rotate]
  have newest : ((ring.rotate p).take n).length = n := by rw [List.length_take,Nat.min_eq_left cut]
  rw [←List.rotate_rotate,List.rotate_eq_drop_append_take cut,rtake_append_of_le _ newest.ge,rtake_all newest.le,circular]

theorem take_circular (less : k ≤ n) : (circular ring p n).take k = circular ring p k := by
  rw [circular,List.take_take,Nat.min_eq_left less,circular]

theorem drop_circular (most : n ≤ ring.length) : (circular ring p n).drop k = circular ring (p + k) (n - k) := by
  by_cases beyond : n ≤ k
  · rw [List.drop_eq_nil_of_le (by rwa [length_circular most]),Nat.sub_eq_zero_of_le beyond]
    rfl
  · have cut : k ≤ (ring.rotate p).length := by rw [List.length_rotate]; omega
    rw [circular,circular,←List.rotate_rotate,List.rotate_eq_drop_append_take cut,List.drop_take]
    rw [List.take_append_of_le_length (by rw [List.length_drop,List.length_rotate]; omega)]

theorem circular_straight (inside : p + n ≤ ring.length) : circular ring p n = (ring.drop p).take n := by
  rw [circular,List.rotate_eq_drop_append_take (by omega)]
  rw [List.take_append_of_le_length (by rw [List.length_drop]; omega)]

end RingQueue
