import Mathlib.Data.List.Range
import Mathlib.Data.Nat.Init

namespace Pieces
universe u
variable {α : Type u} {size : Nat} {list : List α}

-- A list cut into pieces of `size` elements, of which the last may be shorter.
def piece (size : Nat) (list : List α) (j : Nat) : List α := (list.drop (size * j)).take size

def pieces (size len : Nat) : Nat := (len + size - 1) / size

@[simp] theorem piece_zero : piece size list 0 = list.take size := by simp [piece]

theorem piece_succ (size : Nat) (list : List α) (j : Nat) : piece size list (j + 1) = piece size (list.drop size) j := by
  simp [piece,Nat.mul_add,Nat.add_comm]

theorem length_piece (size : Nat) (list : List α) (j : Nat) : (piece size list j).length ≤ size :=
  List.length_take_le ..

theorem pieces_last (some : 0 < len) (short : len ≤ size) : pieces size len = 1 := by
  unfold pieces
  apply Nat.div_eq_of_lt_le <;> omega

theorem pieces_step (positive : 0 < size) (long : size < len) : pieces size len = pieces size (len - size) + 1 := by
  unfold pieces
  rw [show len + size - 1 = (len - size + size - 1) + size by omega,Nat.add_div_right _ positive]

theorem pieces_covers (positive : 0 < size) (len : Nat) : len ≤ size * pieces size len := by
  have less := Nat.lt_mul_div_succ (len + size - 1) positive
  unfold pieces
  rw [Nat.mul_add] at less
  omega

theorem piece_some (positive : 0 < size) (inside : j < pieces size list.length) : piece size list j ≠ [] := by
  have before : size * j < list.length := by
    have reached : size * (j + 1) ≤ list.length + size - 1 :=
      (Nat.mul_le_mul_left size inside).trans (Nat.mul_div_le _ _)
    rw [Nat.mul_add] at reached
    omega
  unfold piece
  intro none
  have length := congrArg List.length none
  simp only [List.length_take,List.length_drop,List.length_nil] at length
  omega

theorem flatten_pieces (size : Nat) (list : List α) (n : Nat) :
    ((List.range n).map (piece size list)).flatten = list.take (size * n) := by
  induction n generalizing list with
  | zero => simp
  | succ n ih =>
    have later : (List.range n).map (fun j => piece size list (j + 1)) = (List.range n).map (piece size (list.drop size)) :=
      List.map_congr_left fun j _ => piece_succ size list j
    rw [List.range_succ_eq_map,List.map_cons,List.map_map,List.flatten_cons]
    change _ ++ ((List.range n).map fun j => piece size list (j + 1)).flatten = _
    rw [later,ih,piece_zero,Nat.mul_add,Nat.mul_one,Nat.add_comm,List.take_add]

end Pieces
