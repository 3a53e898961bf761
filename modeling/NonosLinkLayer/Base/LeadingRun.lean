import Mathlib.Logic.Function.Iterate
import Mathlib.Data.List.Basic

namespace LeadingRun
universe u v
variable {α : Type u} {ε : Type v} [DecidableEq α] {next : α → α} {value : ε → α} {stop : ε → Bool} {list : List ε} {a : α}

-- Follow a sequence along a list, and give the first value of it that the list
-- does not hold at this place. An entry can also stop the search.
def reach (next : α → α) (value : ε → α) (stop : ε → Bool) : α → List ε → α
  | a,[] => a
  | a,e :: rest => if stop e = false ∧ value e = a then reach next value stop (next a) rest else a

structure Leads (next : α → α) (value : ε → α) (stop : ε → Bool) (a : α) (list : List ε) (n : Nat) : Prop where
  follows : ∀ i < n, ∃ e, list[i]? = some e ∧ stop e = false ∧ value e = next^[i] a
  ends : ∀ e, list[n]? = some e → stop e = true ∨ value e ≠ next^[n] a

omit [DecidableEq α] in
theorem Leads.le (one : Leads next value stop a list n) (two : Leads next value stop a list m) : m ≤ n := by
  by_contra more
  obtain ⟨e,here,on,same⟩ := two.follows n (by omega)
  rcases one.ends e here with off | other
  · rw [on] at off
    cases off
  · exact other same

theorem reach_leads (next : α → α) (value : ε → α) (stop : ε → Bool) (a : α) (list : List ε) :
    ∃ n, Leads next value stop a list n ∧ reach next value stop a list = next^[n] a := by
  induction list generalizing a with
  | nil => exact ⟨0,⟨by omega,by simp⟩,rfl⟩
  | cons head rest ih =>
    unfold reach
    split_ifs with on
    · obtain ⟨n,leads,reached⟩ := ih (next a)
      refine ⟨n+1,⟨fun i small => ?_,fun e here => ?_⟩,reached⟩
      · cases i with
        | zero => exact ⟨head,rfl,on⟩
        | succ i => simpa using leads.follows i (by omega)
      · exact leads.ends e (by simpa using here)
    · refine ⟨0,⟨by omega,fun e here => ?_⟩,rfl⟩
      cases Option.some.inj here
      cases off : stop head with
      | true => exact .inl rfl
      | false => exact .inr fun same => on ⟨off,same⟩

theorem forall_leads {P : α → Prop} :
    (∀ n, Leads next value stop a list n → P (next^[n] a)) ↔ P (reach next value stop a list) := by
  obtain ⟨n,leads,reached⟩ := reach_leads next value stop a list
  rw [reached]
  constructor
  · intro all
    exact all n leads
  · intro here m other
    rw [Nat.le_antisymm (leads.le other) (other.le leads)]
    exact here

end LeadingRun
