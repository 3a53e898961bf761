import Mathlib.Data.List.Basic
import Mathlib.Order.Lattice

namespace GreatestScan
variable {α : Type*} {β : Type*} [LinearOrder β] {f : α → β} {l : List α} {p q : α}

def LastGreatest (f : α → β) (l : List α) (q : α) : Prop :=
  ∃ front back, l = front ++ q :: back ∧ (∀ p ∈ front, f p ≤ f q) ∧ ∀ p ∈ back, f p < f q

theorem LastGreatest.member (greatest : LastGreatest f l q) : q ∈ l := by
  obtain ⟨front,back,rfl,_⟩ := greatest
  simp

theorem LastGreatest.more (greatest : LastGreatest f l q) (more : f q ≤ f p) : LastGreatest f (l ++ [p]) p := by
  obtain ⟨front,back,rfl,before,behind⟩ := greatest
  refine ⟨front ++ q :: back,[],rfl,?_,by simp⟩
  intro r member
  rcases List.mem_append.mp member with early | late
  · exact (before r early).trans more
  · rcases List.mem_cons.mp late with rfl | late
    · exact more
    · exact (behind r late).le.trans more

theorem LastGreatest.less (greatest : LastGreatest f l q) (less : f p < f q) : LastGreatest f (l ++ [p]) q := by
  obtain ⟨front,back,rfl,before,behind⟩ := greatest
  refine ⟨front,back ++ [p],by simp,before,?_⟩
  intro r member
  rcases List.mem_append.mp member with late | last
  · exact behind r late
  · rw [List.mem_singleton.mp last]
    exact less

def scanLast (f : α → β) (counts : α → Bool) : List α → β × Option α → β × Option α
  | [],found => found
  | x :: rest,found => scanLast f counts rest (if counts x && decide (found.1 ≤ f x) then (f x,some x) else found)

def Found (f : α → β) (bottom : β) (seen : List α) (found : β × Option α) : Prop :=
  (seen = [] ∧ found = (bottom,none)) ∨ ∃ q, found = (f q,some q) ∧ LastGreatest f seen q

variable {bottom : β} {seen : List α} {found : β × Option α}

theorem Found.more (sofar : Found f bottom seen found) (more : found.1 ≤ f p) : Found f bottom (seen ++ [p]) (f p,some p) := by
  rcases sofar with ⟨rfl,rfl⟩ | ⟨q,rfl,greatest⟩
  · exact .inr ⟨p,rfl,[],[],rfl,by simp,by simp⟩
  · exact .inr ⟨p,rfl,greatest.more more⟩

theorem Found.less (sofar : Found f bottom seen found) (least : bottom ≤ f p) (less : ¬found.1 ≤ f p) :
    Found f bottom (seen ++ [p]) found := by
  rcases sofar with ⟨rfl,rfl⟩ | ⟨q,rfl,greatest⟩
  · exact absurd least less
  · exact .inr ⟨q,rfl,greatest.less (not_le.mp less)⟩

theorem scanLast_found (least : ∀ p, bottom ≤ f p) (counts : α → Bool) (rest : List α) (sofar : Found f bottom seen found) :
    Found f bottom (seen ++ rest.filter counts) (scanLast f counts rest found) := by
  induction rest generalizing seen found with
  | nil => simpa [scanLast] using sofar
  | cons x rest ih =>
    unfold scanLast
    cases counted : counts x with
    | false =>
      rw [List.filter_cons_of_neg (by simp [counted])]
      simpa using ih sofar
    | true =>
      rw [List.filter_cons_of_pos counted,List.append_cons]
      by_cases more : found.1 ≤ f x
      · simpa [more] using ih (sofar.more more)
      · simpa [more] using ih (sofar.less (least x) more)

theorem scanLast_finds (least : ∀ p, bottom ≤ f p) (counts : α → Bool) (l : List α) :
    ((scanLast f counts l (bottom,none)).2 = none ∧ l.filter counts = []) ∨
      ∃ q, (scanLast f counts l (bottom,none)).2 = some q ∧ LastGreatest f (l.filter counts) q := by
  have found := scanLast_found least counts l (.inl ⟨rfl,rfl⟩)
  rw [List.nil_append] at found
  rcases found with ⟨empty,same⟩ | ⟨q,same,greatest⟩
  · exact .inl ⟨by rw [same],empty⟩
  · exact .inr ⟨q,by rw [same],greatest⟩

end GreatestScan
