import Mathlib.Data.List.Basic

namespace SharedSlots
universe u
variable {α : Type u} {free own unused : α → Bool} {spare : α → α} {slots values before after : List α} {slot : α}

-- Several owners share the slots of a list. Those that are free to one of them
-- take its values one by one, and where the values have run out, what `spare` says.
def fill (free : α → Bool) (spare : α → α) : List α → List α → List α
  | [],_ => []
  | slot :: slots,values =>
    if free slot then values.headD (spare slot) :: fill free spare slots values.tail
    else slot :: fill free spare slots values

@[simp] theorem fill_nil (values : List α) : fill free spare [] values = [] := rfl

theorem fill_free (here : free slot = true) :
    fill free spare (slot :: slots) values = values.headD (spare slot) :: fill free spare slots values.tail := by
  simp [fill,here]

theorem fill_kept (here : free slot = false) :
    fill free spare (slot :: slots) values = slot :: fill free spare slots values := by
  simp [fill,here]

theorem fill_id (slots : List α) : fill free id slots [] = slots := by
  induction slots with
  | nil => rfl
  | cons slot slots ih => cases here : free slot <;> simp [fill,here,ih]

theorem length_fill (slots values : List α) : (fill free spare slots values).length = slots.length := by
  induction slots generalizing values with
  | nil => rfl
  | cons slot slots ih => cases here : free slot <;> simp [fill,here,ih]

theorem fill_take (many : slots.length ≤ n) : fill free spare slots (values.take n) = fill free spare slots values := by
  induction slots generalizing values n with
  | nil => rfl
  | cons slot slots ih =>
    rw [List.length_cons] at many
    obtain ⟨n,rfl⟩ := Nat.exists_eq_succ_of_ne_zero (Nat.ne_zero_of_lt many)
    cases here : free slot with
    | false => rw [fill_kept here,fill_kept here,ih (Nat.le_of_succ_le many)]
    | true =>
      rw [fill_free here,fill_free here]
      cases values with
      | nil => simp
      | cons v values => simpa using ih (Nat.le_of_succ_le_succ many)

-- What an owner has afterwards: the values that found a slot, and what it has
-- kept in those that were left over.
theorem filter_fill (values_own : ∀ v ∈ values, own v = true) (own_free : ∀ s, own s = true → free s = true) :
    (fill free spare slots values).filter own =
      values.take (slots.countP free) ++ (((slots.filter free).drop values.length).map spare).filter own := by
  induction slots generalizing values with
  | nil => simp
  | cons slot slots ih =>
    cases here : free slot with
    | false =>
      have foreign : own slot = false := by
        apply Bool.eq_false_iff.mpr
        intro mine
        rw [own_free slot mine] at here
        cases here
      rw [fill_kept here,List.filter_cons_of_neg (by simp [foreign]),ih values_own,List.countP_cons_of_neg (by simp [here])]
      rw [List.filter_cons_of_neg (by simp [here])]
    | true =>
      rw [fill_free here,List.countP_cons_of_pos here,List.filter_cons_of_pos here]
      cases values with
      | nil =>
        have rest := @ih [] (by simp)
        simp only [List.take_nil,List.length_nil,List.drop_zero,List.nil_append] at rest
        simp [List.filter_cons,rest]
      | cons v values =>
        obtain ⟨first,others⟩ := List.forall_mem_cons.mp values_own
        simp [first,ih others]

theorem filter_fill_other (other_free : ∀ s, free s = !own s) (values_free : ∀ v ∈ values, own v = false)
    (spare_free : ∀ s, free s = true → own (spare s) = false) :
    (fill free spare slots values).filter own = slots.filter own := by
  induction slots generalizing values with
  | nil => rfl
  | cons slot slots ih =>
    have later := ih fun v member => values_free v (List.mem_of_mem_tail member)
    cases mine : own slot with
    | true =>
      have here : free slot = false := by simp [other_free,mine]
      rw [fill_kept here,List.filter_cons_of_pos mine,List.filter_cons_of_pos mine,ih values_free]
    | false =>
      have here : free slot = true := by simp [other_free,mine]
      have written : own (values.headD (spare slot)) = false := by
        cases values with
        | nil => exact spare_free slot here
        | cons v values => exact values_free v List.mem_cons_self
      rw [fill_free here,List.filter_cons_of_neg (ne_true_of_eq_false written),List.filter_cons_of_neg (by simp [mine]),later]

def Packed (unused : α → Bool) (slots : List α) : Prop :=
  slots.Pairwise fun a b => unused a = true → unused b = true

theorem packed_replicate (n : Nat) (slot : α) : Packed unused (List.replicate n slot) :=
  List.pairwise_replicate.mpr (.inr id)

theorem Packed.tail (packed : Packed unused (slot :: slots)) : Packed unused slots := (List.pairwise_cons.mp packed).2

theorem Packed.all (packed : Packed unused (slot :: slots)) (here : unused slot = true) : ∀ s ∈ slots, unused s = true :=
  fun s member => (List.pairwise_cons.mp packed).1 s member here

-- Values that are in use leave no gap, as a slot that is not in use is free.
theorem Packed.fill (packed : Packed unused slots) (values_used : ∀ v ∈ values, unused v = false)
    (unused_free : ∀ s, unused s = true → free s = true) : Packed unused (fill free id slots values) := by
  induction slots generalizing values with
  | nil => exact List.Pairwise.nil
  | cons slot slots ih =>
    cases here : free slot with
    | false =>
      have busy : unused slot = false := by
        apply Bool.eq_false_iff.mpr
        intro idle
        rw [unused_free slot idle] at here
        cases here
      rw [fill_kept here]
      exact List.pairwise_cons.mpr ⟨fun _ _ idle => by simp [busy] at idle,ih packed.tail values_used⟩
    | true =>
      rw [fill_free here]
      cases values with
      | nil => simpa [fill_id] using packed
      | cons v values =>
        obtain ⟨first,others⟩ := List.forall_mem_cons.mp values_used
        exact List.pairwise_cons.mpr ⟨fun _ _ idle => by simp [first] at idle,ih packed.tail others⟩

theorem Packed.filter_drop (packed : Packed unused slots) (own_used : ∀ s, own s = true → unused s = false)
    (free_iff : ∀ s, free s = (unused s || own s)) (n : Nat) :
    ((slots.filter free).drop n).filter own = (slots.filter own).drop n := by
  induction slots generalizing n with
  | nil => simp
  | cons slot slots ih =>
    cases mine : own slot with
    | true =>
      have here : free slot = true := by simp [free_iff,mine]
      rw [List.filter_cons_of_pos here,List.filter_cons_of_pos mine]
      cases n with
      | zero => simpa [mine] using ih packed.tail 0
      | succ n => exact ih packed.tail n
    | false =>
      rw [List.filter_cons_of_neg (p:=own) (by simp [mine])]
      cases idle : unused slot with
      | false => rw [List.filter_cons_of_neg (by simp [free_iff,mine,idle]),ih packed.tail]
      | true =>
        have nobody : ∀ s ∈ slot :: slots, own s = false := by
          intro s member
          have unused_s : unused s = true := by
            rcases List.mem_cons.mp member with rfl | later
            · exact idle
            · exact packed.all idle s later
          apply Bool.eq_false_iff.mpr
          intro own_s
          rw [own_used s own_s] at unused_s
          cases unused_s
        have none (l : List α) (within : ∀ s ∈ l, s ∈ slot :: slots) : l.filter own = [] :=
          List.filter_eq_nil_iff.mpr fun s member => by simp [nobody s (within s member)]
        rw [none _ fun s member => List.mem_of_mem_filter (List.mem_of_mem_drop member)]
        rw [none slots fun s member => List.mem_cons_of_mem _ member,List.drop_nil]

end SharedSlots
