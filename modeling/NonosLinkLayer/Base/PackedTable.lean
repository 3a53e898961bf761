import Mathlib.Data.List.Basic

namespace PackedTable
universe u
variable {ε : Type u} {used passes : ε → Bool} {clear : ε → ε} {table full spare before after : List ε} {e : ε}

-- A table of fixed size holds these entries in this order, and behind them only
-- ones that are not in use.
structure Holds (used : ε → Bool) (table full : List ε) : Prop where
  inUse : ∀ x ∈ full, used x = true
  behind : ∃ spare, table = full ++ spare ∧ ∀ x ∈ spare, used x = false

-- Look at the entries from the first one on, up to one that passes; the first
-- one not in use ends the table. A found entry is given with its place.
def scan (used passes : ε → Bool) : Nat → List ε → Option (Nat × ε)
  | _,[] => none
  | i,e :: rest =>
    if !used e then none
    else if passes e then some (i,e)
    else scan used passes (i+1) rest

-- Move what lies behind entry `m` down by one place, over it. The last entry
-- stays where it is and is cleared.
def shift (clear : ε → ε) : Nat → List ε → List ε
  | _,[] => []
  | _,[last] => [clear last]
  | 0,_ :: e :: rest => e :: shift clear 0 (e :: rest)
  | m+1,e :: next :: rest => e :: shift clear m (next :: rest)

theorem Holds.filter (holds : Holds used table full) : table.filter used = full := by
  obtain ⟨spare,split,unused⟩ := holds.behind
  rw [split,List.filter_append,List.filter_eq_self.mpr holds.inUse,
    List.filter_eq_nil_iff.mpr fun x member => by simp [unused x member],List.append_nil]

theorem Holds.mem (holds : Holds used table full) : e ∈ full ↔ e ∈ table ∧ used e = true := by
  rw [←holds.filter,List.mem_filter]

theorem Holds.length_le (holds : Holds used table full) : full.length ≤ table.length := by
  obtain ⟨spare,split,_⟩ := holds.behind
  rw [split,List.length_append]
  omega

theorem scan_some (found : scan used passes i table = some (k,e)) :
    ∃ before after, table = before ++ e :: after ∧ k = i + before.length ∧ used e = true ∧ passes e = true ∧
      ∀ x ∈ before, used x = true ∧ passes x = false := by
  induction table generalizing i with
  | nil => cases found
  | cons head rest ih =>
    unfold scan at found
    split_ifs at found with off hit
    · cases found
      exact ⟨[],rest,rfl,rfl,by simpa using off,hit,by simp⟩
    · obtain ⟨before,after,split,place,inUse,pass,others⟩ := ih found
      refine ⟨head :: before,after,by rw [split]; rfl,by simp only [List.length_cons]; omega,inUse,pass,?_⟩
      intro x member
      cases member with
      | head => exact ⟨by simpa using off,by simpa using hit⟩
      | tail _ old => exact others x old

theorem Holds.scan_find (holds : Holds used table full) :
    (scan used passes i table).map Prod.snd = full.find? passes := by
  obtain ⟨spare,split,unused⟩ := holds.behind
  have inUse := holds.inUse
  clear holds
  subst split
  induction full generalizing i with
  | nil =>
    cases spare with
    | nil => rfl
    | cons head rest => simp [scan,unused head (by simp)]
  | cons head rest ih =>
    have yes := inUse head (by simp)
    cases hit : passes head with
    | true => simp [scan,yes,hit]
    | false => simpa [scan,yes,hit] using ih fun x member => inUse x (List.mem_cons_of_mem _ member)

theorem Holds.scan_place (holds : Holds used table full) (found : scan used passes 0 table = some (k,e)) :
    ∃ before after, full = before ++ e :: after ∧ k = before.length ∧ passes e = true := by
  obtain ⟨before,after,split,place,inUse,pass,others⟩ := scan_some found
  have content := holds.filter
  rw [split,List.filter_append,List.filter_eq_self.mpr fun x member => (others x member).1,
    List.filter_cons_of_pos inUse] at content
  exact ⟨before,_,content.symm,by omega,pass⟩

theorem Holds.scan_split (holds : Holds used table full) (found : scan used passes 0 table = some (k,e)) :
    ∃ before after, full = before ++ e :: after ∧ k = before.length ∧ passes e = true ∧ ∀ x ∈ before, passes x = false := by
  obtain ⟨before,after,split,place,inUse,pass,others⟩ := scan_some found
  have content := holds.filter
  rw [split,List.filter_append,List.filter_eq_self.mpr fun x member => (others x member).1,
    List.filter_cons_of_pos inUse] at content
  exact ⟨before,_,content.symm,by omega,pass,fun x member => (others x member).2⟩

theorem Holds.scan_none (holds : Holds used table full) :
    scan used passes i table = none ↔ ∀ x ∈ full, passes x = false := by
  rw [←Option.map_eq_none_iff (f:=Prod.snd),holds.scan_find,List.find?_eq_none]
  simp only [Bool.not_eq_true]

def First (used passes : ε → Bool) (table : List ε) : Option (Nat × ε) → Prop
  | none => ∀ x ∈ table, used x = true → passes x = false
  | some (k,e) => table[k]? = some e ∧ used e = true ∧ passes e = true ∧
      ∀ j < k, ∀ x, table[j]? = some x → used x = true → passes x = false

theorem Holds.scan_first (holds : Holds used table full) : First used passes table (scan used passes 0 table) := by
  cases found : scan used passes 0 table with
  | none =>
    intro x member inUse
    exact holds.scan_none.mp found x (holds.mem.mpr ⟨member,inUse⟩)
  | some r =>
    obtain ⟨k,e⟩ := r
    obtain ⟨before,after,split,place,inUse,pass,others⟩ := scan_some found
    rw [Nat.zero_add] at place
    subst place
    refine ⟨by rw [split]; simp,inUse,pass,fun j early x here _ => ?_⟩
    rw [split,List.getElem?_append_left early] at here
    exact (others x (List.mem_of_getElem? here)).2

theorem shift_eq (clear : ε → ε) (before after : List ε) (e : ε) :
    shift clear before.length (before ++ e :: after) = before ++ after ++ [clear (after.getLast?.getD e)] := by
  induction before with
  | nil =>
    induction after generalizing e with
    | nil => rfl
    | cons head rest ih =>
      have shifted := ih head
      simp only [List.nil_append,List.length_nil] at shifted ⊢
      rw [shift,shifted,List.getLast?_cons]
      rfl
  | cons head rest shifted =>
    cases rest with
    | nil =>
      simp only [List.length_cons,List.cons_append,List.nil_append,List.length_nil] at shifted ⊢
      rw [shift,shifted]
    | cons next rest =>
      simp only [List.length_cons,List.cons_append] at shifted ⊢
      rw [shift,shifted]

theorem shift_split (clear : ε → ε) (before after : List ε) (e : ε) :
    ∃ last, shift clear before.length (before ++ e :: after) = before ++ after ++ [clear last] :=
  ⟨_,shift_eq clear before after e⟩

theorem shift_length (clear : ε → ε) (m : Nat) (table : List ε) : (shift clear m table).length = table.length := by
  fun_induction shift clear m table with
  | case1 => rfl
  | case2 => rfl
  | case3 => simpa using by assumption
  | case4 => simpa using by assumption

-- The entry the others move over is gone, and nothing else.
theorem Holds.shifted (holds : Holds used table (before ++ e :: after)) (cleared : ∀ x, used (clear x) = false) :
    Holds used (shift clear before.length table) (before ++ after) := by
  obtain ⟨spare,split,unused⟩ := holds.behind
  obtain ⟨last,moved⟩ := shift_split clear before (after ++ spare) e
  refine ⟨?_,spare ++ [clear last],?_,?_⟩
  · intro x member
    apply holds.inUse
    exact ((List.sublist_cons_self ..).append_left _).subset member
  · rw [split,List.append_assoc,List.cons_append,moved]
    simp only [List.append_assoc]
  · intro x member
    rcases List.mem_append.mp member with old | new
    · exact unused x old
    · cases List.mem_singleton.mp new
      exact cleared last

end PackedTable
