import Mathlib.Data.List.Basic

namespace ExpiringScan
universe u
variable {ε : Type u}

-- One pass over a list that drops every dead entry it meets and stops at the
-- first live one that is wanted, which it marks as used.
structure Outcome (ε : Type u) where
  kept : List ε
  dropped : List ε
  found : Option ε

def scan (dead wanted : ε → Bool) (touch : ε → ε) : List ε → Outcome ε
  | [] => ⟨[],[],none⟩
  | e :: rest =>
    if dead e then
      let later := scan dead wanted touch rest
      {later with dropped := e :: later.dropped}
    else if wanted e then ⟨touch e :: rest,[],some e⟩
    else
      let later := scan dead wanted touch rest
      {later with kept := e :: later.kept}

variable {dead wanted : ε → Bool} {touch : ε → ε} {entries : List ε} {e x : ε}

theorem scan_missing (missing : (scan dead wanted touch entries).found = none) :
    (∀ x ∈ entries, dead x = false → wanted x = false) ∧
    (scan dead wanted touch entries).kept = entries.filter (!dead ·) ∧
    (scan dead wanted touch entries).dropped = entries.filter dead := by
  induction entries with
  | nil => simp [scan]
  | cons head rest ih =>
    unfold scan at missing ⊢
    by_cases gone : dead head = true
    · simp only [gone,if_true] at missing ⊢
      obtain ⟨none,kept,dropped⟩ := ih missing
      simp_all
    · by_cases hit : wanted head = true
      · simp [gone,hit] at missing
      · simp only [gone,hit] at missing ⊢
        obtain ⟨none,kept,dropped⟩ := ih missing
        simp_all

-- Found: the entry splits the list. Before it nothing live was wanted and the
-- dead are gone; behind it nothing was looked at.
theorem scan_found (found : (scan dead wanted touch entries).found = some e) :
    ∃ before after, entries = before ++ e :: after ∧ dead e = false ∧ wanted e = true ∧
      (∀ x ∈ before, dead x = false → wanted x = false) ∧
      (scan dead wanted touch entries).kept = before.filter (!dead ·) ++ touch e :: after ∧
      (scan dead wanted touch entries).dropped = before.filter dead := by
  induction entries with
  | nil => simp [scan] at found
  | cons head rest ih =>
    unfold scan at found ⊢
    by_cases gone : dead head = true
    · simp only [gone,if_true] at found ⊢
      obtain ⟨before,after,rfl,live,hit,none,kept,dropped⟩ := ih found
      refine ⟨head :: before,after,rfl,live,hit,?_,?_,?_⟩ <;> simp_all
    · by_cases hit : wanted head = true
      · simp only [gone,hit,if_true] at found ⊢
        cases Option.some.inj found
        exact ⟨[],rest,rfl,by simpa using gone,hit,by simp,by simp,by simp⟩
      · simp only [gone,hit] at found ⊢
        obtain ⟨before,after,rfl,live,hit,none,kept,dropped⟩ := ih found
        refine ⟨head :: before,after,rfl,live,hit,?_,?_,?_⟩ <;> simp_all

theorem scan_skip (rest : List ε) (none : ∀ x ∈ before, dead x = false → wanted x = false) :
    (scan dead wanted touch (before ++ rest)).found = (scan dead wanted touch rest).found ∧
      (scan dead wanted touch (before ++ rest)).kept = before.filter (!dead ·) ++ (scan dead wanted touch rest).kept := by
  induction before with
  | nil => exact ⟨rfl,rfl⟩
  | cons head before ih =>
    obtain ⟨found,kept⟩ := ih fun x member => none x (List.mem_cons_of_mem _ member)
    rw [List.cons_append,scan]
    by_cases gone : dead head = true
    · simp [gone,found,kept]
    · have unwanted := none head (by simp) (by simpa using gone)
      simp [gone,unwanted,found,kept]

theorem scan_first (live : dead e = false) (hit : wanted e = true)
    (none : ∀ x ∈ before, dead x = false → wanted x = false) :
    (scan dead wanted touch (before ++ e :: after)).found = some e := by
  rw [(scan_skip (e :: after) none).1]
  simp [scan,live,hit]

theorem scan_drops (gone : dead x = true) (none : ∀ e ∈ before, dead e = false → wanted e = false) :
    (scan dead wanted touch (before ++ x :: after)).kept =
      before.filter (!dead ·) ++ (scan dead wanted touch after).kept := by
  rw [(scan_skip (x :: after) none).2]
  simp [scan,gone]

theorem scan_origin (member : x ∈ (scan dead wanted touch entries).kept) :
    x ∈ entries ∨ ∃ e ∈ entries, (scan dead wanted touch entries).found = some e ∧ x = touch e := by
  cases found : (scan dead wanted touch entries).found with
  | none =>
    rw [(scan_missing found).2.1] at member
    exact .inl (List.mem_filter.mp member).1
  | some e =>
    obtain ⟨before,after,split,_,_,_,kept,_⟩ := scan_found found
    rw [kept] at member
    rcases List.mem_append.mp member with old | later
    · exact .inl (split ▸ List.mem_append_left _ (List.mem_filter.mp old).1)
    · rcases List.mem_cons.mp later with rfl | old
      · exact .inr ⟨e,split ▸ by simp,rfl,rfl⟩
      · exact .inl (split ▸ by simp [old])

theorem scan_sublist (key : ε → κ) (unmarked : ∀ x, key (touch x) = key x) (entries : List ε) :
    ((scan dead wanted touch entries).kept.map key).Sublist (entries.map key) := by
  cases found : (scan dead wanted touch entries).found with
  | none =>
    rw [(scan_missing found).2.1]
    exact List.filter_sublist.map key
  | some e =>
    obtain ⟨before,after,split,_,_,_,kept,_⟩ := scan_found found
    rw [kept,split]
    simp only [List.map_append,List.map_cons,unmarked]
    exact (List.filter_sublist.map key).append (List.Sublist.refl _)

theorem scan_live (member : x ∈ entries) (live : dead x = false) :
    x ∈ (scan dead wanted touch entries).kept ∨
      (scan dead wanted touch entries).found = some x ∧ touch x ∈ (scan dead wanted touch entries).kept := by
  cases found : (scan dead wanted touch entries).found with
  | none =>
    rw [(scan_missing found).2.1]
    exact .inl (List.mem_filter.mpr ⟨member,by simp [live]⟩)
  | some e =>
    obtain ⟨before,after,split,_,_,_,kept,_⟩ := scan_found found
    rw [kept]
    rcases List.mem_append.mp (split ▸ member) with old | later
    · exact .inl (List.mem_append_left _ (List.mem_filter.mpr ⟨old,by simp [live]⟩))
    · rcases List.mem_cons.mp later with rfl | old
      · exact .inr ⟨rfl,by simp⟩
      · exact .inl (by simp [old])

end ExpiringScan
