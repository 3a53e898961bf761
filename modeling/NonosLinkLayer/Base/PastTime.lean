import Mathlib.Init

namespace PastTime
universe u
variable {E : Type u} {P Q : E → Prop} {log : List E} {x : E}

-- What a record, oldest first, says of the past: that something came up, and
-- that something came up and another thing after it.
def Once (P : E → Prop) (log : List E) : Prop := ∃ x ∈ log, P x
def Followed (P Q : E → Prop) (log : List E) : Prop := ∃ before after, log = before ++ after ∧ Once P before ∧ Once Q after

def Lately (anew : E → Prop) (H : List E → Prop) (log : List E) : Prop :=
  ∃ before after, log = before ++ after ∧ (∀ x ∈ after, ¬ anew x) ∧ H after

theorem once_nil : ¬ Once P ([] : List E) := by simp [Once]

theorem followed_nil : ¬ Followed P Q ([] : List E) := by
  rintro ⟨before,after,split,first,_⟩
  obtain ⟨rfl,rfl⟩ := List.append_eq_nil_iff.mp split.symm
  exact once_nil first

theorem once_snoc : Once P (log ++ [x]) ↔ Once P log ∨ P x := by
  simp [Once,or_and_right,exists_or]

theorem Once.append (once : Once P log) (before : List E) : Once P (before ++ log) := by
  obtain ⟨x,member,holds⟩ := once
  exact ⟨x,List.mem_append_right before member,holds⟩

theorem Followed.append (followed : Followed P Q log) (before : List E) : Followed P Q (before ++ log) := by
  obtain ⟨first,second,split,one,two⟩ := followed
  exact ⟨before ++ first,second,by rw [split,List.append_assoc],one.append before,two⟩

theorem followed_snoc : Followed P Q (log ++ [x]) ↔ Followed P Q log ∨ Once P log ∧ Q x := by
  constructor
  · rintro ⟨before,after,split,first,second⟩
    rcases List.eq_nil_or_concat after with rfl | ⟨rest,y,rfl⟩
    · exact absurd second once_nil
    · have ended : log ++ [x] = (before ++ rest) ++ [y] := by simpa using split
      obtain ⟨rfl,same⟩ := List.append_inj' ended rfl
      cases List.singleton_inj.mp same
      rw [List.concat_eq_append] at second
      rcases once_snoc.mp second with old | now
      · exact .inl ⟨before,rest,rfl,first,old⟩
      · obtain ⟨z,member,holds⟩ := first
        exact .inr ⟨⟨z,List.mem_append_left rest member,holds⟩,now⟩
  · rintro (⟨before,after,rfl,first,second⟩ | ⟨first,now⟩)
    · exact ⟨before,after ++ [x],List.append_assoc ..,first,once_snoc.mpr (.inl second)⟩
    · exact ⟨log,[x],rfl,first,x,List.mem_singleton_self x,now⟩

-- What the last part says the whole record says, if more past does not undo it.
theorem Lately.whole {anew : E → Prop} {H : List E → Prop} (lately : Lately anew H log)
    (grows : ∀ before after, H after → H (before ++ after)) : H log := by
  obtain ⟨before,after,rfl,_,holds⟩ := lately
  exact grows before after holds

theorem Lately.weaken {anew : E → Prop} {H K : List E → Prop} (lately : Lately anew H log) (weaker : ∀ log, H log → K log) :
    Lately anew K log := by
  obtain ⟨before,after,split,old,holds⟩ := lately
  exact ⟨before,after,split,old,weaker after holds⟩

end PastTime
