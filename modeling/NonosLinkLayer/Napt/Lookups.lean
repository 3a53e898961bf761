import NonosLinkLayer.Napt.Mappings

namespace NonosLinkLayer.Napt
open ByteMemory PackedTable

def validEntries (d : NaptData) : List PortmapTable := d.portmapTable.filter (·.valid)

def Removes (d : NaptData) (found : Option (Nat × PortmapTable)) (left : NaptData × UInt8) : Prop :=
  match found with
  | none => left = (d,0)
  | some (k,_) => left.2 = 1 ∧ validEntries left.1 = (validEntries d).eraseIdx k

-- The valid entries stand in front; so both searches, which stop at the first one
-- not valid, miss none, a removal takes out the one that is found and no other, and a
-- registration leaves alone what is registered for other ports.
structure Complete (d : NaptData) : Prop where
  contiguous : ∃ spare, d.portmapTable = validEntries d ++ spare ∧ ∀ p ∈ spare, p.valid = false
  find : ∀ proto mport, First (·.valid) (fun p => p.proto == proto && p.mport == mport) d.portmapTable (ipPortmapFind d proto mport)
  findDest : ∀ proto dport daddr, First (·.valid) (fun p => p.proto == proto && p.dport == dport && p.daddr == daddr) d.portmapTable
    (ipPortmapFindDest d proto dport daddr)
  remove : ∀ proto mport, Removes d (ipPortmapFind d proto (swap16 mport)) (ipPortmapRemove d proto mport)
  add : ∀ proto maddr mport daddr dport (k : Nat) (p : PortmapTable), d.portmapTable[k]? = some p → p.valid = true →
    ¬ (p.proto = proto ∧ p.mport = swap16 mport) → (ipPortmapAdd d proto maddr mport daddr dport).1.portmapTable[k]? = some p

section Mapped
variable {d : NaptData} {full : List PortmapTable} {proto : UInt8} {maddr daddr : UInt32} {mport dport : UInt16}

theorem Mapped.valid (mapped : Mapped d full) : validEntries d = full := mapped.filter

theorem Mapped.removes (mapped : Mapped d full) (proto : UInt8) (mport : UInt16) :
    Removes d (ipPortmapFind d proto (swap16 mport)) (ipPortmapRemove d proto mport) := by
  unfold ipPortmapRemove
  cases found : ipPortmapFind d proto (swap16 mport) with
  | none => exact rfl
  | some r =>
    obtain ⟨k,m⟩ := r
    obtain ⟨before,after,split,rfl,_⟩ := Holds.scan_place mapped found
    refine ⟨rfl,?_⟩
    have old := mapped.valid
    unfold Mapped at mapped
    rw [split] at mapped old
    have new : Mapped {d with portmapTable := shift (fun last => {last with valid := false}) before.length d.portmapTable}
        (before ++ after) := mapped.shifted fun _ => rfl
    rw [new.valid,old,List.eraseIdx_append_of_length_le (Nat.le_refl _),Nat.sub_self,List.eraseIdx_cons_zero]

-- The loop writes over an entry only if it holds the key or is not valid.
theorem addLoop_keeps {table : List PortmapTable} {k : Nat} {p : PortmapTable} (here : table[k]? = some p) (valid : p.valid = true)
    (other : ¬ (p.proto = proto ∧ p.mport = mport)) : (portmapAddLoop proto maddr mport daddr dport table).1[k]? = some p := by
  induction table generalizing k with
  | nil => cases here
  | cons head rest ih =>
    unfold portmapAddLoop
    cases k with
    | zero =>
      cases Option.some.inj here
      have foreign : (p.valid && p.proto == proto && p.mport == mport) = false := by
        simpa [valid] using other
      have kept : ¬ (!p.valid) = true := by simp [valid]
      rw [if_neg (by rw [foreign]; decide),if_neg kept]
      rfl
    | succ k =>
      have onward := ih here
      split_ifs
      · exact onward
      · exact here
      · exact onward

theorem Mapped.complete (mapped : Mapped d full) : Complete d where
  contiguous := by
    rw [mapped.valid]
    exact mapped.behind
  find _ _ := Holds.scan_first mapped
  findDest _ _ _ := Holds.scan_first mapped
  remove := mapped.removes
  add _ _ _ _ _ _ _ here valid other := addLoop_keeps here valid other

theorem Mapped.run (mapped : Mapped d full) (call : Call) : ∃ full', Mapped (call.run d).1 full' := by
  cases call with
  | add key target =>
    have added := mapped.add key.proto target.maddr key.mport target.daddr target.dport
    split_ifs at added
    · exact ⟨_,added.2⟩
    · exact ⟨_,added.2⟩
  | remove key =>
    unfold Call.run
    dsimp only
    rcases mapped.remove key.proto key.mport with ⟨ran,_⟩ | ⟨before,p,after,_,_,_,_,mapped'⟩
    · rw [ran]
      exact ⟨full,mapped⟩
    · exact ⟨_,mapped'⟩

theorem Mapped.runs (mapped : Mapped d full) (calls : List Call) : ∃ full', Mapped (afterAll d calls) full' := by
  induction calls generalizing d full with
  | nil => exact ⟨full,mapped⟩
  | cons call rest ih =>
    obtain ⟨full',mapped'⟩ := mapped.run call
    exact ih mapped'

end Mapped

-- Whatever was registered and removed since ip_napt_init.
theorem lookups_complete (natMax : UInt16) (portmapMax : UInt8) (calls : List Call) :
    Complete (afterAll (emptyTables natMax portmapMax) calls) := by
  obtain ⟨full,mapped⟩ := (empty_mapped natMax portmapMax).runs calls
  exact mapped.complete

end NonosLinkLayer.Napt
