import NonosLinkLayer.Napt.Data
import NonosLinkLayer.Base.PackedTable

namespace NonosLinkLayer.Napt
open ByteMemory PackedTable

-- The loop of ip_portmap_add over the table from its first entry on. An entry
-- that holds the key already is updated and the loop goes on behind it.
def portmapAddLoop (proto : UInt8) (maddr : UInt32) (mport : UInt16) (daddr : UInt32) (dport : UInt16) :
    List PortmapTable → List PortmapTable × UInt8
  | [] => ([],0)
  | p :: rest =>
    if p.valid && p.proto == proto && p.mport == mport then
      let (rest,result) := portmapAddLoop proto maddr mport daddr dport rest
      ({p with dport := dport,daddr := daddr} :: rest,result)
    else if !p.valid then
      ({maddr := maddr,daddr := daddr,mport := mport,dport := dport,proto := proto,valid := true} :: rest,1)
    else
      let (rest,result) := portmapAddLoop proto maddr mport daddr dport rest
      (p :: rest,result)

def ipPortmapAdd (d : NaptData) (proto : UInt8) (maddr : UInt32) (mport : UInt16) (daddr : UInt32)
    (dport : UInt16) : NaptData × UInt8 :=
  let (table,result) := portmapAddLoop proto maddr (swap16 mport) daddr (swap16 dport) d.portmapTable
  ({d with portmapTable := table},result)

-- Both lookups stop at the first entry not valid. What they find comes with its
-- place in the table.
def ipPortmapFind (d : NaptData) (proto : UInt8) (mport : UInt16) : Option (Nat × PortmapTable) :=
  scan (·.valid) (fun p => p.proto == proto && p.mport == mport) 0 d.portmapTable

def ipPortmapFindDest (d : NaptData) (proto : UInt8) (dport : UInt16) (daddr : UInt32) :
    Option (Nat × PortmapTable) :=
  scan (·.valid) (fun p => p.proto == proto && p.dport == dport && p.daddr == daddr) 0 d.portmapTable

-- The loop of ip_portmap_remove copies every entry behind `m` to the place
-- before it, up to the last one of the table, which is then marked not valid.
def ipPortmapRemove (d : NaptData) (proto : UInt8) (mport : UInt16) : NaptData × UInt8 :=
  match ipPortmapFind d proto (swap16 mport) with
  | none => (d,0)
  | some (m,_) => ({d with portmapTable := shift (fun last => {last with valid := false}) m d.portmapTable},1)

theorem portmapFind_some (found : ipPortmapFind d proto mport = some (k,m)) :
    m ∈ d.portmapTable ∧ m.valid = true ∧ m.proto = proto ∧ m.mport = mport := by
  obtain ⟨before,after,split,_,valid,passes,_⟩ := scan_some found
  simp only [Bool.and_eq_true,beq_iff_eq] at passes
  exact ⟨by rw [split]; simp,valid,passes.1,passes.2⟩

theorem portmapFindDest_some (found : ipPortmapFindDest d proto dport daddr = some (k,m)) :
    m ∈ d.portmapTable ∧ m.valid = true ∧ m.proto = proto ∧ m.dport = dport ∧ m.daddr = daddr := by
  obtain ⟨before,after,split,_,valid,passes,_⟩ := scan_some found
  simp only [Bool.and_eq_true,beq_iff_eq] at passes
  exact ⟨by rw [split]; simp,valid,passes.1.1,passes.1.2,passes.2⟩

theorem portmapFind_none (none : ∀ m ∈ d.portmapTable, m.valid = true → ¬ (m.proto = proto ∧ m.mport = mport)) :
    ipPortmapFind d proto mport = .none := by
  cases found : ipPortmapFind d proto mport with
  | none => rfl
  | some x =>
    obtain ⟨member,valid,key⟩ := portmapFind_some (k:=x.1) (m:=x.2) found
    exact absurd key (none x.2 member valid)

theorem portmapFindDest_none (none : ∀ m ∈ d.portmapTable, m.valid = true →
    ¬ (m.proto = proto ∧ m.dport = dport ∧ m.daddr = daddr)) : ipPortmapFindDest d proto dport daddr = .none := by
  cases found : ipPortmapFindDest d proto dport daddr with
  | none => rfl
  | some x =>
    obtain ⟨member,valid,target⟩ := portmapFindDest_some (k:=x.1) (m:=x.2) found
    exact absurd target (none x.2 member valid)

def Mapped (d : NaptData) (full : List PortmapTable) : Prop := Holds (·.valid) d.portmapTable full

def PortmapTable.renewed (proto : UInt8) (mport : UInt16) (daddr : UInt32) (dport : UInt16) (p : PortmapTable) :
    PortmapTable :=
  if p.proto == proto && p.mport == mport then {p with dport := dport,daddr := daddr} else p

section Mapped
variable {d : NaptData} {full : List PortmapTable} {proto : UInt8} {maddr daddr : UInt32} {mport dport : UInt16}

@[simp] theorem renewed_valid (p : PortmapTable) : (p.renewed proto mport daddr dport).valid = p.valid := by
  unfold PortmapTable.renewed
  split_ifs <;> rfl

theorem portmapAddLoop_append (inUse : ∀ x ∈ full, x.valid = true) (spare : List PortmapTable) :
    portmapAddLoop proto maddr mport daddr dport (full ++ spare) =
      (full.map (·.renewed proto mport daddr dport) ++ (portmapAddLoop proto maddr mport daddr dport spare).1,
        (portmapAddLoop proto maddr mport daddr dport spare).2) := by
  induction full with
  | nil => rfl
  | cons head rest ih =>
    have valid := inUse head (by simp)
    have onward := ih fun x member => inUse x (List.mem_cons_of_mem _ member)
    by_cases same : (head.proto == proto && head.mport == mport) = true
    · simp only [List.cons_append,portmapAddLoop,valid,Bool.true_and,same,if_true,onward,List.map_cons,
        PortmapTable.renewed]
    · simp only [List.cons_append,portmapAddLoop,valid,Bool.true_and,same,onward,List.map_cons,
        PortmapTable.renewed]
      rfl

theorem portmapAddLoop_length (table : List PortmapTable) :
    (portmapAddLoop proto maddr mport daddr dport table).1.length = table.length := by
  induction table with
  | nil => rfl
  | cons head rest ih =>
    unfold portmapAddLoop
    split_ifs
    · simp only [List.length_cons,ih]
    · rfl
    · simp only [List.length_cons,ih]

theorem portmapAdd_length (d : NaptData) :
    (ipPortmapAdd d proto maddr mport daddr dport).1.portmapTable.length = d.portmapTable.length :=
  portmapAddLoop_length d.portmapTable

theorem portmapRemove_length (d : NaptData) :
    (ipPortmapRemove d proto mport).1.portmapTable.length = d.portmapTable.length := by
  unfold ipPortmapRemove
  split
  · rfl
  · exact shift_length ..

-- Every mapping of the key gets the new target, and the new mapping goes behind
-- them all the same when there is room.
theorem Mapped.add (mapped : Mapped d full) (proto : UInt8) (maddr : UInt32) (mport : UInt16) (daddr : UInt32)
    (dport : UInt16) :
    if full.length < d.portmapTable.length then
      (ipPortmapAdd d proto maddr mport daddr dport).2 = 1 ∧
        Mapped (ipPortmapAdd d proto maddr mport daddr dport).1
          (full.map (·.renewed proto (swap16 mport) daddr (swap16 dport)) ++
            [⟨maddr,daddr,swap16 mport,swap16 dport,proto,true⟩])
    else
      (ipPortmapAdd d proto maddr mport daddr dport).2 = 0 ∧
        Mapped (ipPortmapAdd d proto maddr mport daddr dport).1
          (full.map (·.renewed proto (swap16 mport) daddr (swap16 dport))) := by
  obtain ⟨spare,split,unused⟩ := mapped.behind
  have renewed : ∀ x ∈ full.map (·.renewed proto (swap16 mport) daddr (swap16 dport)), x.valid = true := by
    intro x member
    obtain ⟨y,inside,same⟩ := List.mem_map.mp member
    rw [←same,renewed_valid]
    exact mapped.inUse y inside
  unfold ipPortmapAdd
  rw [split,portmapAddLoop_append mapped.inUse]
  cases spare with
  | nil =>
    simp only [List.append_nil,portmapAddLoop,Nat.lt_irrefl,if_false]
    exact ⟨trivial,renewed,[],by simp,by simp⟩
  | cons head rest =>
    have off := unused head (by simp)
    simp only [List.length_append,List.length_cons,portmapAddLoop,off,Bool.false_and,Bool.not_false,if_true,
      Bool.false_eq_true,if_false]
    rw [if_pos (by omega)]
    refine ⟨trivial,?_,rest,by simp,fun x member => unused x (List.mem_cons_of_mem _ member)⟩
    intro x member
    rcases List.mem_append.mp member with old | new
    · exact renewed x old
    · cases List.mem_singleton.mp new
      rfl

theorem Mapped.remove (mapped : Mapped d full) (proto : UInt8) (mport : UInt16) :
    ipPortmapRemove d proto mport = (d,0) ∧ (∀ x ∈ full, ¬ (x.proto = proto ∧ x.mport = swap16 mport)) ∨
    ∃ before m after, full = before ++ m :: after ∧ m.proto = proto ∧ m.mport = swap16 mport ∧
      (ipPortmapRemove d proto mport).2 = 1 ∧ Mapped (ipPortmapRemove d proto mport).1 (before ++ after) := by
  unfold ipPortmapRemove
  cases found : ipPortmapFind d proto (swap16 mport) with
  | none =>
    refine .inl ⟨rfl,fun x member key => ?_⟩
    have missed := (Holds.scan_none mapped).mp found x member
    simp [key.1,key.2] at missed
  | some r =>
    obtain ⟨k,m⟩ := r
    obtain ⟨before,after,split,place,passes⟩ := Holds.scan_place mapped found
    obtain ⟨_,_,isProto,isPort⟩ := portmapFind_some found
    unfold Mapped at mapped
    rw [split] at mapped
    refine .inr ⟨before,m,after,split,isProto,isPort,rfl,?_⟩
    simp only [place]
    exact mapped.shifted fun _ => rfl

theorem Mapped.find (mapped : Mapped d full) (proto : UInt8) (mport : UInt16) :
    (ipPortmapFind d proto mport).map Prod.snd = full.find? fun p => p.proto == proto && p.mport == mport :=
  mapped.scan_find

end Mapped

theorem empty_mapped (natMax : UInt16) (portmapMax : UInt8) : Mapped (emptyTables natMax portmapMax) [] :=
  ⟨by simp,_,rfl,fun _ member => by rw [(List.mem_replicate.mp member).2]; rfl⟩

end NonosLinkLayer.Napt
