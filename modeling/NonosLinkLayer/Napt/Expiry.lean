import NonosLinkLayer.Napt.Represents

namespace NonosLinkLayer.Napt
open ExpiringScan

def Retained (before after : NaptData) (entries : List (Nat × Session)) : Prop :=
  ∀ x ∈ entries, (after.table x.1).toSession = (before.table x.1).toSession

def unexpired (now : UInt32) (entries : List (Nat × Session)) : List (Nat × Session) :=
  entries.filter fun x => !expired now x.2

def expiring (now : UInt32) (entries : List (Nat × Session)) : List Nat :=
  ((entries.filter fun x => expired now x.2).map Prod.fst).reverse

-- What looking a session up does to the tables. A session found splits the list:
-- of those ahead of it the expired ones are freed, none of the others is wanted,
-- and those behind it are not looked at.
inductive Looked (d : NaptData) (a : Sessions) (now : UInt32) (wanted : Session → Bool) : NaptData → Option Nat → Prop where
  | found (split : a.active = before ++ (i,e) :: after) (live : expired now e = false) (hit : wanted e = true)
      (first : ∀ x ∈ before, expired now x.2 = false → wanted x.2 = false)
      (rep : Represents d' ⟨unexpired now before ++ (i,{e with last := now}) :: after,expiring now before ++ a.free⟩)
      (marked : (d'.table i).toSession = {(d.table i).toSession with last := now})
      (retained : Retained d d' (unexpired now before ++ after)) (fixed : Fixed d d') : Looked d a now wanted d' (some i)
  | missing (none_ : ∀ x ∈ a.active, expired now x.2 = false → wanted x.2 = false)
      (rep : Represents d' ⟨unexpired now a.active,expiring now a.active ++ a.free⟩)
      (retained : Retained d d' (unexpired now a.active)) (fixed : Fixed d d') : Looked d a now wanted d' none

theorem Represents.retained (rep : Represents d a) (rep' : Represents d' a') (entries : List (Nat × Session))
    (old : ∀ x ∈ entries, x ∈ a.active) (new : ∀ x ∈ entries, x ∈ a'.active) : Retained d d' entries :=
  fun x member => (rep'.stored x (new x member)).trans (rep.stored x (old x member)).symm

theorem find_looked (rep : Represents d a) (now : UInt32) (proto : UInt8) (addr : UInt32) (port mport : UInt16) (dest : Bool) :
    ∃ d' result, ipNaptFind d now proto addr port mport dest = .ok (d',result) ∧
      Looked d a now (lookedUp proto addr port mport dest) d' result := by
  obtain ⟨d',ran,rep',fixed⟩ := find_refines rep now proto addr port mport dest
  refine ⟨d',_,ran,?_⟩
  unfold Sessions.find at rep' ⊢
  dsimp only at rep' ⊢
  cases outcome : (scan (fun e : Nat × Session => expired now e.2) (fun e => lookedUp proto addr port mport dest e.2)
      (fun e => (e.1,{e.2 with last := now})) a.active).found with
  | none =>
    obtain ⟨unwanted,kept,dropped⟩ := scan_missing outcome
    rw [kept,dropped] at rep'
    have retained := rep.retained rep' (unexpired now a.active) (fun x member => (List.mem_filter.mp member).1)
      (fun x member => member)
    exact .missing unwanted rep' retained fixed
  | some x =>
    obtain ⟨i,e⟩ := x
    obtain ⟨before,after,split,live,hit,first,kept,dropped⟩ := scan_found outcome
    rw [kept,dropped] at rep'
    have stored : (d.table i).toSession = e := rep.stored (i,e) (by rw [split]; simp)
    have written : (d'.table i).toSession = {e with last := now} := rep'.stored (i,{e with last := now}) (by simp)
    have retained := rep.retained rep' (unexpired now before ++ after)
      (fun x member => by
        rw [split]
        rcases List.mem_append.mp member with early | late
        · exact List.mem_append_left _ (List.mem_filter.mp early).1
        · exact List.mem_append_right _ (List.mem_cons_of_mem _ late))
      (fun x member => by
        rcases List.mem_append.mp member with early | late
        · exact List.mem_append_left _ early
        · exact List.mem_append_right _ (List.mem_cons_of_mem _ late))
    exact .found split live hit first rep' (by rw [written,stored]) retained fixed

-- Three UDP sessions, the second of which was used last.
def threeSessions : NaptData :=
  { table := fun i =>
      if i = 0 then ⟨⟨0,1,2,3,4,5,ipProtoUdp,false,false,false,false,false,false⟩,1,noIdx⟩
      else if i = 1 then ⟨⟨5000,6,2,3,4,7,ipProtoUdp,false,false,false,false,false,false⟩,2,0⟩
      else ⟨⟨0,8,2,3,4,9,ipProtoUdp,false,false,false,false,false,false⟩,noIdx,1⟩
    portmapTable := []
    nrActiveTcp := 0
    nrActiveUdp := 3
    nrActiveIcmp := 0
    list := 0
    listLast := 2
    free := noIdx
    naptMax := 3 }

def three : Sessions :=
  ⟨[(0,⟨0,1,2,3,4,5,ipProtoUdp,false,false,false,false,false,false⟩),(1,⟨5000,6,2,3,4,7,ipProtoUdp,false,false,false,false,false,false⟩),
    (2,⟨0,8,2,3,4,9,ipProtoUdp,false,false,false,false,false,false⟩)],[]⟩

theorem three_represented : Represents threeSessions three := by
  refine ⟨⟨?_,?_,?_,?_,by decide⟩,?_,?_,rfl,rfl,rfl⟩
  · simp [LinkPool.Path,links,threeSessions,three,Sessions.slots,noIdx]
  · simp [LinkPool.Back,links,threeSessions,three,Sessions.slots]
  · rfl
  · rfl
  · intro e member
    simp only [three,List.mem_cons,List.not_mem_nil,or_false] at member
    rcases member with rfl | rfl | rfl <;> rfl
  · intro i
    simp [three,threeSessions,Sessions.slots]
    omega

theorem second_looked : ∃ d' result, ipNaptFind threeSessions 5000 ipProtoUdp 6 3 0 false = .ok (d',result) ∧
    Looked threeSessions three 5000 (lookedUp ipProtoUdp 6 3 0 false) d' result :=
  find_looked three_represented 5000 ipProtoUdp 6 3 0 false

example : (ipNaptFind threeSessions 5000 ipProtoUdp 6 3 0 false).map (fun r => (r.1.list,r.1.free,r.2)) = .ok (1,0,some 1) := by
  rfl

end NonosLinkLayer.Napt
