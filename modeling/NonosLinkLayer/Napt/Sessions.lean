import NonosLinkLayer.Napt.Table
import NonosLinkLayer.Base.ExpiringScan

namespace NonosLinkLayer.Napt
open ExpiringScan

-- What the table is for: the sessions in use, the one opened last in front,
-- each with the slot it lives in, and the slots no session uses.
structure Sessions where
  active : List (Nat × Session)
  free : List Nat

namespace Sessions

def slots (a : Sessions) : List Nat := a.active.map Prod.fst

-- Look a session up. Those found expired on the way lose their slots.
def find (a : Sessions) (now : UInt32) (wanted : Session → Bool) : Sessions × Option (Nat × Session) :=
  let r := scan (fun e : Nat × Session => expired now e.2) (fun e => wanted e.2)
    (fun e => (e.1,{e.2 with last := now})) a.active
  (⟨r.kept,(r.dropped.map Prod.fst).reverse ++ a.free⟩,r.found)

def put (a : Sessions) (i : Nat) (f : Session → Session) : Sessions :=
  {a with active := a.active.map fun e => if e.1 = i then (i,f e.2) else e}

def front (a : Sessions) (i : Nat) (e : Session) : Sessions :=
  {a with active := (i,e) :: a.active.filter (·.1 ≠ i)}

def opened (a : Sessions) (i : Nat) (e : Session) (free : List Nat) : Sessions :=
  ⟨(i,e) :: a.active,free⟩

variable {a : Sessions} {now : UInt32} {wanted : Session → Bool} {i : Nat} {e : Session}

theorem find_some (found : (a.find now wanted).2 = some (i,e)) :
    (i,e) ∈ a.active ∧ expired now e = false ∧ wanted e = true ∧
    ∃ before after, (a.find now wanted).1.active = before ++ (i,{e with last := now}) :: after := by
  obtain ⟨before,after,split,live,hit,_,kept,_⟩ := scan_found (show (scan _ _ _ a.active).found = _ from found)
  exact ⟨split ▸ by simp,live,hit,_,_,kept⟩

theorem find_none (missing : (a.find now wanted).2 = none) :
    (∀ x ∈ a.active, expired now x.2 = false → wanted x.2 = false) ∧
    (a.find now wanted).1.active = a.active.filter fun x => !expired now x.2 := by
  obtain ⟨none,kept,_⟩ := scan_missing (show (scan _ _ _ a.active).found = _ from missing)
  exact ⟨none,kept⟩

end Sessions

-- What registering a session does to the table, and the port it comes back
-- with: the entry of its inside end is taken over, or a new one is made, or
-- there is no room.
inductive Added (a : Sessions) (now : UInt32) (proto : UInt8) (src : UInt32) (sport : UInt16) (dest : UInt32)
    (dport : UInt16) : Sessions → UInt16 → Prop where
  | reused (found : (a.find now (lookedUp proto src sport 0 false)).2 = some (i,e)) :
      Added a now proto src sport dest dport
        ((a.find now (lookedUp proto src sport 0 false)).1.front i {e with last := now,dest := dest,dport := dport})
        e.mport
  | opened (missing : (a.find now (lookedUp proto src sport 0 false)).2 = none)
      (room : (a.find now (lookedUp proto src sport 0 false)).1.free = i :: free)
      (unused : proto = ipProtoTcp ∨ proto = ipProtoUdp →
        ∀ e ∈ (a.find now (lookedUp proto src sport 0 false)).1.active, e.2.proto = proto → e.2.mport ≠ mport)
      (kept : proto ≠ ipProtoTcp → proto ≠ ipProtoUdp → mport = sport) :
      Added a now proto src sport dest dport
        ((a.find now (lookedUp proto src sport 0 false)).1.opened i
          ⟨now,src,dest,sport,dport,mport,proto,false,false,false,false,false,false⟩ free) mport
  | full (missing : (a.find now (lookedUp proto src sport 0 false)).2 = none)
      (room : (a.find now (lookedUp proto src sport 0 false)).1.free = []) :
      Added a now proto src sport dest dport (a.find now (lookedUp proto src sport 0 false)).1 0

end NonosLinkLayer.Napt
