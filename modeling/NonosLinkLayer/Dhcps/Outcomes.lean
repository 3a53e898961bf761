import NonosLinkLayer.Dhcps.Pool
import NonosLinkLayer.Base.LeadingRun
import Mathlib.Data.List.Sort

namespace NonosLinkLayer.Dhcps
open LeadingRun

-- The first address from start_ip on that the pool does not hold in this order
-- before the node of the client.
def freeIp (s : Server) (bssid : Mac) : UInt32 :=
  reach nextIp DhcpsPool.ip (fun p => p.mac == bssid) s.dhcpsLease.startIp s.plist

def Unknown (s : Server) (bssid : Mac) : Prop := ∀ p ∈ s.plist, p.mac ≠ bssid

inductive Chosen (s : Server) (bssid : Mac) : Option UInt32 → UInt32 → Prop where
  | asked (unused : ∀ p ∈ s.plist, p.ip ≠ addr) : Chosen s bssid (some addr) addr
  | free : Chosen s bssid none (freeIp s bssid)

inductive Assigned (s : Server) (bssid : Mac) (ip : Option UInt32) (type : DhcpsType) :
    List DhcpsPool → UInt32 → Bool → Prop where
  | refused (why : ip = none → Unknown s bssid ∧ s.dhcpsLease.endIp < freeIp s bssid) :
      Assigned s bssid ip type s.plist ipaddrAny false
  | renewed (here : s.plist[i]? = some p) (mac : p.mac = bssid) (own : ip = some p.ip) :
      Assigned s bssid ip type (s.plist.set i ⟨p.ip,p.mac,s.dhcpsLeaseTime,.dynamic,.online⟩) p.ip true
  | takenOver (here : s.plist[i]? = some p) (mac : p.mac = bssid) (there : s.plist[j]? = some q) (own : ip = some q.ip)
      (other : j ≠ i) (offline : q.state = .offline) :
      Assigned s bssid ip type
        (nodeRemoveFromList (s.plist.set j ⟨q.ip,bssid,s.dhcpsLeaseTime,type,.online⟩) i) q.ip false
  | moved (here : s.plist[i]? = some p) (mac : p.mac = bssid) (chosen : Chosen s bssid ip addr) :
      Assigned s bssid ip type
        (nodeInsertToList ⟨addr,p.mac,s.dhcpsLeaseTime,type,.online⟩ (nodeRemoveFromList s.plist i)) addr false
  | inherited (unknown : Unknown s bssid) (there : s.plist[j]? = some q) (own : ip = some q.ip)
      (offline : q.state = .offline) :
      Assigned s bssid ip type (s.plist.set j ⟨q.ip,bssid,s.dhcpsLeaseTime,type,.online⟩) q.ip false
  | opened (unknown : Unknown s bssid) (chosen : Chosen s bssid ip addr) (fits : addr ≤ s.dhcpsLease.endIp) :
      Assigned s bssid ip type (nodeInsertToList ⟨addr,bssid,s.dhcpsLeaseTime,type,.online⟩ s.plist) addr false

def Remembers (wanted : DhcpsPool → Prop) (seen : List DhcpsPool) : Option Nat → Prop
  | none => ∀ p ∈ seen, ¬ wanted p
  | some i => ∃ p, seen[i]? = some p ∧ wanted p

section Search
variable {wanted : DhcpsPool → Prop} {seen rest : List DhcpsPool} {node : Option Nat} {p : DhcpsPool} {bssid : Mac}
  {ip : Option UInt32} {l : Search}

theorem Remembers.skip (remembers : Remembers wanted seen node) (no : ¬ wanted p) : Remembers wanted (seen ++ [p]) node := by
  cases node with
  | none =>
    intro q member
    rcases List.mem_append.mp member with old | new
    · exact remembers q old
    · cases List.mem_singleton.mp new
      exact no
  | some i =>
    obtain ⟨q,here,yes⟩ := remembers
    exact ⟨q,List.getElem?_append_left (List.getElem?_eq_some_iff.mp here).1 ▸ here,yes⟩

theorem Remembers.hit (yes : wanted p) (rest : List DhcpsPool) : Remembers wanted (seen ++ p :: rest) (some seen.length) :=
  ⟨p,by simp,yes⟩

theorem Remembers.nodeAt_none (remembers : Remembers wanted seen node) (none : nodeAt seen node = none) :
    ∀ p ∈ seen, ¬ wanted p := by
  cases node with
  | none => exact remembers
  | some i =>
    obtain ⟨q,here,_⟩ := remembers
    simp [nodeAt,here] at none

theorem Remembers.nodeAt_some (remembers : Remembers wanted seen node) (found : nodeAt seen node = some (i,p)) :
    seen[i]? = some p ∧ wanted p := by
  cases node with
  | none => simp [nodeAt] at found
  | some j =>
    obtain ⟨q,here,yes⟩ := remembers
    simp only [nodeAt,Option.bind_some,here,Option.map_some,Option.some.injEq,Prod.mk.injEq] at found
    obtain ⟨same,node⟩ := found
    subst same node
    exact ⟨here,yes⟩

@[simp] theorem turn_pmac : (l.turn bssid ip i p).pmacNode = if p.mac = bssid then some i else l.pmacNode := by
  unfold Search.turn
  cases ip <;> dsimp only <;> split_ifs <;> rfl

@[simp] theorem turn_pip : (l.turn bssid ip i p).pipNode = if ip = some p.ip then some i else l.pipNode := by
  unfold Search.turn
  cases ip with
  | none => dsimp only; split_ifs <;> first | rfl | contradiction
  | some addr => dsimp only; split_ifs <;> simp_all

theorem turn_free (other : p.mac ≠ bssid) : (l.turn bssid none i p).startIp =
    (if l.flag then l.startIp else if p.ip = l.startIp then nextIp l.startIp else l.startIp) ∧
    (l.turn bssid none i p).flag = (l.flag || p.ip != l.startIp) := by
  unfold Search.turn
  dsimp only
  split_ifs <;> simp_all

theorem updateLoop_remembers (bssid : Mac) (ip : Option UInt32) (seen rest : List DhcpsPool)
    (mac : Remembers (·.mac = bssid) seen l.pmacNode)
    (own : Remembers (fun p => ip = some p.ip) seen l.pipNode) :
    Remembers (·.mac = bssid) (seen ++ rest) (updateLoop bssid ip seen.length rest l).pmacNode ∧
    (ip ≠ none → Remembers (fun p => ip = some p.ip) (seen ++ rest) (updateLoop bssid ip seen.length rest l).pipNode) := by
  induction rest generalizing seen l with
  | nil => simpa [updateLoop] using ⟨mac,fun _ => own⟩
  | cons p rest ih =>
    unfold updateLoop
    split_ifs with last
    · exact ⟨Remembers.hit last.1 rest,fun asked => absurd last.2 asked⟩
    · have onward := @ih (l.turn bssid ip seen.length p) (seen ++ [p]) ?_ ?_
      · simpa using onward
      · rw [turn_pmac]
        split_ifs with hit
        · exact Remembers.hit hit []
        · exact mac.skip hit
      · rw [turn_pip]
        split_ifs with hit
        · exact Remembers.hit hit []
        · exact own.skip hit

theorem updateLoop_free (bssid : Mac) (rest : List DhcpsPool) (l : Search) :
    (updateLoop bssid none i rest l).startIp =
      (if l.flag then l.startIp else reach nextIp DhcpsPool.ip (fun p => p.mac == bssid) l.startIp rest) ∧
    (updateLoop bssid none i rest l).pipNode = l.pipNode := by
  induction rest generalizing i l with
  | nil => simp [updateLoop,reach]
  | cons p rest ih =>
    unfold updateLoop
    by_cases own : p.mac = bssid
    · simp [own,reach]
    · obtain ⟨start,flag⟩ := turn_free (l:=l) (i:=i) own
      obtain ⟨reached,pip⟩ := @ih (i+1) (l.turn bssid none i p)
      rw [if_neg fun both => own both.1,reached,pip,start,flag,turn_pip]
      refine ⟨?_,by simp⟩
      cases l.flag with
      | true => simp
      | false => by_cases same : p.ip = l.startIp <;> simp [reach,own,same]

-- Where nothing set the flag, no node is the client's own.
theorem updateLoop_unflagged (rest : List DhcpsPool) (l : Search)
    (unflagged : (updateLoop bssid none i rest l).flag = false) : ∀ p ∈ rest, p.mac ≠ bssid := by
  induction rest generalizing i l with
  | nil => simp
  | cons p rest ih =>
    unfold updateLoop at unflagged
    by_cases own : p.mac = bssid
    · simp [own] at unflagged
    · rw [if_neg fun both => own both.1] at unflagged
      intro q member
      cases member with
      | head => exact own
      | tail _ later => exact ih _ unflagged q later

structure Searched (s : Server) (bssid : Mac) (ip : Option UInt32) (l : Search) : Prop where
  known {i p} : nodeAt s.plist l.pmacNode = some (i,p) → s.plist[i]? = some p ∧ p.mac = bssid
  unknown : nodeAt s.plist l.pmacNode = none → Unknown s bssid
  there {i p} : nodeAt s.plist l.pipNode = some (i,p) → s.plist[i]? = some p ∧ ip = some p.ip
  chosen : nodeAt s.plist l.pipNode = none → Chosen s bssid ip (ip.getD l.startIp)
  free : ip = none → l.startIp = freeIp s bssid
  unflagged : ip = none → l.flag = false → Unknown s bssid

theorem updateLoop_searched (s : Server) (bssid : Mac) (ip : Option UInt32) :
    Searched s bssid ip (updateLoop bssid ip 0 s.plist ⟨none,none,false,s.dhcpsLease.startIp⟩) := by
  obtain ⟨mac,own⟩ := updateLoop_remembers bssid ip [] s.plist
    (l:=⟨none,none,false,s.dhcpsLease.startIp⟩) (by simp [Remembers]) (by simp [Remembers])
  simp only [List.nil_append,List.length_nil] at mac own
  have free : ip = none → (updateLoop bssid ip 0 s.plist ⟨none,none,false,s.dhcpsLease.startIp⟩).startIp = freeIp s bssid ∧
      (updateLoop bssid ip 0 s.plist ⟨none,none,false,s.dhcpsLease.startIp⟩).pipNode = none := by
    intro none
    subst none
    simpa [freeIp] using updateLoop_free (i:=0) bssid s.plist ⟨.none,.none,false,s.dhcpsLease.startIp⟩
  refine ⟨mac.nodeAt_some,mac.nodeAt_none,fun found => ?_,fun missing => ?_,fun none => (free none).1,fun none => ?_⟩
  · refine (own ?_).nodeAt_some found
    intro none
    simp [nodeAt,(free none).2] at found
  · cases ip with
    | none =>
      rw [Option.getD_none,(free rfl).1]
      exact .free
    | some addr =>
      refine .asked fun p member same => ?_
      exact (own (by simp)).nodeAt_none missing p member (by rw [same])
  · subst none
    exact updateLoop_unflagged s.plist _

end Search

theorem assignIp_outcome (s : Server) (bssid : Mac) (ip : Option UInt32) (type : DhcpsType) :
    ∃ plist addr renew, assignIp s bssid ip type = ({s with plist := plist,renew := renew},addr) ∧
      Assigned s bssid ip type plist addr renew := by
  have searched := updateLoop_searched s bssid ip
  unfold assignIp
  dsimp only
  generalize updateLoop bssid ip 0 s.plist ⟨none,none,false,s.dhcpsLease.startIp⟩ = l at searched ⊢
  by_cases out : ip = none ∧ l.flag = false ∧ l.startIp > s.dhcpsLease.endIp
  · rw [if_pos out]
    refine ⟨s.plist,ipaddrAny,false,rfl,.refused fun none => ?_⟩
    rw [←searched.free none]
    exact ⟨searched.unflagged none out.2.1,out.2.2⟩
  · rw [if_neg out]
    cases known : nodeAt s.plist l.pmacNode with
    | some x =>
      obtain ⟨i,p⟩ := x
      obtain ⟨here,isMac⟩ := searched.known known
      cases held : nodeAt s.plist l.pipNode with
      | some y =>
        obtain ⟨j,q⟩ := y
        obtain ⟨at_,isIp⟩ := searched.there held
        dsimp only
        split_ifs with other busy
        · exact ⟨_,_,_,rfl,.refused fun none => by rw [none] at isIp; cases isIp⟩
        · exact ⟨_,_,_,rfl,.takenOver here isMac at_ isIp other (not_not.mp busy)⟩
        · have same : j = i := not_not.mp other
          subst same
          rw [here] at at_
          cases at_
          exact ⟨_,_,_,rfl,.renewed here isMac isIp⟩
      | none => exact ⟨_,_,_,rfl,.moved here isMac (searched.chosen held)⟩
    | none =>
      have unknown : Unknown s bssid := searched.unknown known
      cases held : nodeAt s.plist l.pipNode with
      | some y =>
        obtain ⟨j,q⟩ := y
        obtain ⟨at_,isIp⟩ := searched.there held
        dsimp only
        split_ifs with busy
        · exact ⟨_,_,_,rfl,.refused fun none => by rw [none] at isIp; cases isIp⟩
        · exact ⟨_,_,_,rfl,.inherited unknown at_ isIp (not_not.mp busy)⟩
      | none =>
        dsimp only
        split_ifs with beyond
        · refine ⟨_,_,_,rfl,.refused fun none => ⟨unknown,?_⟩⟩
          rw [none,Option.getD_none,searched.free none] at beyond
          exact beyond
        · exact ⟨_,_,_,rfl,.opened unknown (searched.chosen held) (UInt32.not_lt.mp beyond)⟩

end NonosLinkLayer.Dhcps
