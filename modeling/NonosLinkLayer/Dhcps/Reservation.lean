import NonosLinkLayer.Dhcps.Updates
import NonosLinkLayer.Dhcps.Validation

namespace NonosLinkLayer.Dhcps
open ByteMemory

-- A range of addresses that share their first three bytes.
structure Segment (lease : DhcpsLease) : Prop where
  ordered : ntohl lease.startIp ≤ ntohl lease.endIp
  same : ntohl lease.startIp >>> 8 = ntohl lease.endIp >>> 8

def Offered (lease : DhcpsLease) (addr : UInt32) : Prop :=
  ntohl lease.startIp ≤ ntohl addr ∧ ntohl addr ≤ ntohl lease.endIp

def Held (s : Server) (addr : UInt32) : Prop := ∃ p ∈ s.plist, p.ip = addr

-- A reservation is refused exactly to a client that has an entry, and when all
-- addresses are held. Else the client gets an entry with an address that was not.
structure Reserves (s : Server) (macaddr : Mac) : Prop where
  refused : (wifiSoftapAddDhcpsLease s macaddr).2 = false ↔
    (∃ p ∈ s.plist, p.mac = macaddr) ∨ ∀ addr, Offered s.dhcpsLease addr → Held s addr
  granted : (wifiSoftapAddDhcpsLease s macaddr).2 = true →
    ∃ p front back, p.mac = macaddr ∧ Offered s.dhcpsLease p.ip ∧ ¬Held s p.ip ∧
      s.plist = front ++ back ∧ (wifiSoftapAddDhcpsLease s macaddr).1 = {s with plist := front ++ p :: back}

def dueIp (s : Server) : UInt32 := nextIp^[s.plist.length] s.dhcpsLease.startIp

section Reservation
variable {s : Server} {macaddr : Mac} {lease : DhcpsLease} {addr : UInt32} {p q : DhcpsPool} {l : List DhcpsPool}

theorem Offered.raw (segment : Segment lease) (offered : Offered lease addr) : addr ≤ lease.endIp := by
  obtain ⟨a,b,c,d,ha,hb,hc,hd,first⟩ := exists_word (ntohl addr)
  obtain ⟨a',b',c',d',ha',hb',hc',hd',last⟩ := exists_word (ntohl lease.endIp)
  have low := UInt32.le_iff_toNat_le.mp offered.1
  have high := UInt32.le_iff_toNat_le.mp offered.2
  have same := congrArg UInt32.toNat segment.same
  rw [shiftRight_eight,shiftRight_eight] at same
  have swapped := swap32_word ha hb hc hd first
  have swapped' := swap32_word ha' hb' hc' hd' last
  unfold ntohl at swapped swapped'
  rw [swap32_swap32] at swapped swapped'
  apply UInt32.le_iff_toNat_le.mpr
  rw [swapped,swapped']
  rw [first] at low high
  rw [last] at high same
  clear swapped swapped' first last
  have together : word a b c d / 256 = word a' b' c' d' / 256 := by omega
  have leading : (a * 256 + b) * 256 + c = (a' * 256 + b') * 256 + c' := by
    unfold word at together
    omega
  have three : a = a' ∧ b = b' ∧ c = c' := by omega
  obtain ⟨rfl,rfl,rfl⟩ := three
  have most : d ≤ d' := by
    unfold word at high
    omega
  have weighted : d * 256 ≤ d' * 256 := Nat.mul_le_mul_right _ most
  have further := Nat.mul_le_mul_right 256 (Nat.add_le_add_right weighted c)
  exact Nat.add_le_add_right (Nat.mul_le_mul_right 256 (Nat.add_le_add_right further b)) a

theorem insert_split (node : DhcpsPool) (l : List DhcpsPool) :
    ∃ front back, l = front ++ back ∧ nodeInsertToList node l = front ++ node :: back := by
  induction l with
  | nil => exact ⟨[],[],rfl,rfl⟩
  | cons p rest ih =>
    unfold nodeInsertToList
    split_ifs with before
    · exact ⟨[],p :: rest,rfl,rfl⟩
    · obtain ⟨front,back,split,inserted⟩ := ih
      exact ⟨p :: front,back,by rw [split,List.cons_append],by rw [inserted,List.cons_append]⟩

theorem insert_inj {front back : List DhcpsPool} (node : DhcpsPool) (split : l = front ++ back)
    (same : nodeInsertToList node l = front ++ p :: back) : node = p := by
  have perm : (node :: l).Perm (p :: l) := by
    refine (insert_perm node l).symm.trans ?_
    rw [same,split]
    exact List.perm_middle
  have alone : ([node] ++ l).Perm ([p] ++ l) := perm
  exact List.singleton_perm_singleton.mp ((List.perm_append_right_iff l).mp alone)

theorem add_cases (s : Server) (macaddr : Mac) :
    (∃ p ∈ s.plist, p.mac = macaddr) ∧ wifiSoftapAddDhcpsLease s macaddr = (s,false) ∨
    Unknown s macaddr ∧ s.dhcpsLease.endIp < dueIp s ∧ wifiSoftapAddDhcpsLease s macaddr = (s,false) ∨
    Unknown s macaddr ∧ dueIp s ≤ s.dhcpsLease.endIp ∧ wifiSoftapAddDhcpsLease s macaddr =
      ({s with plist := nodeInsertToList ⟨dueIp s,macaddr,s.dhcpsLeaseTime,.static,.online⟩ s.plist},true) := by
  unfold wifiSoftapAddDhcpsLease
  rcases addLoop_counts macaddr s.plist s.dhcpsLease.startIp with ⟨unknown,counted⟩ | ⟨known,none_⟩
  · rw [counted]
    right
    dsimp only
    split_ifs with beyond
    · exact .inl ⟨unknown,beyond,rfl⟩
    · exact .inr ⟨unknown,UInt32.not_lt.mp beyond,rfl⟩
  · rw [none_]
    refine .inl ⟨?_,rfl⟩
    by_contra nobody
    exact known fun p member mine => nobody ⟨p,member,mine⟩

-- Only the address that is due is looked at, so that it has to be the right one.
theorem add_reserves (s : Server) (macaddr : Mac) (segment : Segment s.dhcpsLease) : Reserves s macaddr ↔
    (∃ p ∈ s.plist, p.mac = macaddr) ∨ Offered s.dhcpsLease (dueIp s) ∧ ¬Held s (dueIp s) ∨
    s.dhcpsLease.endIp < dueIp s ∧ ∀ addr, Offered s.dhcpsLease addr → Held s addr := by
  rcases add_cases s macaddr with ⟨known,ran⟩ | ⟨unknown,beyond,ran⟩ | ⟨unknown,fits,ran⟩
  · refine iff_of_true ⟨?_,?_⟩ (.inl known)
    · rw [ran]
      exact iff_of_true rfl (.inl known)
    · rw [ran]
      exact fun granted => absurd granted Bool.false_ne_true
  · have nobody : ¬∃ p ∈ s.plist, p.mac = macaddr := fun ⟨p,member,mine⟩ => unknown p member mine
    have outside : ¬Offered s.dhcpsLease (dueIp s) := fun offered => absurd beyond (UInt32.not_lt.mpr (offered.raw segment))
    rw [or_iff_right nobody,or_iff_right fun both => outside both.1,and_iff_right beyond]
    constructor
    · intro reserves
      have refused := reserves.refused
      rw [ran] at refused
      exact (refused.mp rfl).resolve_left nobody
    · intro all
      constructor
      · rw [ran]
        exact iff_of_true rfl (.inr all)
      · rw [ran]
        exact fun granted => absurd granted Bool.false_ne_true
  · have nobody : ¬∃ p ∈ s.plist, p.mac = macaddr := fun ⟨p,member,mine⟩ => unknown p member mine
    rw [or_iff_right nobody,or_iff_left fun both => absurd both.1 (UInt32.not_lt.mpr fits)]
    constructor
    · intro reserves
      have granted := reserves.granted
      rw [ran] at granted
      obtain ⟨p,front,back,mine,offered,unheld,split,inserted⟩ := granted rfl
      have same := insert_inj _ split (congrArg Server.plist inserted)
      rw [←same] at offered unheld
      exact ⟨offered,unheld⟩
    · rintro ⟨offered,unheld⟩
      constructor
      · rw [ran]
        refine iff_of_false Bool.noConfusion ?_
        rintro (known | all)
        · exact nobody known
        · exact unheld (all _ offered)
      · rw [ran]
        intro _
        let node : DhcpsPool := ⟨dueIp s,macaddr,s.dhcpsLeaseTime,.static,.online⟩
        obtain ⟨front,back,split,inserted⟩ := insert_split node s.plist
        exact ⟨node,front,back,rfl,offered,unheld,split,congrArg (fun plist => {s with plist := plist}) inserted⟩

def bothLeased : Server := (wifiSoftapDhcpsClientUpdate (wifiSoftapDhcpsClientUpdate accessPoint phone none).1 laptop none).1

theorem bothLeased_reached : Reached bothLeased := ((started_reached _ _ _).update _ _).update _ _

theorem bothLeased_ips : bothLeased.plist.map DhcpsPool.ip = [0x0204a8c0,0x0304a8c0] := by decide

theorem third_reserves : Reached bothLeased ∧ Reserves bothLeased camera := by
  have unheld : ¬Held bothLeased (dueIp bothLeased) := by
    rintro ⟨p,member,held⟩
    have listed := List.mem_map_of_mem (f:=DhcpsPool.ip) member
    rw [bothLeased_ips,held] at listed
    exact absurd listed (by decide)
  refine ⟨bothLeased_reached,?_⟩
  exact (add_reserves bothLeased camera (by constructor <;> decide)).mpr (.inr (.inl ⟨by constructor <;> decide,unheld⟩))

-- The phone has left, so that the address due to the camera is the laptop's.
def phoneLeft : Server := ⟨accessPoint.dhcpsLease,[⟨0x0304a8c0,laptop,120,.dynamic,.online⟩],false,120⟩

theorem phoneLeft_reached : Reached phoneLeft := by
  refine bothLeased_reached.step (?_ : perform _ (.leave phone (some 0x0204a8c0) true) = some phoneLeft)
  decide

theorem hole_reserves_twice : ¬∀ s macaddr, Reached s → Segment s.dhcpsLease → Reserves s macaddr := by
  intro always
  have reserves := always phoneLeft camera phoneLeft_reached (by constructor <;> decide)
  obtain ⟨p,front,back,mine,offered,unheld,split,inserted⟩ := reserves.granted (by decide)
  have added : (wifiSoftapAddDhcpsLease phoneLeft camera).1.plist.map DhcpsPool.ip = [0x0304a8c0,0x0304a8c0] := by decide
  have member : p.ip ∈ (wifiSoftapAddDhcpsLease phoneLeft camera).1.plist.map DhcpsPool.ip := by
    rw [inserted]
    exact List.mem_map_of_mem (List.mem_append_right _ List.mem_cons_self)
  rw [added] at member
  have taken : p.ip = 0x0304a8c0 := by simpa using member
  exact unheld ⟨_,List.mem_singleton_self _,taken.symm⟩

end Reservation

end NonosLinkLayer.Dhcps
