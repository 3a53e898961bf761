import NonosLinkLayer.Base.SharedSlots

namespace NonosLinkLayer.ServerSlots
open SharedSlots

structure Ip6Addr where
  bytes : List UInt8
  zone : UInt8
  size : bytes.length = 16
  deriving DecidableEq, Repr

inductive IpAddr where
  | v4 (addr : UInt32)
  | v6 (addr : Ip6Addr)
  deriving DecidableEq, Repr

def ipAddrIsany : IpAddr → Bool
  | .v4 addr => addr == 0
  | .v6 addr => addr.bytes.all (· == 0)

inductive Family where
  | v4
  | v6
  deriving DecidableEq, Repr

namespace Family

def other : Family → Family
  | .v4 => .v6
  | .v6 => .v4

def ipIs : Family → IpAddr → Bool
  | .v4,.v4 _ => true
  | .v6,.v6 _ => true
  | _,_ => false

-- The slots an update of the family looks for, and those that hold an address of it.
def free (family : Family) (slotIp : IpAddr) : Bool := ipAddrIsany slotIp || family.ipIs slotIp
def holds (family : Family) (slotIp : IpAddr) : Bool := family.ipIs slotIp && !ipAddrIsany slotIp

theorem free_other (family : Family) (a : IpAddr) : family.free a = !family.other.holds a := by
  cases family <;> cases a <;> simp [free,holds,ipIs,other]

theorem free_iff (family : Family) (a : IpAddr) : family.free a = (ipAddrIsany a || family.holds a) := by
  unfold free holds
  cases ipAddrIsany a <;> simp

theorem holds_free (family : Family) (a : IpAddr) (mine : family.holds a = true) : family.free a = true := by
  simp [free_iff,mine]

theorem holds_used (family : Family) (a : IpAddr) (mine : family.holds a = true) : ipAddrIsany a = false := by
  simp only [holds,Bool.and_eq_true,Bool.not_eq_true'] at mine
  exact mine.2

theorem any_holds (family : Family) (idle : ipAddrIsany a = true) : family.holds a = false := by
  simp [holds,idle]

theorem any_free (family : Family) (a : IpAddr) (idle : ipAddrIsany a = true) : family.free a = true := by
  simp [free,idle]

theorem holds_other (family : Family) (mine : family.holds a = true) : family.other.holds a = false := by
  have here := family.holds_free a mine
  rw [free_other] at here
  simpa using here

end Family

-- The slots are a plain array, in which IP_ADDR_ANY stands for no server.
abbrev Slots := List IpAddr

def ipAddrAny : IpAddr := .v4 0
def noServers (slots : Nat) : Slots := List.replicate slots ipAddrAny
def getserver (s : Slots) (i : UInt8) : IpAddr := s.getD i.toNat ipAddrAny
def setserver (s : Slots) (i : UInt8) (addr : Option IpAddr) : Slots := s.set i.toNat (addr.getD ipAddrAny)

def servers (family : Family) (s : Slots) : List IpAddr := s.filter family.holds

def Untouched (family : Family) (s next : Slots) : Prop :=
  ∀ (i : Nat) (addr : IpAddr), s[i]? = some addr → family.holds addr = true → next[i]? = some addr

variable {s mid next done rest : Slots} {family : Family} {i : UInt8} {addr : Option IpAddr}

@[simp] theorem length_setserver : (setserver s i addr).length = s.length := by simp [setserver]

theorem getserver_at (place : done.length = i.toNat) (slot : IpAddr) : getserver (done ++ slot :: rest) i = slot := by
  simp [getserver,←place]

theorem setserver_at (place : done.length = i.toNat) (slot : IpAddr) :
    setserver (done ++ slot :: rest) i addr = (done ++ [addr.getD ipAddrAny]) ++ rest := by
  simp [setserver,←place]

theorem succ_toNat (small : i.toNat + 1 < 256) : (i + 1).toNat = i.toNat + 1 := by
  rw [UInt8.toNat_add,UInt8.toNat_one]
  omega

theorem servers_noServers (family : Family) (slots : Nat) : servers family (noServers slots) = [] := by
  refine List.filter_eq_nil_iff.mpr fun a member => ?_
  rw [List.eq_of_mem_replicate member,family.any_holds rfl]
  decide

namespace Untouched

theorem refl (family : Family) (s : Slots) : Untouched family s s := fun _ _ here _ => here

theorem trans (one : Untouched family s mid) (two : Untouched family mid next) : Untouched family s next :=
  fun i addr here mine => two i addr (one i addr here mine) mine

theorem set (addr : Option IpAddr) (here : family.free (getserver s i) = true) :
    Untouched family.other s (setserver s i addr) := by
  intro j slot place mine
  have apart : i.toNat ≠ j := by
    intro same
    rw [Family.free_other] at here
    simp [getserver,same,place,mine] at here
  rw [setserver,List.getElem?_set_ne apart]
  exact place

end Untouched

end NonosLinkLayer.ServerSlots
